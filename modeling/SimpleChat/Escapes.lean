/-
  Exceptions that escape the chat client.

  The formatter looks an argument up once more behind its `try` block, and the
  statements of `insert_db` are searched for markers again after a value has been put in.
  So a text of a peer can make a handler throw.

  * `Tolerates`, `Fillable`: the texts that the formatter gets through, and the values
    that can be put into a statement one by one;
  * `insertHistorySql_ok_iff`, `insertRecordSql_ok_iff`: the chat messages and the friend
    requests whose statement can be built;
  * `Harmless`, `runTask_harmless`: every other handler returns;
  * `slMessage_noThrow_iff`: so no exception escapes `sl_message` if and only if these
    statements can be built.
-/
import SimpleChat.Substitution
import SimpleChat.CacheReplay
import SimpleChat.Logins
import SimpleChat.Statements

namespace SimpleChat

open Lib Lib.Json Lib.Sql

/-! ## Texts that the formatter gets through -/

/-- With `f` as the only argument, every group that the search comes to holds the number
    0 or, after the first, no number at all. -/
def Tolerates (t f : Str) : Prop :=
  (∀ x ∈ reached [f] (-1) t, stoi x = none ∨ stoi x = some 0) ∧
    ∀ x ∈ (reached [f] (-1) t).head?, stoi x = some 0

section
variable {t f p u : Str} {vec : List Str} {e : Fault}

/-- The only exception of the formatter. -/
theorem sformat_error (h : sformat t vec = .error e) : e = .thrown .outOfRange := by
  obtain ⟨⟨fs, s, -, hend⟩, -⟩ := sformat_rounds vec t
  rcases hend with ⟨-, hok, -⟩ | ⟨-, herr, -⟩
  · rw [hok] at h
    cases h
  · rw [herr] at h
    exact (Except.error.inj h).symm

theorem names_single {x : Str} : Names [f] x ↔ stoi x = some 0 := by
  constructor
  · rintro ⟨v, a, hx, hv⟩
    unfold vecAt at hv
    split_ifs at hv with hpos
    have hlt : v.toNat < 1 := (List.getElem?_eq_some_iff.1 hv).1
    obtain rfl : v = 0 := by omega
    exact hx
  · intro hx
    exact ⟨0, f, hx, rfl⟩

/-- **When a formatter with one argument returns.** -/
theorem sformat_ok_iff : (∃ u, sformat t [f] = .ok u) ↔ Tolerates t f := by
  have hiff := sformat_tolerates_iff [f] t
  simp only [names_single] at hiff
  rw [Tolerates, ← hiff]
  constructor
  · rintro ⟨u, hu⟩
    have hscan : scan [f] (-1) t = .ok u := by rw [← sformat_eq_scan, hu]
    exact ⟨u, hu, replaced_of_scan hscan⟩
  · rintro ⟨u, hu, -⟩
    exact ⟨u, hu⟩

/-- What stands before the first opening brace is passed over. -/
theorem sformat_append (hp : lbrace ∉ p) : sformat (p ++ t) vec = (sformat t vec).map (p ++ ·) := by
  rw [sformat_eq_scan, sformat_eq_scan]
  induction p with
  | nil =>
    rw [List.nil_append]
    cases scan vec (-1) t <;> rfl
  | cons c p ih =>
    rw [List.mem_cons, not_or] at hp
    rw [List.cons_append, scan_cons (Ne.symm hp.1), ih hp.2]
    cases scan vec (-1) t <;> rfl

theorem tolerates_append (hp : lbrace ∉ p) : Tolerates (p ++ t) f ↔ Tolerates t f := by
  rw [← sformat_ok_iff, ← sformat_ok_iff, sformat_append hp]
  constructor
  · rintro ⟨u, hu⟩
    obtain ⟨v, hv, -⟩ := map_eq_ok.1 hu
    exact ⟨v, hv⟩
  · rintro ⟨v, hv⟩
    exact ⟨p ++ v, map_eq_ok.2 ⟨v, hv, rfl⟩⟩

end

/-! ## Values that can be put in -/

/-- The values can be put into the statement one by one, each into the text that the
    ones before it have left. -/
def Fillable : Str → List Field → Prop
  | _, [] => True
  | t, [v] => Tolerates t v.sqlText
  | t, v :: w :: vs =>
    Tolerates t (v.sqlText ++ lit ",{0}") ∧
      ∀ u, sformat t [v.sqlText ++ lit ",{0}"] = .ok u → Fillable u (w :: vs)

section
variable {t pre : Str} {v w : Field} {vs args : List Field}

theorem insertParseSql_next (t : Str) (v : Field) :
    insertParseSql t v true = sformat t [v.sqlText ++ lit ",{0}"] := by
  rw [insertParseSql_sqlText, if_pos rfl]
  rfl

theorem insertMpl_ok_iff : ∀ {args : List Field} {t : Str},
    (∃ u, insertMpl t args = .ok u) ↔ Fillable t args
  | [], t => iff_of_true ⟨t, rfl⟩ trivial
  | [v], t => by
    rw [insertMpl_single, insertParseSql_sqlText, Fillable]
    exact sformat_ok_iff
  | v :: w :: vs, t => by
    rw [insertMpl_cons, insertParseSql_next, Fillable, ← sformat_ok_iff]
    constructor
    · rintro ⟨u, hu⟩
      obtain ⟨t', ht', hu⟩ := bind_eq_ok.1 hu
      refine ⟨⟨t', ht'⟩, fun t'' ht'' => insertMpl_ok_iff.1 ⟨u, ?_⟩⟩
      obtain rfl := Except.ok.inj (ht'.symm.trans ht'')
      exact hu
    · rintro ⟨⟨t', ht'⟩, hrest⟩
      obtain ⟨u, hu⟩ := insertMpl_ok_iff.2 (hrest t' ht')
      exact ⟨u, bind_eq_ok.2 ⟨t', ht', hu⟩⟩

theorem insertMpl_error {e : Fault} : ∀ {args : List Field} {t : Str},
    insertMpl t args = .error e → e = .thrown .outOfRange
  | [], t, h => by cases h
  | [v], t, h => by
    rw [insertMpl_single, insertParseSql_sqlText] at h
    exact sformat_error h
  | v :: w :: vs, t, h => by
    rw [insertMpl_cons, insertParseSql_next] at h
    cases hs : sformat t [v.sqlText ++ lit ",{0}"] with
    | error e' =>
      rw [hs, error_bind, Except.error.injEq] at h
      exact h ▸ sformat_error hs
    | ok u =>
      rw [hs, ok_bind] at h
      exact insertMpl_error h

/-- A value that is put in behind a text without braces disturbs nothing. -/
theorem fillable_step (hpre : lbrace ∉ pre) :
    Fillable (pre ++ marker 0 ++ lit ");") (v :: w :: vs) ↔
      Fillable ((pre ++ v.sqlText ++ [44]) ++ marker 0 ++ lit ");") (w :: vs) := by
  have hfirst : sformat (pre ++ marker 0 ++ lit ");") [v.sqlText ++ lit ",{0}"] =
      .ok ((pre ++ v.sqlText ++ [44]) ++ marker 0 ++ lit ");") := by
    rw [← insertParseSql_next, insertParseSql_eq (noFlg_of_notMem hpre), if_pos rfl]
    simp
  rw [Fillable, ← sformat_ok_iff, hfirst]
  constructor
  · rintro ⟨-, hrest⟩
    exact hrest _ rfl
  · intro h
    refine ⟨⟨_, rfl⟩, fun u hu => ?_⟩
    rw [← Except.ok.inj hu]
    exact h

theorem insertDb_ok_iff (table : Str) : (∃ u, insertDb table args = .ok u) ↔
    Fillable ((lit "INSERT INTO " ++ table ++ lit " VALUES (") ++ marker 0 ++ lit ");") args := by
  rw [insertDb_eq_first, insertMpl_ok_iff]

theorem insertDb_error {table : Str} {e : Fault} (h : insertDb table args = .error e) :
    e = .thrown .outOfRange := by
  rw [insertDb_eq_first] at h
  exact insertMpl_error h

end

/-! ## The statements of chat messages and friend requests -/

/-- The formatter gets through the notes of a friend request. -/
def RecordRow.Buildable (r : RecordRow) : Prop :=
  Tolerates (r.notes ++ lit "',{0});") (Field.text r.remarks).sqlText

/-- The formatter gets through the type of a chat message, and through what it has made
    of it once more. -/
def HistoryRow.Buildable (r : HistoryRow) : Prop :=
  Tolerates (r.types ++ lit "',{0});") ((Field.text r.object).sqlText ++ lit ",{0}") ∧
    ∀ u, sformat (r.types ++ lit "',{0});") [(Field.text r.object).sqlText ++ lit ",{0}"] = .ok u →
      Tolerates u (Field.text r.content).sqlText

theorem lbrace_notMem_int {pre : Str} (hpre : lbrace ∉ pre) (n : Int64) :
    lbrace ∉ pre ++ (Field.int n).sqlText ++ [44] := by
  simp only [List.mem_append, not_or]
  exact ⟨⟨hpre, (brace_notMem_intText _).1⟩, by decide⟩

theorem lbrace_notMem_quote {pre : Str} (hpre : lbrace ∉ pre) : lbrace ∉ pre ++ [quote] := by
  rw [List.mem_append, not_or]
  exact ⟨hpre, by decide⟩

/-- The statement once a text has been put in. -/
theorem insert_text_eq (pre s : Str) :
    (pre ++ (Field.text s).sqlText ++ [44]) ++ marker 0 ++ lit ");" =
      (pre ++ [quote]) ++ (s ++ lit "',{0});") := by
  have hend : lit "',{0});" = quote :: 44 :: (marker 0 ++ lit ");") := by decide
  rw [hend, Field.sqlText]
  simp only [List.append_assoc, List.cons_append, List.nil_append]

/-- **A friend request.** -/
theorem insertRecordSql_ok_iff (account : Int64) (r : RecordRow) :
    (∃ u, insertRecordSql account r = .ok u) ↔ r.Buildable := by
  have hpre := lbrace_notMem_insertPre (lbrace_notMem_recordName account)
  have hpre₁ := lbrace_notMem_int hpre r.time
  have hpre₂ := lbrace_notMem_int hpre₁ r.friends
  rw [insertRecordSql, toTabel_eq, ok_bind, insertDb_ok_iff, RecordRow.fields, fillable_step hpre,
    fillable_step hpre₁, fillable_step hpre₂, Fillable, insert_text_eq,
    tolerates_append (lbrace_notMem_quote hpre₂)]
  rfl

/-- **A chat message.** -/
theorem insertHistorySql_ok_iff (acFriend : Int64) (r : HistoryRow) :
    (∃ u, insertHistorySql acFriend r = .ok u) ↔ r.Buildable := by
  have hpre := lbrace_notMem_insertPre (lbrace_notMem_historyName acFriend)
  have hpre₁ := lbrace_notMem_int hpre r.sendTime
  have hpre₂ := lbrace_notMem_int hpre₁ r.feedBack
  have hpre₃ := lbrace_notMem_int hpre₂ r.nonRead
  have hquote := lbrace_notMem_quote hpre₃
  rw [insertHistorySql, makeTable_eq, ok_bind, insertDb_ok_iff, HistoryRow.fields, fillable_step hpre,
    fillable_step hpre₁, fillable_step hpre₂, fillable_step hpre₃, Fillable, insert_text_eq,
    tolerates_append hquote, sformat_append hquote, HistoryRow.Buildable]
  refine and_congr_right fun _ => ?_
  constructor
  · intro h u hu
    exact (tolerates_append hquote).1 (h _ (map_eq_ok.2 ⟨u, hu, rfl⟩))
  · intro h u hu
    obtain ⟨v, hv, rfl⟩ := map_eq_ok.1 hu
    exact (tolerates_append hquote).2 (h v hv)

theorem insertHistorySql_error {acFriend : Int64} {r : HistoryRow} {e : Fault}
    (h : insertHistorySql acFriend r = .error e) : e = .thrown .outOfRange := by
  rw [insertHistorySql, makeTable_eq, ok_bind] at h
  exact insertDb_error h

theorem insertRecordSql_error {account : Int64} {r : RecordRow} {e : Fault}
    (h : insertRecordSql account r = .error e) : e = .thrown .outOfRange := by
  rw [insertRecordSql, toTabel_eq, ok_bind] at h
  exact insertDb_error h

/-! ## The database objects -/

namespace SqliteFile

section
variable {other : Str → Database → Result} {canOpen : Str → Bool} {s : SqliteFile}

/-- What stands in `_file` can be formatted: it is a template of the two classes, or a
    path. -/
def FileReady (s : SqliteFile) : Prop := s.file = historyFile ∨ s.file = recordFile ∨ NoFlg s.file

theorem openFile_returns (canOpen : Str → Bool) (hs : s.FileReady) (account : Int64) :
    ∃ b s', openFile canOpen account s = .ok (b, s') ∧ s'.FileReady := by
  have hopen : ∀ {p : Str}, sformat s.file [intText account.toInt] = .ok p → NoFlg p →
      ∃ b s', openFile canOpen account s = .ok (b, s') ∧ s'.FileReady :=
    fun hp hno => ⟨_, _, openFile_of_file hp, .inr (.inr hno)⟩
  rcases hs with hfile | hfile | hno
  · exact hopen (hfile.symm ▸ sformat_historyFile account) (noFlg_path (by decide +kernel) account)
  · exact hopen (hfile.symm ▸ sformat_recordFile account) (noFlg_path (by decide +kernel) account)
  · exact hopen (sformat_noFlg hno _) hno

theorem FileReady.frame {s' : SqliteFile} (hs : s.FileReady) (h : Frame s s') : s'.FileReady := by
  rw [FileReady, h.file]
  exact hs

theorem FileReady.openFile {s' : SqliteFile} {account : Int64} {b : Bool} (hs : s.FileReady)
    (h : SqliteFile.openFile canOpen account s = .ok (b, s')) : s'.FileReady := by
  obtain ⟨b', s'', h', hready⟩ := openFile_returns canOpen hs account
  obtain ⟨-, rfl⟩ := Prod.mk.inj (Except.ok.inj (h.symm.trans h'))
  exact hready

theorem exec_returns (other : Str → Database → Result) (s : SqliteFile) {sql : Outcome Str} (h : ∃ text, sql = .ok text) :
    ∃ b s', exec other sql s = .ok (b, s') := by
  obtain ⟨text, rfl⟩ := h
  exact ⟨_, _, rfl⟩

end

end SqliteFile

/-! ## Messages -/

namespace QwebClient

open SqliteFile

/-- Neither a chat message nor a friend request, or one whose statement can be built. -/
def Harmless (J : JsonLib) : Task × Str → Prop
  | (.swapMsg, sjson) => ∀ m, getSwapMsg J sjson = .ok (some m) → m.row.Buildable
  | (.swapFriensAdd, sjson) => ∀ m, getSwapFriensAdd J sjson = .ok (some m) → m.row.Buildable
  | _ => True

/-- The paths of both databases can be formatted. -/
def Ready (c : QwebClient SqliteFile SqliteFile) : Prop := c.dbh.FileReady ∧ c.dbr.FileReady

section
variable {J : JsonLib} {δ ρ : Type} {c : QwebClient δ ρ} {sjson : Str} {t : Task}

/-- The readers of a message return: it has been parsed before. -/
theorem IsMessage.csGet_returns {α : Type} (h : IsMessage J sjson t) (body : Json → Option α) :
    ∃ m, csGet J sjson body = .ok m := by
  obtain ⟨fs, -, -, hp, -⟩ := h
  rw [csGet, parse, hp]
  exact ⟨_, rfl⟩

theorem signalled_returns {α : Type} {r : Outcome (Option α)} (h : ∃ m, r = .ok m)
    (s : α → Signal) (c : QwebClient δ ρ) : ∃ c', signalled r s c = .ok c' := by
  obtain ⟨m, rfl⟩ := h
  exact ⟨_, rfl⟩

theorem handled_returns {α : Type} {r : Outcome (Option α)}
    {f : α → QwebClient δ ρ → Outcome (QwebClient δ ρ)} (h : ∃ m, r = .ok m)
    (hf : ∀ m, r = .ok (some m) → ∃ c', f m c = .ok c') : ∃ c', handled r f c = .ok c' := by
  obtain ⟨m, rfl⟩ := h
  cases m with
  | none => exact ⟨c, rfl⟩
  | some m => exact hf m rfl

end

section
variable {J : JsonLib} {clock : ℕ → Int64} {other : Str → Database → Result} {canOpen : Str → Bool}
  {c c' : QwebClient SqliteFile SqliteFile} {sjson : Str} {t : Task}

/-- The tables of a login can be created. -/
theorem createAll_returns (friends : List FriendsInit) (d : SqliteFile) :
    ∃ d', createAll (sqlHistory other canOpen) friends d = .ok d' := by
  unfold createAll
  induction friends generalizing d with
  | nil => exact ⟨d, rfl⟩
  | cons ct friends ih =>
    obtain ⟨b, d₁, h₁⟩ := exec_returns other d ⟨_, createHistorySql_eq ct.friends⟩
    obtain ⟨d', hd'⟩ := ih d₁
    refine ⟨d', ?_⟩
    rw [List.foldlM_cons]
    exact bind_eq_ok.2 ⟨d₁, map_eq_ok.2 ⟨(b, d₁), h₁, rfl⟩, hd'⟩

theorem acLoginBack_returns (hc : Ready c) (m : AcLoginBack) :
    ∃ c', acLoginBack J (sqlHistory other canOpen) (sqlRecord other canOpen) m c = .ok c' := by
  obtain ⟨b, d, hd, -⟩ := openFile_returns canOpen hc.1 m.account
  obtain ⟨b', r, hr, -⟩ := openFile_returns canOpen hc.2 m.account
  obtain ⟨d', hd'⟩ : ∃ d', createAll (sqlHistory other canOpen) (vecFriends J m.svecFriendsInfo) d =
      .ok d' := createAll_returns _ d
  obtain ⟨s, hs⟩ := MsgType.exists_set J .swapCache m.account (by simp [MsgType.strings])
  exact ⟨_, acLoginBack_eq_ok.2 ⟨b, d, b', r, d', s, hd, hr, hd', hs, rfl⟩⟩

theorem swapMsgBack_returns (m : SwapMsgBack) :
    ∃ c', swapMsgBack (sqlHistory other canOpen) m c = .ok c' := by
  have hname := lbrace_notMem_historyName m.source
  have hcols : lbrace ∉ lit "send_time" ∧ lbrace ∉ lit "feed_back" := by decide
  have hsql : ∃ text, updateFeedBackSql m.source m.timeTo m.timeOk = .ok text := by
    rw [updateFeedBackSql, makeTable_eq, ok_bind, updateDb_eq hname hcols.1 hcols.2]
    exact ⟨_, rfl⟩
  obtain ⟨b, d, hd⟩ := exec_returns other c.dbh hsql
  exact ⟨_, map_eq_ok.2 ⟨(b, { c with dbh := d }), onHistory_eq_ok.2 ⟨d, hd, rfl⟩, rfl⟩⟩

theorem swapMsg_returns {m : SwapMsg} (h : m.row.Buildable) :
    ∃ c', swapMsg J (sqlHistory other canOpen) clock m c = .ok c' := by
  obtain ⟨b, d, hd⟩ := exec_returns other c.dbh
    ((insertHistorySql_ok_iff m.source m.row).2 h)
  obtain ⟨s, hs⟩ := MsgType.exists_set J .swapMsgBack
    ⟨m.source, m.target, m.timeTo, clock c.sent.length⟩ (by simp [MsgType.strings])
  exact ⟨_, bind_eq_ok.2 ⟨(b, { c with dbh := d }), onHistory_eq_ok.2 ⟨d, hd, rfl⟩,
    bind_eq_ok.2 ⟨s, hs, rfl⟩⟩⟩

theorem swapFriensAdd_returns {m : FriendAdd} (h : m.row.Buildable) :
    ∃ c', swapFriensAdd (sqlRecord other canOpen) m c = .ok c' := by
  obtain ⟨b, r, hr⟩ := exec_returns other c.dbr
    ((insertRecordSql_ok_iff m.friends m.row).2 h)
  exact ⟨_, swapFriensAdd_eq_ok.2 ⟨b, r, hr, rfl⟩⟩

/-- **The handler of a harmless message returns.** -/
theorem runTask_returns (hc : Ready c) (hm : IsMessage J sjson t) (h : Harmless J (t, sjson)) :
    ∃ c', runTask J (sqlHistory other canOpen) (sqlRecord other canOpen) clock t sjson c = .ok c' := by
  cases t with
  | acLoginBack => exact handled_returns (hm.csGet_returns _) fun m _ => acLoginBack_returns hc m
  | swapFriensAdd => exact handled_returns (hm.csGet_returns _) fun m hr => swapFriensAdd_returns (h m hr)
  | swapMsg => exact handled_returns (hm.csGet_returns _) fun m hr => swapMsg_returns (h m hr)
  | swapMsgBack => exact handled_returns (hm.csGet_returns _) fun m _ => swapMsgBack_returns m
  | errorInfo =>
    obtain ⟨m, hr⟩ := hm.csGet_returns _
    exact ⟨c, map_eq_ok.2 ⟨m, hr, rfl⟩⟩
  | swapCacheBack => exact ⟨c, rfl⟩
  | _ => exact signalled_returns (hm.csGet_returns _) _ c

/-- The handler of any other message throws. -/
theorem runTask_throws (h : ¬ Harmless J (t, sjson)) :
    runTask J (sqlHistory other canOpen) (sqlRecord other canOpen) clock t sjson c =
      .error (.thrown .outOfRange) := by
  cases t with
  | swapMsg =>
    obtain ⟨m, h⟩ := not_forall.1 h
    obtain ⟨hr, hbuild⟩ := Classical.not_imp.1 h
    cases hsql : insertHistorySql m.source m.row with
    | ok text => exact absurd ((insertHistorySql_ok_iff _ _).1 ⟨text, hsql⟩) hbuild
    | error e =>
      have hins : c.onHistory ((sqlHistory other canOpen).insertHistory m.source m.row) = .error e := by
        unfold onHistory sqlHistory SqliteFile.exec
        simp only [hsql]
        rfl
      rw [runTask, taskSwapMsg, handled_some hr, swapMsg, hins, insertHistorySql_error hsql]
      rfl
  | swapFriensAdd =>
    obtain ⟨m, h⟩ := not_forall.1 h
    obtain ⟨hr, hbuild⟩ := Classical.not_imp.1 h
    cases hsql : insertRecordSql m.friends m.row with
    | ok text => exact absurd ((insertRecordSql_ok_iff _ _).1 ⟨text, hsql⟩) hbuild
    | error e =>
      have hins : c.onRecord ((sqlRecord other canOpen).insertRecord m.friends
          ⟨m.time, m.account, m.notes, m.remarks⟩) = .error e := by
        unfold onRecord sqlRecord SqliteFile.exec
        simp only [show insertRecordSql m.friends ⟨m.time, m.account, m.notes, m.remarks⟩ = .error e from hsql]
        rfl
      rw [runTask, taskSwapFriensAdd, handled_some hr, swapFriensAdd, hins, insertRecordSql_error hsql]
      rfl
  | _ => exact absurd trivial h

theorem Ready.leafStep {l : Outcome (Task × Str)} (hc : Ready c)
    (h : LeafStep J other canOpen clock c l c') : Ready c' := by
  cases hl : loginOf J l with
  | none =>
    obtain ⟨hh, hr⟩ := frame_leafStep h hl
    exact ⟨hc.1.frame hh, hc.2.frame hr⟩
  | some m =>
    obtain ⟨b, d, b', hh, hframe, hr⟩ := login_leafStep h hl
    exact ⟨(hc.1.openFile hh).frame hframe, hc.2.openFile hr⟩

/-! ## Texts -/

/-- The messages in a text that are handled before the first one without a head or a
    version, on which an assertion fails. -/
def judged (J : JsonLib) (sjson : Str) : List (Task × Str) :=
  ((leaves J sjson).takeWhile Except.isOk).filterMap Except.toOption

theorem route_error {e : Fault} (h : route J sjson = .error e) : e = .assertion := by
  by_cases hf : ∃ fs stream type, J.parse sjson = some (.obj fs) ∧
      find fs (lit "stream") = some (.str stream) ∧ find fs (lit "type") = some (.str type)
  · obtain ⟨fs, stream, type, hp, hs, ht⟩ := hf
    rw [route, checkJson_of_fields hp hs ht] at h
    cases hcheck : checkHead (.obj fs) with
    | ok b => rw [hcheck] at h; cases h
    | error e' =>
      obtain rfl := checkHead_error hcheck
      rw [hcheck] at h
      exact (Except.error.inj h).symm
  · rw [route, checkJson_of_noFields hf] at h
    cases h

/-- **What the client comes to in a text**, by induction on its length. -/
theorem leaves_spec : ∀ leaf ∈ leaves J sjson,
    leaf = .error .assertion ∨ ∃ l, leaf = .ok l ∧ IsMessage J l.2 l.1 := by
  induction hn : sjson.length using Nat.strong_induction_on generalizing sjson with
  | _ n ih =>
    intro leaf hleaf
    by_cases hm : ∃ task, IsMessage J sjson task
    swap
    · rw [leaves] at hleaf
      cases hr : route J sjson with
      | error e =>
        simp only [hr, List.mem_singleton] at hleaf
        exact .inl (route_error hr ▸ hleaf)
      | ok r =>
        cases r with
        | none => simp [hr] at hleaf
        | some task => exact absurd ⟨task, route_eq_some.1 hr⟩ hm
    obtain ⟨task, hm⟩ := hm
    by_cases ht : task = .swapCacheBack
    swap
    · rw [leaves_of_task (route_eq_some.2 hm) ht, List.mem_singleton] at hleaf
      exact .inr ⟨_, hleaf, hm⟩
    subst ht
    rcases hm.cache with ⟨svec, hc⟩ | hc
    · rw [leaves_of_cache (route_eq_some.2 hm) hc, List.mem_flatMap] at hleaf
      obtain ⟨u, hu, hleaf⟩ := hleaf
      have hlt := (getJsonVec_length hu).trans (getSwapCacheBack_length hc)
      exact ih u.length (hn ▸ hlt) rfl leaf hleaf
    · rw [leaves_of_unread hm hc] at hleaf
      cases hleaf

/-- **The messages of a text**, one after the other: the first that is not harmless
    throws. -/
theorem foldlM_noThrow_iff {ls : List (Outcome (Task × Str))}
    (hls : ∀ leaf ∈ ls, leaf = .error .assertion ∨ ∃ l, leaf = .ok l ∧ IsMessage J l.2 l.1)
    (hc : Ready c) :
    Outcome.NoThrow (ls.foldlM (runLeaf J (sqlHistory other canOpen) (sqlRecord other canOpen) clock) c) ↔
      ∀ l ∈ (ls.takeWhile Except.isOk).filterMap Except.toOption, Harmless J l := by
  induction ls generalizing c with
  | nil => exact iff_of_true (fun e h => ok_ne_error h) (by simp)
  | cons leaf ls ih =>
    obtain ⟨hleaf, hrest⟩ := List.forall_mem_cons.1 hls
    rw [List.foldlM_cons]
    rcases hleaf with rfl | ⟨l, rfl, hm⟩
    · exact iff_of_true (fun e h => by cases h) (by simp [Except.isOk, Except.toBool])
    have hcons : ((.ok l :: ls).takeWhile Except.isOk).filterMap Except.toOption =
        l :: (ls.takeWhile Except.isOk).filterMap Except.toOption := rfl
    rw [hcons, List.forall_mem_cons]
    by_cases hl : Harmless J l
    · obtain ⟨c₁, hstep⟩ : ∃ c₁, LeafStep J other canOpen clock c (.ok l) c₁ := runTask_returns hc hm hl
      rw [show runLeaf J (sqlHistory other canOpen) (sqlRecord other canOpen) clock c (.ok l) = .ok c₁
        from hstep, ok_bind, ih hrest (hc.leafStep hstep)]
      exact (and_iff_right hl).symm
    · have hthrow : runLeaf J (sqlHistory other canOpen) (sqlRecord other canOpen) clock c (.ok l) =
          .error (.thrown .outOfRange) := runTask_throws hl
      rw [hthrow, error_bind]
      exact iff_of_false (fun h => h _ rfl) fun h => hl h.1

/-- The call returns if moreover no assertion fails. -/
theorem foldlM_returns_iff {ls : List (Outcome (Task × Str))}
    (hls : ∀ leaf ∈ ls, leaf = .error .assertion ∨ ∃ l, leaf = .ok l ∧ IsMessage J l.2 l.1)
    (hc : Ready c) :
    (∃ c', ls.foldlM (runLeaf J (sqlHistory other canOpen) (sqlRecord other canOpen) clock) c = .ok c') ↔
      ∀ leaf ∈ ls, ∃ l, leaf = .ok l ∧ Harmless J l := by
  induction ls generalizing c with
  | nil => exact iff_of_true ⟨c, rfl⟩ (by simp)
  | cons leaf ls ih =>
    obtain ⟨hleaf, hrest⟩ := List.forall_mem_cons.1 hls
    rw [List.foldlM_cons, List.forall_mem_cons]
    rcases hleaf with rfl | ⟨l, rfl, hm⟩
    · refine iff_of_false ?_ ?_
      · rintro ⟨c', hc'⟩
        cases hc'
      · rintro ⟨⟨l, hl, -⟩, -⟩
        cases hl
    by_cases hl : Harmless J l
    · obtain ⟨c₁, hstep⟩ : ∃ c₁, LeafStep J other canOpen clock c (.ok l) c₁ := runTask_returns hc hm hl
      rw [show runLeaf J (sqlHistory other canOpen) (sqlRecord other canOpen) clock c (.ok l) = .ok c₁
        from hstep, ok_bind, ih hrest (hc.leafStep hstep)]
      exact (and_iff_right ⟨l, rfl, hl⟩).symm
    · have hthrow : runLeaf J (sqlHistory other canOpen) (sqlRecord other canOpen) clock c (.ok l) =
          .error (.thrown .outOfRange) := runTask_throws hl
      rw [hthrow, error_bind]
      refine iff_of_false ?_ ?_
      · rintro ⟨c', hc'⟩
        cases hc'
      · rintro ⟨⟨l', hl', hharmless⟩, -⟩
        obtain rfl := Except.ok.inj hl'
        exact hl hharmless

/-! ## Runs -/

/-- What reaches the client: a text from the network, a chat message that the user
    sends, or another request of the user, which is only sent. -/
inductive Input where
  | received (sjson : Str)
  | asked (msg : SwapMsg)
  | requested (sjson : Str)

/-- The client handles an input, and returns. -/
def InputStep (J : JsonLib) (other : Str → Database → Result) (canOpen : Str → Bool)
    (clock : ℕ → Int64) (c : QwebClient SqliteFile SqliteFile) (i : Input)
    (c' : QwebClient SqliteFile SqliteFile) : Prop :=
  match i with
  | .received sjson =>
    slMessage J (sqlHistory other canOpen) (sqlRecord other canOpen) clock sjson c = .ok c'
  | .asked msg => askSwapMsg J (sqlHistory other canOpen) msg c = .ok c'
  | .requested sjson => c' = c.sendMsg sjson

theorem Ready.inputStep {i : Input} (hc : Ready c) (h : InputStep J other canOpen clock c i c') :
    Ready c' := by
  cases i with
  | received sjson =>
    have hrun : slMessage J (sqlHistory other canOpen) (sqlRecord other canOpen) clock sjson c = .ok c' := h
    rw [slMessage_eq] at hrun
    exact (Run.of_foldlM hrun).invariant hc fun _ _ _ hc hs => hc.leafStep hs
  | asked msg =>
    obtain ⟨⟨b, c₁⟩, h₁, h⟩ := bind_eq_ok.1 h
    obtain ⟨d, hd, rfl⟩ := onHistory_eq_ok.1 h₁
    have hready : Ready { c with dbh := d } := ⟨hc.1.frame (frame_exec hd), hc.2⟩
    cases b with
    | false =>
      obtain rfl := Except.ok.inj h
      exact hready
    | true =>
      obtain ⟨sjson, -, h⟩ := bind_eq_ok.1 h
      obtain rfl := Except.ok.inj h
      exact hready
  | requested sjson =>
    obtain rfl := h
    exact hc

/-- **When a received text makes an exception escape.**  After any run of the client, no
    exception escapes `sl_message` if and only if, of the messages that the text leads to
    before an assertion fails, the statement of every chat message and of every friend
    request can be built; the call returns if and only if moreover no assertion fails. -/
theorem slMessage_noThrow_iff {c₀ : QwebClient SqliteFile SqliteFile} {is : List Input}
    (hh : c₀.dbh.file = historyFile) (hr : c₀.dbr.file = recordFile)
    (hrun : Run (InputStep J other canOpen clock) c₀ is c) (sjson : Str) :
    (Outcome.NoThrow (slMessage J (sqlHistory other canOpen) (sqlRecord other canOpen) clock sjson c) ↔
      ∀ l ∈ judged J sjson, Harmless J l) ∧
    ((∃ c', slMessage J (sqlHistory other canOpen) (sqlRecord other canOpen) clock sjson c = .ok c') ↔
      ∀ leaf ∈ leaves J sjson, ∃ l, leaf = .ok l ∧ Harmless J l) := by
  have hc : Ready c := hrun.invariant (I := Ready) ⟨.inl hh, .inr (.inl hr)⟩
    fun _ _ _ hc hs => hc.inputStep hs
  rw [slMessage_eq]
  exact ⟨foldlM_noThrow_iff leaves_spec hc, foldlM_returns_iff leaves_spec hc⟩

end

/-! ## A friend request that ends the program -/

/-- The notes look like a marker. -/
def markedRequest : FriendAdd := ⟨5, 2, 1, lit "{name}", lit "B"⟩

/-- After a login, a text that is read. -/
theorem slMessage_noThrow_iff_request : ∃ t u c₁,
    slMessage jsonText firstHistory firstRecord (fun _ => 9) t started = .ok c₁ ∧
    setSwapFriensAdd jsonText markedRequest = .ok u ∧
    (Outcome.NoThrow (slMessage jsonText firstHistory firstRecord (fun _ => 9) u c₁) ↔
      ∀ l ∈ judged jsonText u, Harmless jsonText l) ∧
    ((∃ c', slMessage jsonText firstHistory firstRecord (fun _ => 9) u c₁ = .ok c') ↔
      ∀ leaf ∈ leaves jsonText u, ∃ l, leaf = .ok l ∧ Harmless jsonText l) := by
  obtain ⟨t, c₁, -, hc₁, -⟩ := exists_firstLogin
  obtain ⟨u, hu⟩ := MsgType.exists_set jsonText .swapFriensAdd markedRequest (by decide)
  have hrun : Run (InputStep jsonText noOther (fun _ => true) fun _ => 9) started [.received t] c₁ :=
    .next .start hc₁
  exact ⟨t, u, c₁, hc₁, hu, slMessage_noThrow_iff rfl rfl hrun u⟩

/-- An exception escapes. -/
theorem request_throws : ∃ t u c₁, setAcLoginBack jsonText firstLogin = .ok t ∧
    setSwapFriensAdd jsonText markedRequest = .ok u ∧
    slMessage jsonText firstHistory firstRecord (fun _ => 9) t started = .ok c₁ ∧
    slMessage jsonText firstHistory firstRecord (fun _ => 9) u c₁ = .error (.thrown .outOfRange) := by
  obtain ⟨t, c₁, ht, hc₁, -⟩ := exists_firstLogin
  obtain ⟨u, hu⟩ := MsgType.exists_set jsonText .swapFriensAdd markedRequest (by decide)
  have hroute : route jsonText u = .ok (some .swapFriensAdd) := (route_set hu).trans (by decide +kernel)
  have hsql : (insertRecordSql 1 markedRequest.row).toOption = none := by decide +kernel
  have hharmful : ¬ Harmless jsonText (.swapFriensAdd, u) := by
    intro h
    obtain ⟨text, htext⟩ := (insertRecordSql_ok_iff 1 markedRequest.row).2
      (h markedRequest (MsgType.get_set jsonText hu))
    rw [htext] at hsql
    cases hsql
  refine ⟨t, u, c₁, ht, hu, hc₁, ?_⟩
  rw [slMessage_of_task hroute (by decide)]
  exact runTask_throws hharmful

end QwebClient

end SimpleChat
