/-
  Friend requests on their way into the record of the account.

  `create_record` is never called: the table that `insert_record` writes to does not
  exist, and every request is lost (`requests_lost`).
-/
import SimpleChat.SqliteFile
import SimpleChat.Codec

namespace SimpleChat

open Lib Lib.Json Lib.Sql SqliteFile

/-- The entry of the record that a request should become. -/
def FriendAdd.row (m : FriendAdd) : RecordRow := ⟨m.time, m.account, m.notes, m.remarks⟩

/-- No quotes and no braces. -/
def PlainText (s : Str) : Prop := ∀ c ∈ s, c ≠ quote ∧ c ≠ lbrace ∧ c ≠ rbrace

instance (s : Str) : Decidable (PlainText s) := inferInstanceAs (Decidable (∀ c ∈ s, _))

/-- The statement of a request with plain texts. -/
theorem insertRecordSql_plain {account : Int64} {tup : RecordRow} (hn : PlainText tup.notes) :
    insertRecordSql account tup = .ok (insertText (recordName account) tup.fields) := by
  have hscan : NoFlg (scannedText tup.fields) := by
    refine noFlg_of_notMem ?_
    have hnotes : lbrace ∉ tup.notes := fun h => (hn _ h).2.1 rfl
    have htime := (brace_notMem_intText tup.time.toInt).1
    have hfriends := (brace_notMem_intText tup.friends.toInt).1
    simp only [RecordRow.fields, scannedText, Field.sqlText, List.mem_append, List.mem_cons,
      List.not_mem_nil, or_false, not_or]
    exact ⟨htime, by decide, hfriends, by decide, ⟨⟨by decide, hnotes⟩, by decide⟩, by decide⟩
  rw [insertRecordSql, toTabel_eq, ok_bind,
    insertDb_eq (lbrace_notMem_recordName account) (by simp [RecordRow.fields]) hscan]

/-- The words of a statement on the record of an account. -/
theorem recordName_word (account : Int64) {d : UInt8}
    (hd : isIdChar d = false ∧ d ≠ 46 ∧ d ≠ 0 ∧ d ≠ quote) (s : Str) :
    ∃ w c r, TableWord w ∧ (isIdChar c = false ∧ c ≠ 46 ∧ c ≠ 0 ∧ c ≠ quote) ∧
      recordName account ++ d :: s = w ++ c :: r :=
  tableWord_of_name .record .recordName account.toInt hd s

section
variable {other : Str → Database → Result} {db : Database}

/-- Without tables nothing is inserted into the record. -/
theorem exec_insertRecord (hother : SqliteRules other) (hdb : ∀ t, db t = none) (account : Int64)
    (args : List Field) :
    Sql.exec db other (insertText (recordName account) args) = failed db := by
  obtain ⟨w, c, r, hw, hc, he⟩ := recordName_word account (d := 32) (by decide)
    (lit "VALUES (" ++ valuesText args ++ lit ");")
  have hshape : insertText (recordName account) args = lit "INSERT INTO " ++ w ++ c :: r := by
    rw [List.append_assoc, ← he]
    simp only [insertText, List.append_assoc]
    rfl
  rw [hshape]
  exact exec_insert_noTable hother hw hc (hdb w)

/-- Without tables the record has no entries. -/
theorem selectRecord_noTable (hother : SqliteRules other) (hdb : ∀ t, db t = none) (account : Int64) :
    SimpleChat.selectRecord other db account = .ok (false, []) := by
  obtain ⟨w, c, r, hw, hc, he⟩ := recordName_word account (d := 59) (by decide) []
  have hsql : sformat (lit "SELECT * FROM {0};") [recordName account] =
      .ok (lit "SELECT * FROM " ++ w ++ c :: r) := by
    have hshape : lit "SELECT * FROM {0};" = template (lit "SELECT * FROM ") [(0, [59])] := by
      decide +kernel
    rw [hshape, sformat_template (by decide +kernel) (by simp; decide) (by decide), List.append_assoc,
      ← he]
    simp [filled]
  rw [SimpleChat.selectRecord, toTabel_eq, ok_bind, hsql]
  simp only [selectRows, Except.map, exec_select_noTable hother hw hc (hdb w), failed]
  rfl

end

namespace QwebClient

variable {δ : Type} {J : JsonLib} {H : HistoryDb δ} {clock : ℕ → Int64}
  {other : Str → Database → Result} {canOpen : Str → Bool}

/-- The record object of a client that has logged in for the first time: whatever
    file is open, it has no tables. -/
def NoTables (s : SqliteFile) : Prop := ∀ p, s.path = some p → ∀ t, s.disk p t = none

/-- The texts are the friend requests `ms`. -/
def Requests (J : JsonLib) (ms : List FriendAdd) (ts : List Str) : Prop :=
  List.Forall₂ (fun m t => route J t = .ok (some .swapFriensAdd) ∧
    getSwapFriensAdd J t = .ok (some m)) ms ts

/-- The first login of a client opens the record of the account. -/
theorem noTables_login {a : Int64} {c₀ c₁ : QwebClient δ SqliteFile} {t : Str} {login : AcLoginBack}
    (hfile : c₀.dbr.file = recordFile) (hdisk : ∀ tbl, c₀.dbr.disk (recordPath a) tbl = none)
    (hroute : route J t = .ok (some .acLoginBack)) (hget : getAcLoginBack J t = .ok (some login))
    (ha : login.account = a)
    (h : slMessage J H (sqlRecord other canOpen) clock t c₀ = .ok c₁) : NoTables c₁.dbr := by
  rw [slMessage_of_task hroute (by decide)] at h
  have hlogin : acLoginBack J H (sqlRecord other canOpen) login c₀ = .ok c₁ := by
    rw [← handled_some hget (acLoginBack J H (sqlRecord other canOpen)) c₀]
    exact h
  obtain ⟨b, d, b', r, d', s, -, hopen, -, -, rfl⟩ := acLoginBack_eq_ok.1 hlogin
  have hr : openFile canOpen login.account c₀.dbr = .ok (b', r) := hopen
  rw [openFile, hfile, ha, sformat_recordFile, ok_bind] at hr
  obtain rfl := congrArg Prod.snd (Except.ok.inj hr)
  intro p hp tbl
  obtain rfl : recordPath a = p := by
    by_contra hne
    cases hcan : canOpen (recordPath a) <;> simp_all
  exact hdisk tbl

/-- A request changes nothing but what is logged. -/
theorem swapFriensAdd_noTables (hother : SqliteRules other) {m : FriendAdd} (hn : PlainText m.notes)
    {c : QwebClient δ SqliteFile} (hc : NoTables c.dbr) :
    ∃ c', swapFriensAdd (sqlRecord other canOpen) m c = .ok c' ∧ NoTables c'.dbr := by
  have hsql : insertRecordSql m.friends m.row = .ok (insertText (recordName m.friends) m.row.fields) :=
    insertRecordSql_plain hn
  have hexec : ∃ b r, (sqlRecord other canOpen).insertRecord m.friends m.row c.dbr = .ok (b, r) ∧
      NoTables r := by
    cases hp : c.dbr.path with
    | none =>
      exact ⟨false, c.dbr, by simp [sqlRecord, SqliteFile.exec, hsql, Except.map, hp], hc⟩
    | some p =>
      have hfail := exec_insertRecord hother (hc p hp) m.friends m.row.fields
      refine ⟨false, { c.dbr with disk := Function.update c.dbr.disk p (c.dbr.disk p) }, ?_, ?_⟩
      · simp only [sqlRecord, SqliteFile.exec, hsql, Except.map, hp, hfail, failed]
      · rw [Function.update_eq_self]
        exact hc
  obtain ⟨b, r, hins, hr⟩ := hexec
  exact ⟨_, swapFriensAdd_eq_ok.2 ⟨b, r, hins, rfl⟩, hr⟩

/-- No request creates a table. -/
theorem requests_noTables (hother : SqliteRules other) {ms : List FriendAdd} {ts : List Str}
    (hms : Requests J ms ts) (hplain : ∀ m ∈ ms, PlainText m.notes) {c₁ : QwebClient δ SqliteFile}
    (hc₁ : NoTables c₁.dbr) :
    ∃ c₂, ts.foldlM (fun c t => slMessage J H (sqlRecord other canOpen) clock t c) c₁ = .ok c₂ ∧
      NoTables c₂.dbr := by
  induction hms generalizing c₁ with
  | nil => exact ⟨c₁, rfl, hc₁⟩
  | @cons m t ms ts hd _ ih =>
    obtain ⟨c, hc, hnt⟩ : ∃ c, swapFriensAdd (sqlRecord other canOpen) m c₁ = .ok c ∧ NoTables c.dbr :=
      swapFriensAdd_noTables hother (hplain m List.mem_cons_self) hc₁
    obtain ⟨c₂, hc₂, hnt₂⟩ := ih (fun m hm => hplain m (List.mem_cons_of_mem _ hm)) hnt
    refine ⟨c₂, ?_, hnt₂⟩
    have hone : slMessage J H (sqlRecord other canOpen) clock t c₁ = .ok c := by
      rw [slMessage_of_task hd.1 (by decide), ← hc]
      exact handled_some hd.2 _ c₁
    rw [List.foldlM_cons, hone]
    exact hc₂

/-- Without tables nothing is listed. -/
theorem selectRecord_noTables (hother : SqliteRules other) {s : SqliteFile} (hs : NoTables s)
    (a : Int64) : s.selectRecord other a = .ok (false, []) := by
  unfold SqliteFile.selectRecord
  cases hp : s.path with
  | none => rfl
  | some p => exact selectRecord_noTable hother (hs p hp) a

/-- **Friend requests are lost.**  After the first login of a client whose record has no
    tables, the record of the account lists the requests that were received only if
    there were none, whether or not their times differ. -/
theorem requests_lost (hother : SqliteRules other) {a : Int64} {c₀ c₁ : QwebClient δ SqliteFile}
    {t : Str} {login : AcLoginBack} {ms : List FriendAdd} {ts : List Str}
    (hfile : c₀.dbr.file = recordFile) (hdisk : ∀ tbl, c₀.dbr.disk (recordPath a) tbl = none)
    (hroute : route J t = .ok (some .acLoginBack)) (hget : getAcLoginBack J t = .ok (some login))
    (ha : login.account = a)
    (hlogin : slMessage J H (sqlRecord other canOpen) clock t c₀ = .ok c₁)
    (hms : Requests J ms ts)
    (hplain : ∀ m ∈ ms, m.friends = a ∧ PlainText m.notes ∧ PlainText m.remarks) :
    ∃ c₂, ts.foldlM (fun c t => slMessage J H (sqlRecord other canOpen) clock t c) c₁ = .ok c₂ ∧
      ((∃ ok rows, c₂.dbr.selectRecord other a = .ok (ok, rows) ∧ rows.Perm (ms.map FriendAdd.row)) ↔
        ms = []) := by
  have hc₁ : NoTables c₁.dbr := noTables_login hfile hdisk hroute hget ha hlogin
  obtain ⟨c₂, hc₂, hnt⟩ : ∃ c₂, ts.foldlM (fun c t =>
      slMessage J H (sqlRecord other canOpen) clock t c) c₁ = .ok c₂ ∧ NoTables c₂.dbr :=
    requests_noTables hother hms (fun m hm => (hplain m hm).2.1) hc₁
  refine ⟨c₂, hc₂, ?_⟩
  rw [selectRecord_noTables hother hnt]
  constructor
  · rintro ⟨ok, rows, hrows, hperm⟩
    obtain rfl : [] = rows := congrArg Prod.snd (Except.ok.inj hrows)
    exact List.map_eq_nil_iff.1 hperm.nil_eq.symm
  · rintro rfl
    exact ⟨false, [], rfl, .refl _⟩

/-! ## The first request -/

/-- A SQLite that executes nothing outside the fragment. -/
def noOther (_ : Str) (db : Database) : Result := failed db

theorem sqliteRules_noOther : SqliteRules noOther := ⟨fun _ _ _ _ => rfl, fun _ _ _ _ => rfl⟩

/-- A client that has just been started, without files. -/
def started : QwebClient SqliteFile SqliteFile :=
  ⟨⟨historyFile, none, fun _ _ => none⟩, ⟨recordFile, none, fun _ _ => none⟩, [], []⟩

/-- 1 has no friends. -/
def firstLogin : AcLoginBack := ⟨1, lit "A", [], []⟩

/-- 2 asks 1. -/
def firstRequest : FriendAdd := ⟨5, 2, 1, lit "hi", lit "B"⟩

/-- The two databases. -/
def firstHistory : HistoryDb SqliteFile := sqlHistory noOther fun _ => true
def firstRecord : RecordDb SqliteFile := sqlRecord noOther fun _ => true

theorem exists_firstLogin : ∃ t c₁, setAcLoginBack jsonText firstLogin = .ok t ∧
    slMessage jsonText firstHistory firstRecord (fun _ => 9) t started = .ok c₁ ∧
    NoTables c₁.dbr := by
  obtain ⟨t, ht⟩ := MsgType.exists_set jsonText .acLoginBack firstLogin (by decide)
  obtain ⟨s, hs⟩ := MsgType.exists_set jsonText .swapCache firstLogin.account (by decide)
  have hset : setSwapCache jsonText firstLogin.account = .ok s := hs
  have hfriends : vecFriends jsonText firstLogin.svecFriendsInfo = [] := by decide +kernel
  have hcreate : ∀ d, createAll firstHistory (vecFriends jsonText firstLogin.svecFriendsInfo) d =
      .ok d := by
    intro d
    rw [hfriends]
    rfl
  obtain ⟨c₁, hc₁⟩ : ∃ c₁, acLoginBack jsonText firstHistory firstRecord firstLogin started = .ok c₁ :=
    ⟨_, acLoginBack_eq_ok.2 ⟨_, _, _, _, _, s, openFile_of_file (sformat_historyFile _),
      openFile_of_file (sformat_recordFile _), hcreate _, hset, rfl⟩⟩
  have hrun : slMessage jsonText firstHistory firstRecord (fun _ => 9) t started = .ok c₁ :=
    (slMessage_acLoginBack ht started).trans hc₁
  refine ⟨t, c₁, ht, hrun, ?_⟩
  exact noTables_login rfl (fun _ => rfl) ((route_set ht).trans (by decide +kernel))
    (MsgType.get_set jsonText ht) rfl hrun

theorem exists_firstRequest : ∃ u, setSwapFriensAdd jsonText firstRequest = .ok u ∧
    Requests jsonText [firstRequest] [u] := by
  obtain ⟨u, hu⟩ := MsgType.exists_set jsonText .swapFriensAdd firstRequest (by decide)
  exact ⟨u, hu, .cons ⟨(route_set hu).trans (by decide +kernel), MsgType.get_set jsonText hu⟩ .nil⟩

theorem requests_lost_first : ∃ t u c₁ c₂,
    slMessage jsonText firstHistory firstRecord (fun _ => 9) t started = .ok c₁ ∧
    [u].foldlM (fun c t => slMessage jsonText firstHistory firstRecord (fun _ => 9) t c) c₁ = .ok c₂ ∧
    ((∃ ok rows, c₂.dbr.selectRecord noOther 1 = .ok (ok, rows) ∧
      rows.Perm ([firstRequest].map FriendAdd.row)) ↔ [firstRequest] = []) := by
  obtain ⟨t, c₁, hset, hc₁, -⟩ := exists_firstLogin
  have ht : MsgType.acLoginBack.set jsonText firstLogin = .ok t := hset
  obtain ⟨u, -, hreq⟩ := exists_firstRequest
  have hplain : ∀ m ∈ [firstRequest], m.friends = 1 ∧ PlainText m.notes ∧ PlainText m.remarks := by
    simp only [List.mem_singleton, forall_eq]
    exact ⟨rfl, by decide +kernel, by decide +kernel⟩
  have hroute : route jsonText t = .ok (some .acLoginBack) := (route_set ht).trans (by decide +kernel)
  have hget : getAcLoginBack jsonText t = .ok (some firstLogin) := MsgType.get_set jsonText ht
  have hfile : started.dbr.file = recordFile := rfl
  have hdisk : ∀ tbl, started.dbr.disk (recordPath 1) tbl = none := fun _ => rfl
  have ha : firstLogin.account = 1 := rfl
  obtain ⟨c₂, hc₂, hiff⟩ := requests_lost sqliteRules_noOther hfile hdisk hroute hget ha hc₁ hreq hplain
  exact ⟨t, u, c₁, c₂, hc₁, hc₂, hiff⟩

/-- A request is received, and the record lists nothing. -/
theorem request_not_listed : ∃ t u c₁ c₂, setAcLoginBack jsonText firstLogin = .ok t ∧
    setSwapFriensAdd jsonText firstRequest = .ok u ∧
    slMessage jsonText firstHistory firstRecord (fun _ => 9) t started = .ok c₁ ∧
    slMessage jsonText firstHistory firstRecord (fun _ => 9) u c₁ = .ok c₂ ∧
    c₂.dbr.selectRecord noOther 1 = .ok (false, []) := by
  obtain ⟨t, c₁, ht, hc₁, hnt⟩ := exists_firstLogin
  obtain ⟨u, hu, -⟩ := exists_firstRequest
  have hplain : PlainText firstRequest.notes := by decide +kernel
  obtain ⟨c₂, hc₂, hnt₂⟩ : ∃ c₂, swapFriensAdd firstRecord firstRequest c₁ = .ok c₂ ∧ NoTables c₂.dbr :=
    swapFriensAdd_noTables sqliteRules_noOther hplain hnt
  have hrun : slMessage jsonText firstHistory firstRecord (fun _ => 9) u c₁ = .ok c₂ := by
    rw [slMessage_swapFriensAdd hu]
    exact hc₂
  exact ⟨t, u, c₁, c₂, ht, hu, hc₁, hrun, selectRecord_noTables sqliteRules_noOther hnt₂ 1⟩

end QwebClient

end SimpleChat
