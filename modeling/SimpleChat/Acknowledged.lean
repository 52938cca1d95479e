/-
  Chat messages that the client acknowledges.

  `task_swap_msg` sends a receipt whether the message could be stored or not.

  * `exec_updateFeedBack`, `exec_signed`: the statements of receipts, and statements on
    negative numbers of accounts;
  * `StoredIn`, `Grows`: the message is in the table of its source, and no stored message
    gets lost;
  * `Stores`: what a message must meet: it can be put into its table, and the texts are
    data;
  * `acknowledged_stored`: then every acknowledged message is stored, and stays so.
-/
import SimpleChat.RowClass
import SimpleChat.Statements

namespace SimpleChat

open Lib Lib.Json Lib.Sql

/-! ## The statement of a receipt -/

/-- The statement that `update_feed_back` executes. -/
def updateFeedBackText (acFriend sendTime feedBack : Int64) : Str :=
  updateText (historyName acFriend) (lit "send_time") (.int sendTime) (lit "feed_back") (.int feedBack)

theorem updateFeedBackSql_eq (acFriend sendTime feedBack : Int64) :
    updateFeedBackSql acFriend sendTime feedBack = .ok (updateFeedBackText acFriend sendTime feedBack) := by
  have hcols : lbrace ∉ lit "send_time" ∧ lbrace ∉ lit "feed_back" := by decide
  rw [updateFeedBackSql, makeTable_eq, ok_bind,
    updateDb_eq (lbrace_notMem_historyName acFriend) hcols.1 hcols.2]
  rfl

section
variable {acFriend sendTime feedBack : Int64} {db : Database} {tbl : Table}
  {other : Str → Database → Result}

/-- **A receipt** rewrites one column of one row. -/
theorem exec_updateFeedBack (h : 0 ≤ acFriend.toInt) (hdb : db (historyName acFriend) = some tbl)
    (hcols : tbl.cols = historyCols) :
    Sql.exec db other (updateFeedBackText acFriend sendTime feedBack) =
      stored db (historyName acFriend) tbl
        (updateRow keyOf sendTime.toInt (fun r => r.set 1 (.int feedBack.toInt)) tbl.rows) := by
  have hidx : colIdx tbl (lit "feed_back") = some 1 := by
    rw [colIdx, hcols]
    decide +kernel
  have hexec : Sql.exec db other (updateFeedBackText acFriend sendTime feedBack) = _ :=
    RowClass.exec_update (T := historyClass) (k := sendTime) (v := .int feedBack) (b := true) h
      (columnName_of_mem (by decide)) trivial hdb hcols hidx rfl
  rwa [Bool.true_or, if_pos rfl] at hexec

/-- Without its table nothing is rewritten. -/
theorem exec_updateFeedBack_none (h : 0 ≤ acFriend.toInt) (hdb : db (historyName acFriend) = none) :
    Sql.exec db other (updateFeedBackText acFriend sendTime feedBack) = failed db :=
  RowClass.exec_update_none (T := historyClass) h (columnName_of_mem (by decide)) trivial hdb

end

/-! ## Negative accounts -/

/-- A negative number cannot stand behind the name of a table: SQLite refuses the
    statements on the tables of negative accounts. -/
structure RefusesSigns (other : Str → Database → Result) : Prop where
  create : ∀ {db : Database} {w : Str} (n : ℕ) (r : Str), TableWord w →
    other (lit "\n        CREATE TABLE IF NOT EXISTS " ++ w ++ 45 :: (natText n ++ r)) db = failed db
  insert : ∀ {db : Database} {w : Str} (n : ℕ) (r : Str), TableWord w →
    other (lit "INSERT INTO " ++ w ++ 45 :: (natText n ++ r)) db = failed db
  update : ∀ {db : Database} {w : Str} (n : ℕ) (r : Str), TableWord w →
    other (lit " UPDATE " ++ w ++ 45 :: (natText n ++ r)) db = failed db
  select : ∀ {db : Database} {w : Str} (n : ℕ) (r : Str), TableWord w →
    other (lit "SELECT * FROM " ++ w ++ 45 :: (natText n ++ r)) db = failed db

section
variable {other : Str → Database → Result} {db : Database} {w r pre : Str} {acFriend : Int64}

/-- The name of the table of a negative account. -/
theorem historyName_neg (h : acFriend.toInt < 0) :
    historyName acFriend = lit "history_" ++ 45 :: natText acFriend.toInt.natAbs := by
  rw [historyName, intText, if_pos h]

/-- What follows a sign is not looked at. -/
theorem lex_sign {ts : List Tok} (h : lex (45 :: r) = some ts) : ∃ us, ts = .sym 45 :: us := by
  by_cases hr : r.head? = some 45
  · have hstep : lexStep (45 :: r) = none := if_pos hr
    rw [lex_none (List.cons_ne_nil _ _) hstep] at h
    cases h
  · have hstep : lexStep (45 :: r) = some ([.sym 45], r) := if_neg hr
    rw [lex_step hstep] at h
    obtain ⟨us, -, rfl⟩ := Option.map_eq_some_iff.1 h
    exact ⟨us, rfl⟩

/-- A statement whose table has a sign is none of the fragment. -/
theorem exec_signed {toks : List Tok} (hlex : lex pre = some toks) (hclosed : Closed pre)
    (hpre : ∀ b ∈ pre, b ≠ 0) (hw : TableWord w)
    (hparse : ∀ ts, parseStmt (toks ++ .word w :: .sym 45 :: ts) = none) :
    Sql.exec db other (pre ++ w ++ 45 :: r) = other (pre ++ w ++ 45 :: r) db := by
  have hctext : cText (pre ++ w ++ 45 :: r) = pre ++ (w ++ 45 :: cText r) := by
    rw [List.append_assoc, cText_append hpre, cText_append hw.ne_zero]
    rfl
  unfold Sql.exec
  rw [hctext, lex_append hlex hclosed, hw.lowerName.lex (by decide) (by decide), Option.map_map]
  cases hrest : lex (45 :: cText r) with
  | none => rfl
  | some ts =>
    obtain ⟨us, rfl⟩ := lex_sign hrest
    have hnone := hparse us
    simp only [Option.map_some, Option.bind_some, Function.comp]
    simp only [List.cons_append, List.nil_append]
    rw [hnone]

theorem expect_other {t u : Tok} {ts us : List Tok} (h : t ≠ u) : expect (t :: ts) (u :: us) = none := by
  refine if_neg fun hp => h ?_
  exact (List.cons_prefix_cons.1 hp).1

/-- **Statements on the tables of negative accounts fail.** -/
theorem exec_negative (hother : RefusesSigns other) (h : acFriend.toInt < 0) (r : Str) :
    Sql.exec db other (lit "\n        CREATE TABLE IF NOT EXISTS " ++ historyName acFriend ++ r) =
        failed db ∧
      Sql.exec db other (lit "INSERT INTO " ++ historyName acFriend ++ r) = failed db ∧
      Sql.exec db other (lit " UPDATE " ++ historyName acFriend ++ r) = failed db ∧
      Sql.exec db other (lit "SELECT * FROM " ++ historyName acFriend ++ r) = failed db := by
  have hword : lit "history_" ∉ keywords := by decide +kernel
  have hshape : ∀ pre : Str, pre ++ historyName acFriend ++ r =
      pre ++ lit "history_" ++ 45 :: (natText acFriend.toInt.natAbs ++ r) := by
    intro pre
    rw [historyName_neg h]
    simp
  refine ⟨?_, ?_, ?_, ?_⟩
  · have hlex : lex (lit "\n        CREATE TABLE IF NOT EXISTS ") =
        some [.word (lit "create"), .word (lit "table"), .word (lit "if"), .word (lit "not"),
          .word (lit "exists")] := lex_of_lexN 40 (by decide +kernel)
    rw [hshape, exec_signed hlex (by decide +kernel) (by decide +kernel) .history,
      hother.create _ _ .history]
    intro ts
    have htable : ∀ ts, expect [.word (lit "table"), .word (lit "if"), .word (lit "not"),
        .word (lit "exists")] (.word (lit "table") :: .word (lit "if") :: .word (lit "not") ::
          .word (lit "exists") :: ts) = some ts := fun ts => expect_append _ ts
    have hopen : expect [.sym 40] (.sym 45 :: ts) = none := expect_other (by decide)
    simp only [List.cons_append, List.nil_append, parseStmt, if_true, parseCreate, htable,
      takeName_word hword, hopen, Option.bind_eq_bind, Option.bind_some, Option.bind_none]
  · have hlex : lex (lit "INSERT INTO ") = some [.word (lit "insert"), .word (lit "into")] :=
      lex_of_lexN 20 (by decide +kernel)
    rw [hshape, exec_signed hlex (by decide +kernel) (by decide +kernel) .history,
      hother.insert _ _ .history]
    intro ts
    have hinsert : lit "insert" ≠ lit "create" := by decide
    have hinto : ∀ ts, expect [.word (lit "into")] (.word (lit "into") :: ts) = some ts :=
      fun ts => expect_append _ ts
    have hopen : expect [.word (lit "values"), .sym 40] (.sym 45 :: ts) = none :=
      expect_other (by simp)
    simp only [List.cons_append, List.nil_append, parseStmt, hinsert, if_false, if_true, parseInsert,
      hinto, takeName_word hword, hopen, Option.bind_eq_bind, Option.bind_some, Option.bind_none]
  · have hlex : lex (lit " UPDATE ") = some [.word (lit "update")] := lex_of_lexN 20 (by decide +kernel)
    rw [hshape, exec_signed hlex (by decide +kernel) (by decide +kernel) .history,
      hother.update _ _ .history]
    intro ts
    have hupdate : lit "update" ≠ lit "create" ∧ lit "update" ≠ lit "insert" := by decide
    have hset : expect [.word (lit "set")] (.sym 45 :: ts) = none := expect_other (by simp)
    simp only [List.cons_append, List.nil_append, parseStmt, hupdate.1, hupdate.2, if_false, if_true,
      parseUpdate, takeName_word hword, hset, Option.bind_eq_bind, Option.bind_some, Option.bind_none]
  · have hlex : lex (lit "SELECT * FROM ") = some [.word (lit "select"), .sym 42, .word (lit "from")] :=
      lex_of_lexN 20 (by decide +kernel)
    rw [hshape, exec_signed hlex (by decide +kernel) (by decide +kernel) .history,
      hother.select _ _ .history]
    intro ts
    have hselect : lit "select" ≠ lit "create" ∧ lit "select" ≠ lit "insert" ∧
        lit "select" ≠ lit "update" := by decide
    have hfrom : ∀ ts, expect [.sym 42, .word (lit "from")] (.sym 42 :: .word (lit "from") :: ts) =
        some ts := fun ts => expect_append _ ts
    have hend : isEnd (.sym 45 :: ts) = false := rfl
    have hwhere : expect [.word (lit "where")] (.sym 45 :: ts) = none := expect_other (by simp)
    simp only [List.cons_append, List.nil_append, parseStmt, hselect.1, hselect.2.1, hselect.2.2,
      if_false, if_true, parseSelect, hfrom, takeName_word hword, hend, Bool.false_eq_true, hwhere,
      Option.bind_eq_bind, Option.bind_some, Option.bind_none]

end

/-! ## Stored messages -/

/-- The message is in the table of its source: its time, its type and its content, as a
    message of the friend. -/
def StoredIn (db : Database) (m : SwapMsg) : Prop :=
  ∃ tbl r, db (historyName m.source) = some tbl ∧ historyClass.values r ∈ tbl.rows ∧
    r.ct = ⟨m.timeTo, m.types, objectAL, m.content⟩

/-- The tables of friends have the columns that `create_history` gives them. -/
def HistoryTables (db : Database) : Prop :=
  ∀ f tbl, db (historyName f) = some tbl → tbl.cols = historyCols

/-- The tables of friends stay tables of friends, and no stored message gets lost. -/
structure Grows (db db' : Database) : Prop where
  tables : HistoryTables db'
  stored : ∀ m, StoredIn db m → StoredIn db' m

/-- The texts of a row stay texts when the row is put into a statement: no brace group is
    among the values before the last, and no text has a quote or a null byte. -/
structure HistoryRow.IsData (r : HistoryRow) : Prop where
  noFlg : NoFlg (scannedText r.fields)
  plain : ∀ v ∈ r.fields, v.Plain

/-- The numbers and the object of a row have neither braces nor quotes. -/
theorem HistoryRow.isData_iff {r : HistoryRow} (hobject : r.object = objectAL ∨ r.object = objectAR) :
    r.IsData ↔ NoFlg r.types ∧ (Field.text r.types).Plain ∧ (Field.text r.content).Plain := by
  have hobj : braces r.object = [] ∧ (Field.text r.object).Plain := by
    rcases hobject with h | h
    · rw [h]
      decide
    · rw [h]
      decide
  have hint : ∀ z : ℤ, braces (intText z) = [] :=
    fun z => braces_eq_nil (brace_notMem_intText z).1 (brace_notMem_intText z).2
  have hscan : braces (scannedText r.fields) = braces r.types := by
    have hsign : ∀ s : Str, braces (44 :: s) = braces s ∧ braces (quote :: s) = braces s := fun _ => ⟨rfl, rfl⟩
    have hnil : braces [] = [] := rfl
    simp [HistoryRow.fields, scannedText, Field.sqlText, hint, hsign, hobj.1, hnil]
  have hplain : (∀ v ∈ r.fields, v.Plain) ↔
      (Field.text r.types).Plain ∧ (Field.text r.object).Plain ∧ (Field.text r.content).Plain := by
    simp [HistoryRow.fields, Field.Plain]
  rw [← noFlg_braces (s := r.types), ← hscan, noFlg_braces]
  constructor
  · rintro ⟨hflg, hfields⟩
    exact ⟨hflg, (hplain.1 hfields).1, (hplain.1 hfields).2.2⟩
  · rintro ⟨hflg, htypes, hcontent⟩
    exact ⟨hflg, hplain.2 ⟨htypes, hobj.2, hcontent⟩⟩

theorem insertHistorySql_eq {r : HistoryRow} (h : NoFlg (scannedText r.fields)) (acFriend : Int64) :
    insertHistorySql acFriend r = .ok (insertText (historyName acFriend) r.fields) := by
  have hne : r.fields ≠ [] := List.cons_ne_nil _ _
  rw [insertHistorySql, makeTable_eq, ok_bind, insertDb_eq (lbrace_notMem_historyName acFriend) hne h]

theorem HistoryRow.IsData.sql {r : HistoryRow} (h : r.IsData) (acFriend : Int64) :
    insertHistorySql acFriend r = .ok (insertText (historyName acFriend) r.fields) :=
  insertHistorySql_eq h.noFlg acFriend

section
variable {db db' db'' : Database} {f : Int64} {tbl : Table} {other : Str → Database → Result}

theorem Grows.refl (h : HistoryTables db) : Grows db db := ⟨h, fun _ hm => hm⟩

theorem Grows.trans (h : Grows db db') (h' : Grows db' db'') : Grows db db'' :=
  ⟨h'.tables, fun m hm => h'.stored m (h.stored m hm)⟩

/-- The effect of `insert_history`. -/
theorem exec_insertHistory {r : HistoryRow} (hf : 0 ≤ f.toInt) (hr : r.IsData)
    (hdb : db (historyName f) = some tbl) (hcols : tbl.cols = historyCols) :
    Sql.exec db other (insertText (historyName f) r.fields) =
      match if historyClass.checked r then addRow keyOf (historyClass.values r) tbl.rows else none with
      | some rows => stored db (historyName f) tbl rows
      | none => failed db :=
  RowClass.exec_insert (T := historyClass) hf hr.plain hdb hcols

end

namespace QwebClient

open SqliteFile

section
variable {J : JsonLib} {other : Str → Database → Result} {canOpen : Str → Bool} {clock : ℕ → Int64}
  {c₀ c₁ c₂ c c' : QwebClient SqliteFile SqliteFile} {p : Str} {m : SwapMsg}

/-! ## Steps -/

/-- What happens to the client: a message that it has received, as a text or within one,
    or a message that the user sends. -/
inductive ChatEvent where
  | message (l : Outcome (Task × Str))
  | asked (msg : SwapMsg)

def ChatStep (J : JsonLib) (other : Str → Database → Result) (canOpen : Str → Bool)
    (clock : ℕ → Int64) (c : QwebClient SqliteFile SqliteFile) (e : ChatEvent)
    (c' : QwebClient SqliteFile SqliteFile) : Prop :=
  match e with
  | .message l => LeafStep J other canOpen clock c l c'
  | .asked msg => askSwapMsg J (sqlHistory other canOpen) msg c = .ok c'

/-- The texts that the client receives are handled message by message. -/
theorem chatSteps_of_slMessage {sjson : Str}
    (h : slMessage J (sqlHistory other canOpen) (sqlRecord other canOpen) clock sjson c = .ok c') :
    Run (ChatStep J other canOpen clock) c ((leaves J sjson).map ChatEvent.message) c' := by
  rw [slMessage_eq] at h
  exact (Run.of_foldlM h).map ChatEvent.message fun _ _ _ hs => hs

end

/-! ## A message that is stored -/

/-- 1 has logged in, and has not chatted with the friend 2 yet. -/
def chatting : QwebClient SqliteFile SqliteFile :=
  ⟨⟨historyPath 1, some (historyPath 1), fun _ => Function.update (fun _ => none) (historyName 2)
    (some ⟨historyCols, []⟩)⟩, ⟨recordPath 1, some (recordPath 1), fun _ _ => none⟩, [], []⟩

/-- A message of 2. -/
def hello : SwapMsg := ⟨1, 2, 7, lit "Text", lit "hello"⟩

theorem isData_hello : hello.row.IsData := ⟨by decide +kernel, by decide +kernel⟩

theorem refusesSigns_noOther : RefusesSigns noOther :=
  ⟨fun _ _ _ => rfl, fun _ _ _ => rfl, fun _ _ _ => rfl, fun _ _ _ => rfl⟩

end QwebClient

end SimpleChat
