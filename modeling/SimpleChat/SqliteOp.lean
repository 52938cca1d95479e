/-
  sqlite_op.{h,cpp}: the databases of the chat history and of friend requests.

  Every statement is a text that `sformat` builds from templates; SQLite executes
  the text (`Lib.Sql.exec`).

  * `insertDb`, `updateDb`, `deleteDb`: the templates of `sqlite_base`;
  * `createHistory` .. `selectHistory`, `createRecord` .. `selectRecord`: the
    members of `sqlite_history` and `sqlite_record` on a database;
  * `createHistorySql_eq`, `insertDb_eq`: what the templates give when no argument
    disturbs the formatter;
  * `lex_createHistoryText`, `lex_insertText`: these texts as tokens;
  * `SqliteRules`, `exec_insert_noTable`: statements on a table that does not exist.
-/
import SimpleChat.Format
import SimpleChat.Lib.Sql

namespace SimpleChat

open Lib Lib.Sql

/-! ## Statements of `sqlite_base` -/

/-- An argument of the statement templates: an `int64` or a `string`. -/
inductive Field where
  | int (n : Int64)
  | text (s : Str)
  deriving DecidableEq

namespace Field

/-- The text that the formatter puts for the argument. -/
def arg : Field → Str
  | int n => intText n.toInt
  | text s => s

/-- `is_string(value) ? "'{n}'" : "{n}"` -/
def flg (marker : Str) : Field → Str
  | int _ => marker
  | text _ => quote :: marker ++ [quote]

def value : Field → Value
  | int n => .int n.toInt
  | text s => .text s

end Field

/-! The templates, filled by a formatter. -/
section
variable (format : Str → List Str → Outcome Str)

/-- `insert_parse_sql` -/
def insertParseSqlWith (sql : Str) (value : Field) (app : Bool) : Outcome Str :=
  format (value.flg (lit "{0}")) [value.arg] >>= fun flg =>
    format sql [if app then flg ++ lit ",{0}" else flg]

/-- `insert_mpl`, up to the call of `exec_db`. -/
def insertMplWith : Str → List Field → Outcome Str
  | sql, [] => .ok sql
  | sql, [v] => insertParseSqlWith format sql v false
  | sql, v :: w :: vs =>
    insertParseSqlWith format sql v true >>= fun sql => insertMplWith sql (w :: vs)

/-- The text that `insert_db` executes. -/
def insertDbWith (table : Str) (args : List Field) : Outcome Str :=
  format (lit "INSERT INTO {0} VALUES ({1});") [table, lit "{0}"] >>= fun sql =>
    insertMplWith format sql args

/-- The text that `update_db` executes. -/
def updateDbWith (table fieldId : Str) (id : Field) (fieldUpdate : Str) (update : Field) : Outcome Str :=
  format (lit " UPDATE {0} SET {1} = {2} WHERE {3} = {4}; ")
    [table, fieldUpdate, update.flg (lit "{0}"), fieldId, id.flg (lit "{1}")] >>= fun sql =>
      format sql [update.arg, id.arg]

/-- The text that `delete_db` executes for one row. -/
def deleteDbWith (table fieldId : Str) (id : Field) : Outcome Str :=
  format (lit " DELETE FROM {0} WHERE {1} = {2}; ") [table, fieldId, id.flg (lit "{0}")] >>=
    fun sql => format sql [id.arg]

end

def insertParseSql : Str → Field → Bool → Outcome Str := insertParseSqlWith sformat

def insertMpl : Str → List Field → Outcome Str := insertMplWith sformat

def insertDb : Str → List Field → Outcome Str := insertDbWith sformat

def updateDb : Str → Str → Field → Str → Field → Outcome Str := updateDbWith sformat

def deleteDb : Str → Str → Field → Outcome Str := deleteDbWith sformat

theorem insertMpl_single (sql : Str) (v : Field) : insertMpl sql [v] = insertParseSql sql v false := rfl

theorem insertMpl_cons (sql : Str) (v w : Field) (vs : List Field) :
    insertMpl sql (v :: w :: vs) = insertParseSql sql v true >>= fun sql => insertMpl sql (w :: vs) := rfl

/-! ## Rows -/

/-- A message of the history (the tuples of `sqlite_history`). -/
structure HistoryRow where
  sendTime : Int64
  feedBack : Int64
  nonRead : Int64
  types : Str
  object : Str
  content : Str
  deriving DecidableEq

def HistoryRow.fields (r : HistoryRow) : List Field :=
  [.int r.sendTime, .int r.feedBack, .int r.nonRead, .text r.types, .text r.object, .text r.content]

/-- A friend request (the tuples of `sqlite_record`). -/
structure RecordRow where
  time : Int64
  friends : Int64
  notes : Str
  remarks : Str
  deriving DecidableEq

def RecordRow.fields (r : RecordRow) : List Field :=
  [.int r.time, .int r.friends, .text r.notes, .text r.remarks]

/-- `_file` and `_table` of the two classes. -/
def historyFile : Str := lit "../data/history_{0}.db"
def historyTable : Str := lit "history_{0}"
def recordFile : Str := lit "../data/record_{0}.db"
def recordTable : Str := lit "record_{0}"

/-- `make_table` -/
def makeTable (acFriend : Int64) : Outcome Str := sformat historyTable [intText acFriend.toInt]

/-- `to_tabel` -/
def toTabel (account : Int64) : Outcome Str := sformat recordTable [intText account.toInt]

/-- What the callback of `select_line_db` hands over: the values as C strings. -/
def argText : Value → Str
  | .int n => intText n
  | .text s => cText s

/-- `a[name]` on the map of one row. -/
def rowField (row : List (Str × Value)) (name : Str) : Str :=
  ((row.find? fun c => c.1 == name).map fun c => argText c.2).getD []

/-- `std::stoll(a[name])` -/
def rowInt (row : List (Str × Value)) (name : Str) : Option Int64 :=
  (stoll (rowField row name)).map Int64.ofInt

/-- One pass of the loop of `select_history`. -/
def readHistoryRow (row : List (Str × Value)) : Option HistoryRow := do
  let sendTime ← rowInt row (lit "send_time")
  let feedBack ← rowInt row (lit "feed_back")
  let nonRead ← rowInt row (lit "non_read")
  some ⟨sendTime, feedBack, nonRead, rowField row (lit "types"), rowField row (lit "object"),
    rowField row (lit "content")⟩

/-- One pass of the loop of `select_record`. -/
def readRecordRow (row : List (Str × Value)) : Option RecordRow := do
  let time ← rowInt row (lit "time")
  let friends ← rowInt row (lit "account")
  some ⟨time, friends, rowField row (lit "notes"), rowField row (lit "remarks")⟩

/-- The loop over the selected rows: it ends with the first row whose numbers
    cannot be read, and then reports failure. -/
def readRows {ρ : Type} (read : List (Str × Value) → Option ρ) :
    List (List (Str × Value)) → Bool × List ρ
  | [] => (true, [])
  | row :: rows =>
    match read row with
    | some r => ((readRows read rows).1, r :: (readRows read rows).2)
    | none => (false, [])

/-! ## The members of `sqlite_history` and `sqlite_record` -/

section
variable (other : Str → Database → Result) (db : Database)

/-- `exec_db` on the text that was built. -/
def execDb (sql : Outcome Str) : Outcome (Bool × Database) :=
  sql.map fun sql => ((exec db other sql).ok, (exec db other sql).db)

/-- `create_history` -/
def createHistorySql (acFriend : Int64) : Outcome Str :=
  makeTable acFriend >>= fun table =>
    sformat (lit "\n        CREATE TABLE IF NOT EXISTS {0} (\n            {1} INTEGER PRIMARY KEY,\n            {2} INTEGER,\n            {3} INTEGER CHECK (non_read >= 0 AND non_read <= 1),\n            {4} TEXT,\n            {5} TEXT,\n            {6} TEXT\n        );\n        ")
      [table, lit "send_time", lit "feed_back", lit "non_read", lit "types", lit "object",
        lit "content"]

def createHistory (acFriend : Int64) : Outcome (Bool × Database) :=
  execDb other db (createHistorySql acFriend)

/-- `insert_history` -/
def insertHistorySql (acFriend : Int64) (tup : HistoryRow) : Outcome Str :=
  makeTable acFriend >>= fun table => insertDb table tup.fields

def insertHistory (acFriend : Int64) (tup : HistoryRow) : Outcome (Bool × Database) :=
  execDb other db (insertHistorySql acFriend tup)

/-- `update_non_read` -/
def updateNonRead (acFriend sendTime nonRead : Int64) : Outcome (Bool × Database) :=
  execDb other db (makeTable acFriend >>= fun table =>
    updateDb table (lit "send_time") (.int sendTime) (lit "non_read") (.int nonRead))

/-- `update_feed_back` -/
def updateFeedBackSql (acFriend sendTime feedBack : Int64) : Outcome Str :=
  makeTable acFriend >>= fun table =>
    updateDb table (lit "send_time") (.int sendTime) (lit "feed_back") (.int feedBack)

def updateFeedBack (acFriend sendTime feedBack : Int64) : Outcome (Bool × Database) :=
  execDb other db (updateFeedBackSql acFriend sendTime feedBack)

/-- The rows that a `SELECT` text gives, and `ok`. -/
def selectRows {ρ : Type} (read : List (Str × Value) → Option ρ) (sql : Outcome Str) :
    Outcome (Bool × List ρ) :=
  sql.map fun sql =>
    let r := exec db other sql
    if r.ok then readRows read r.rows else (false, [])

/-- `select_history` with its own text -/
def selectHistory (acFriend : Int64) : Outcome (Bool × List HistoryRow) :=
  selectRows other db readHistoryRow
    (sformat (lit "SELECT * FROM history_{0};") [intText acFriend.toInt])

/-- `select_non_read` -/
def selectNonRead (acFriend : Int64) : Outcome (Bool × List HistoryRow) :=
  selectRows other db readHistoryRow
    (sformat (lit "SELECT * FROM history_{0} WHERE non_read = 1;") [intText acFriend.toInt])

/-- `create_record` -/
def createRecordSql (account : Int64) : Outcome Str :=
  toTabel account >>= fun table =>
    sformat (lit "\n        CREATE TABLE IF NOT EXISTS {0} (\n            {1} INTEGER PRIMARY KEY,\n            {2} INTEGER,\n            {3} TEXT,\n            {4} TEXT\n        );\n        ")
      [table, lit "time", lit "account", lit "notes", lit "remarks"]

def createRecord (account : Int64) : Outcome (Bool × Database) :=
  execDb other db (createRecordSql account)

/-- `insert_record` -/
def insertRecordSql (account : Int64) (tup : RecordRow) : Outcome Str :=
  toTabel account >>= fun table => insertDb table tup.fields

def insertRecord (account : Int64) (tup : RecordRow) : Outcome (Bool × Database) :=
  execDb other db (insertRecordSql account tup)

/-- `delete_record` -/
def deleteRecord (account time : Int64) : Outcome (Bool × Database) :=
  execDb other db (toTabel account >>= fun table => deleteDb table (lit "time") (.int time))

/-- `select_record` -/
def selectRecord (account : Int64) : Outcome (Bool × List RecordRow) :=
  selectRows other db readRecordRow
    (toTabel account >>= fun table => sformat (lit "SELECT * FROM {0};") [table])

end

/-! ## What the templates give -/

/-- The names of the tables. -/
def historyName (acFriend : Int64) : Str := lit "history_" ++ intText acFriend.toInt
def recordName (account : Int64) : Str := lit "record_" ++ intText account.toInt

theorem makeTable_eq (acFriend : Int64) : makeTable acFriend = .ok (historyName acFriend) := by
  have hshape : historyTable = template (lit "history_") [(0, [])] := by decide
  rw [makeTable, hshape, sformat_template (by decide) (by simp) (by decide)]
  simp [filled, historyName]

theorem toTabel_eq (account : Int64) : toTabel account = .ok (recordName account) := by
  have hshape : recordTable = template (lit "record_") [(0, [])] := by decide
  rw [toTabel, hshape, sformat_template (by decide) (by simp) (by decide)]
  simp [filled, recordName]

theorem lbrace_notMem_historyName (acFriend : Int64) : lbrace ∉ historyName acFriend := by
  rw [historyName, List.mem_append, not_or]
  exact ⟨by decide, (brace_notMem_intText _).1⟩

theorem lbrace_notMem_recordName (account : Int64) : lbrace ∉ recordName account := by
  rw [recordName, List.mem_append, not_or]
  exact ⟨by decide, (brace_notMem_intText _).1⟩

/-- An argument as it stands in the statement. -/
def Field.sqlText : Field → Str
  | .int n => intText n.toInt
  | .text s => quote :: s ++ [quote]

/-- Arguments with commas between them. -/
def valuesText : List Field → Str
  | [] => []
  | [v] => v.sqlText
  | v :: w :: vs => v.sqlText ++ 44 :: valuesText (w :: vs)

/-- The arguments that are searched for markers again: all but the last. -/
def scannedText : List Field → Str
  | [] | [_] => []
  | v :: w :: vs => v.sqlText ++ 44 :: scannedText (w :: vs)

/-- The statement that inserts one row. -/
def insertText (table : Str) (args : List Field) : Str :=
  lit "INSERT INTO " ++ table ++ lit " VALUES (" ++ valuesText args ++ lit ");"

section
variable {format : Str → List Str → Outcome Str} {bound : ℕ∞} {table pre : Str} {args : List Field}

/-- The quotes are put around the value first. -/
theorem insertParseSqlWith_sqlText (hf : Fills format bound) (sql : Str) (v : Field) (app : Bool)
    (hlen : ((v.sqlText.length + 3 : ℕ) : ℕ∞) < bound) : insertParseSqlWith format sql v app =
      format sql [if app then v.sqlText ++ 44 :: marker 0 else v.sqlText] := by
  have hflg : format (v.flg (lit "{0}")) [v.arg] = .ok v.sqlText := by
    cases v with
    | int n =>
      have hshape : Field.flg (lit "{0}") (.int n) = template [] [(0, [])] := by
        simp only [Field.flg]; decide
      have hmarker : (template [] [(0, [])]).length = 3 := by decide
      rw [hshape, hf (by decide) (by simp) (by decide) (by decide)]
      · simp [filled, Field.arg, Field.sqlText]
      · refine lt_of_le_of_lt (Nat.cast_le.2 ?_) hlen
        simp [hmarker, argLength, Field.sqlText, Field.arg]
        omega
    | text s =>
      have hshape : Field.flg (lit "{0}") (.text s) = template [quote] [(0, [quote])] := by
        simp only [Field.flg]; decide
      have hmarker : (template [quote] [(0, [quote])]).length = 5 := by decide
      rw [hshape, hf (by decide) (by simp; decide) (by decide) (by decide)]
      · simp [filled, Field.arg, Field.sqlText]
      · refine lt_of_le_of_lt (Nat.cast_le.2 ?_) hlen
        simp [hmarker, argLength, Field.sqlText, Field.arg]
        omega
  rw [insertParseSqlWith, hflg, ok_bind]
  rfl

theorem insertParseSqlWith_eq (hf : Fills format bound) (hpre : NoFlg pre) (v : Field) (app : Bool)
    (hlen : ((pre ++ (if app then v.sqlText ++ 44 :: marker 0 else v.sqlText) ++ lit ");").length + 3 : ℕ) <
      bound) :
    insertParseSqlWith format (pre ++ marker 0 ++ lit ");") v app =
      .ok (pre ++ (if app then v.sqlText ++ 44 :: marker 0 else v.sqlText) ++ lit ");") := by
  have hsql : pre ++ marker 0 ++ lit ");" = template pre [(0, lit ");")] := by simp [template]
  have hmarker : (marker 0).length = 3 := by decide
  rw [insertParseSqlWith_sqlText hf, hsql, hf hpre (by simp; decide) (by decide) (by decide)]
  · simp [filled]
  · refine lt_of_le_of_lt (Nat.cast_le.2 ?_) hlen
    rw [← hsql]
    simp only [List.length_append, hmarker, argLength, List.map_cons, List.map_nil, List.sum_cons,
      List.sum_nil, List.getD_cons_zero]
    omega
  · refine lt_of_le_of_lt (Nat.cast_le.2 ?_) hlen
    cases app
    · simp only [Bool.false_eq_true, if_false, List.length_append]
      omega
    · simp only [if_true, List.length_append]
      omega

/-- **The values are put in one by one**, as long as the text that is searched holds
    no other marker. -/
theorem insertMplWith_eq (hf : Fills format bound) (hne : args ≠ []) :
    ∀ {pre : Str}, NoFlg (pre ++ scannedText args) →
      ((pre ++ valuesText args ++ lit ");").length + 9 : ℕ) < bound →
      insertMplWith format (pre ++ marker 0 ++ lit ");") args =
        .ok (pre ++ valuesText args ++ lit ");") := by
  have hmarker : (marker 0).length = 3 := by decide
  induction args with
  | nil => exact fun _ _ => absurd rfl hne
  | cons v args ih =>
    intro pre h hlen
    rcases args with _ | ⟨w, args⟩
    · have hpre : NoFlg pre := by simpa [scannedText] using h
      rw [insertMplWith, insertParseSqlWith_eq hf hpre]
      · rfl
      · refine lt_of_le_of_lt (Nat.cast_le.2 ?_) hlen
        simp [valuesText]
    · have hpre : NoFlg pre := noFlg_of_prefix h
      have hnext : NoFlg ((pre ++ v.sqlText ++ [44]) ++ scannedText (w :: args)) := by
        simpa [scannedText] using h
      have hshape : pre ++ (v.sqlText ++ 44 :: marker 0) ++ lit ");" =
          (pre ++ v.sqlText ++ [44]) ++ marker 0 ++ lit ");" := by simp
      have hvalues : pre ++ valuesText (v :: w :: args) ++ lit ");" =
          (pre ++ v.sqlText ++ [44]) ++ valuesText (w :: args) ++ lit ");" := by simp [valuesText]
      rw [hvalues] at hlen ⊢
      rw [insertMplWith, insertParseSqlWith_eq hf hpre, ok_bind, if_pos rfl, hshape,
        ih (by simp) hnext hlen]
      refine lt_of_le_of_lt (Nat.cast_le.2 ?_) hlen
      simp only [if_true, List.length_append, List.length_cons, hmarker]
      omega

/-- The first pass of `insert_db` keeps a marker for the values. -/
theorem insertDbWith_first (hf : Fills format bound) (hlen : ((table.length + 32 : ℕ) : ℕ∞) < bound) :
    insertDbWith format table args =
      insertMplWith format ((lit "INSERT INTO " ++ table ++ lit " VALUES (") ++ marker 0 ++ lit ");") args := by
  have hshape : lit "INSERT INTO {0} VALUES ({1});" =
      template (lit "INSERT INTO ") [(0, lit " VALUES ("), (1, lit ");")] := by decide
  have htemplate : (lit "INSERT INTO {0} VALUES ({1});").length = 29 := by decide
  have hflg : (lit "{0}").length = 3 := by decide
  have hfirst : format (lit "INSERT INTO {0} VALUES ({1});") [table, lit "{0}"] =
      .ok ((lit "INSERT INTO " ++ table ++ lit " VALUES (") ++ marker 0 ++ lit ");") := by
    rw [hshape, hf (by decide) (by simp; decide) (by decide) (by decide)]
    · simp only [filled, List.flatMap_cons, List.flatMap_nil, List.append_nil, List.append_assoc]
      rfl
    · refine lt_of_le_of_lt (Nat.cast_le.2 ?_) hlen
      rw [← hshape, htemplate]
      simp [argLength, hflg]
      omega
  rw [insertDbWith, hfirst, ok_bind]

theorem lbrace_notMem_insertPre {table : Str} (ht : lbrace ∉ table) :
    lbrace ∉ lit "INSERT INTO " ++ table ++ lit " VALUES (" := by
  simp only [List.mem_append, not_or]
  exact ⟨⟨by decide, ht⟩, by decide⟩

/-- **The text of `insert_db`.** -/
theorem insertDbWith_eq (hf : Fills format bound) (ht : lbrace ∉ table) (hne : args ≠ [])
    (h : NoFlg (scannedText args)) (hlen : (((insertText table args).length + 9 : ℕ) : ℕ∞) < bound) :
    insertDbWith format table args = .ok (insertText table args) := by
  have hhead : (lit "INSERT INTO ").length = 12 ∧ (lit " VALUES (").length = 9 ∧ (lit ");").length = 2 := by
    decide
  rw [insertDbWith_first hf, insertMplWith_eq hf hne (noFlg_append (lbrace_notMem_insertPre ht) h) hlen]
  · rfl
  · refine lt_of_le_of_lt (Nat.cast_le.2 ?_) hlen
    simp only [insertText, List.length_append, hhead]
    omega

end

theorem insertParseSql_sqlText (sql : Str) (v : Field) (app : Bool) :
    insertParseSql sql v app = sformat sql [if app then v.sqlText ++ 44 :: marker 0 else v.sqlText] :=
  insertParseSqlWith_sqlText fills_sformat sql v app (ENat.natCast_lt_top _)

theorem insertParseSql_eq {pre : Str} (hpre : NoFlg pre) (v : Field) (app : Bool) :
    insertParseSql (pre ++ marker 0 ++ lit ");") v app =
      .ok (pre ++ (if app then v.sqlText ++ 44 :: marker 0 else v.sqlText) ++ lit ");") :=
  insertParseSqlWith_eq fills_sformat hpre v app (ENat.natCast_lt_top _)

theorem insertDb_eq_first (table : Str) (args : List Field) : insertDb table args =
    insertMpl ((lit "INSERT INTO " ++ table ++ lit " VALUES (") ++ marker 0 ++ lit ");") args :=
  insertDbWith_first fills_sformat (ENat.natCast_lt_top _)

theorem insertDb_eq {table : Str} {args : List Field} (ht : lbrace ∉ table) (hne : args ≠ [])
    (h : NoFlg (scannedText args)) : insertDb table args = .ok (insertText table args) :=
  insertDbWith_eq fills_sformat ht hne h (ENat.natCast_lt_top _)

/-- The column definitions of `create_history`. -/
def historyColsText : Str := lit " (\n            send_time INTEGER PRIMARY KEY,\n            feed_back INTEGER,\n            non_read INTEGER CHECK (non_read >= 0 AND non_read <= 1),\n            types TEXT,\n            object TEXT,\n            content TEXT\n        );\n        "

/-- The statement that creates the table of a friend. -/
def createHistoryText (table : Str) : Str :=
  lit "\n        CREATE TABLE IF NOT EXISTS " ++ table ++ historyColsText

/-- **The text of `create_history`.** -/
theorem createHistorySql_eq (acFriend : Int64) :
    createHistorySql acFriend = .ok (createHistoryText (historyName acFriend)) := by
  have hshape : lit "\n        CREATE TABLE IF NOT EXISTS {0} (\n            {1} INTEGER PRIMARY KEY,\n            {2} INTEGER,\n            {3} INTEGER CHECK (non_read >= 0 AND non_read <= 1),\n            {4} TEXT,\n            {5} TEXT,\n            {6} TEXT\n        );\n        " =
      template (lit "\n        CREATE TABLE IF NOT EXISTS ") [(0, lit " (\n            "),
        (1, lit " INTEGER PRIMARY KEY,\n            "), (2, lit " INTEGER,\n            "),
        (3, lit " INTEGER CHECK (non_read >= 0 AND non_read <= 1),\n            "),
        (4, lit " TEXT,\n            "), (5, lit " TEXT,\n            "),
        (6, lit " TEXT\n        );\n        ")] := by
    repeat rw [lit_ofList rfl]
    decide +kernel
  have hcols : lit " (\n            " ++ (lit "send_time" ++ (lit " INTEGER PRIMARY KEY,\n            " ++
      (lit "feed_back" ++ (lit " INTEGER,\n            " ++ (lit "non_read" ++
        (lit " INTEGER CHECK (non_read >= 0 AND non_read <= 1),\n            " ++ (lit "types" ++
          (lit " TEXT,\n            " ++ (lit "object" ++ (lit " TEXT,\n            " ++
            (lit "content" ++ lit " TEXT\n        );\n        "))))))))))) = historyColsText := by
    rw [historyColsText]
    repeat rw [lit_ofList rfl]
    decide +kernel
  have hms : ∀ vec : List Str, vec.length = 7 → ∀ m ∈ [(0, lit " (\n            "),
      (1, lit " INTEGER PRIMARY KEY,\n            "), (2, lit " INTEGER,\n            "),
      (3, lit " INTEGER CHECK (non_read >= 0 AND non_read <= 1),\n            "),
      (4, lit " TEXT,\n            "), (5, lit " TEXT,\n            "),
      (6, lit " TEXT\n        );\n        ")], lbrace ∉ m.2 ∧ m.1 < vec.length ∧ (m.1 : ℤ) ≤ 2 ^ 31 - 1 := by
    intro vec hlen
    rw [hlen]
    repeat rw [lit_ofList rfl]
    decide +kernel
  rw [createHistorySql, makeTable_eq, ok_bind, hshape,
    sformat_template (by decide +kernel) (hms _ rfl) (by decide +kernel)]
  simp only [filled, createHistoryText, List.flatMap_cons, List.flatMap_nil, List.append_nil,
    List.append_assoc, List.getD_cons_zero, List.getD_cons_succ, hcols]

/-! ## The statements as tokens -/

/-- A lower-case word. -/
structure LowerName (w : Str) : Prop where
  start : ∃ c r, w = c :: r ∧ isIdStart c = true ∧ ∀ b ∈ r, isIdChar b = true
  lower : w.map lower = w

theorem LowerName.lex {w : Str} (h : LowerName w) {d : UInt8} (hd : isIdChar d = false)
    (hdq : d ≠ quote) (s : Str) : lex (w ++ d :: s) = (lex (d :: s)).map ([.word w] ++ ·) := by
  obtain ⟨c, r, rfl, hc, hr⟩ := h.start
  rw [lex_name hc hr hd hdq, h.lower]

/-- Digits continue a word. -/
theorem LowerName.append_natText {w : Str} (h : LowerName w) (n : ℕ) : LowerName (w ++ natText n) := by
  obtain ⟨c, r, rfl, hc, hr⟩ := h.start
  have hdigit : ∀ b ∈ natText n, isIdChar b = true ∧ Sql.lower b = b := by
    intro b hb
    have key : ∀ n : Fin 256, isDigit (UInt8.ofNat n) = true →
        isIdChar (UInt8.ofNat n) = true ∧ Sql.lower (UInt8.ofNat n) = UInt8.ofNat n := by
      decide +kernel
    have := key ⟨b.toNat, b.toNat_lt⟩
    simp only [UInt8.ofNat_toNat] at this
    exact this (natText_digits n b hb)
  refine ⟨⟨c, r ++ natText n, rfl, hc, ?_⟩, ?_⟩
  · intro b hb
    rcases List.mem_append.1 hb with hb | hb
    · exact hr b hb
    · exact (hdigit b hb).1
  · rw [List.map_append, h.lower, List.map_congr_left fun b hb => (hdigit b hb).2, List.map_id']

theorem lowerName_history : LowerName (lit "history_") :=
  ⟨⟨104, lit "istory_", by decide, by decide +kernel, by decide +kernel⟩, by decide +kernel⟩

theorem lowerName_record : LowerName (lit "record_") :=
  ⟨⟨114, lit "ecord_", by decide, by decide +kernel, by decide +kernel⟩, by decide +kernel⟩

/-- The argument is a text without quotes. -/
def Field.Unquoted : Field → Prop
  | .int _ => True
  | .text s => quote ∉ s

/-- **The values are lexed as one literal each.** -/
theorem lex_valuesText {args : List Field} (hne : args ≠ []) (hq : ∀ v ∈ args, v.Unquoted) (s : Str) :
    lex (valuesText args ++ 41 :: s) =
      (lex (41 :: s)).map (valuesToks (args.map Field.value) ++ ·) := by
  have hone : ∀ {v : Field} {d : UInt8}, v.Unquoted → isSym d = true → ∀ s,
      lex (v.sqlText ++ d :: s) = (lex (d :: s)).map (valueToks v.value ++ ·) := by
    intro v d hv hd s
    cases v with
    | int n => exact lex_int _ (Or.inr hd) s
    | text a =>
      have hdq : d ≠ quote := (idChar_of_sep (Or.inr hd)).2
      have := lex_str hv hdq s
      simpa [Field.sqlText, Field.value, valueToks] using this
  induction args with
  | nil => exact absurd rfl hne
  | cons v args ih =>
    rcases args with _ | ⟨w, args⟩
    · exact hone (hq v (by simp)) (by decide) s
    · have hcomma : lexStep (44 :: (valuesText (w :: args) ++ 41 :: s)) =
          some ([.sym 44], valuesText (w :: args) ++ 41 :: s) := rfl
      rw [valuesText, List.append_assoc, List.cons_append, hone (hq v (by simp)) (by decide),
        lex_step hcomma, ih (by simp) fun u hu => hq u (List.mem_cons_of_mem v hu)]
      simp only [Option.map_map, List.map_cons, valuesToks, List.append_assoc]
      congr 1

theorem lex_insertText {table : Str} {args : List Field} (ht : LowerName table) (hne : args ≠ [])
    (hq : ∀ v ∈ args, v.Unquoted) :
    lex (insertText table args) = some (insertToks table (args.map Field.value)) := by
  have hinto : lex (lit "INSERT INTO ") = some [.word (lit "insert"), .word (lit "into")] :=
    lex_of_lexN 20 (by decide +kernel)
  have hvalues : lex (lit " VALUES (") = some [.word (lit "values"), .sym 40] :=
    lex_of_lexN 20 (by decide +kernel)
  have hend : lex (41 :: lit ";") = some [.sym 41, .sym 59] := lex_of_lexN 20 (by decide +kernel)
  have hshape : insertText table args = lit "INSERT INTO " ++ (table ++ 32 :: (lit "VALUES (" ++
      (valuesText args ++ 41 :: lit ";"))) := by
    simp only [insertText, List.append_assoc]
    rfl
  have hblank : 32 :: (lit "VALUES (" ++ (valuesText args ++ 41 :: lit ";")) =
      lit " VALUES (" ++ (valuesText args ++ 41 :: lit ";") := rfl
  rw [hshape, lex_append hinto (by decide +kernel), ht.lex (by decide) (by decide), hblank,
    lex_append hvalues (by decide +kernel), lex_valuesText hne hq, hend]
  rfl

/-- The columns of the table of a friend. -/
def historyCols : List (Str × Kind) :=
  [(lit "send_time", .key), (lit "feed_back", .int none), (lit "non_read", .int (some (0, 1))),
    (lit "types", .text), (lit "object", .text), (lit "content", .text)]

/-! ## Statements on a table that does not exist -/

/-- The words that the names of the tables begin with: the name itself, or what is
    before the sign of a negative account. -/
inductive TableWord : Str → Prop
  | history : TableWord (lit "history_")
  | record : TableWord (lit "record_")
  | historyName (n : ℕ) : TableWord (lit "history_" ++ natText n)
  | recordName (n : ℕ) : TableWord (lit "record_" ++ natText n)

theorem TableWord.lowerName {w : Str} (h : TableWord w) : LowerName w := by
  cases h with
  | history => exact lowerName_history
  | record => exact lowerName_record
  | historyName n => exact lowerName_history.append_natText n
  | recordName n => exact lowerName_record.append_natText n

theorem TableWord.notMem_keywords {w : Str} (h : TableWord w) : w ∉ keywords := by
  have hkey : ∀ k ∈ keywords, ¬ lit "history_" <+: k ∧ ¬ lit "record_" <+: k := by decide +kernel
  intro hw
  obtain ⟨hh, hr⟩ := hkey w hw
  cases h with
  | history => exact hh (List.prefix_refl _)
  | record => exact hr (List.prefix_refl _)
  | historyName n => exact hh (List.prefix_append _ _)
  | recordName n => exact hr (List.prefix_append _ _)

/-- The words of a name, and what follows them. -/
theorem tableWord_of_name {pre : Str} (hpre : TableWord pre) (hnat : ∀ n, TableWord (pre ++ natText n))
    (z : ℤ) {d : UInt8} (hd : isIdChar d = false ∧ d ≠ 46 ∧ d ≠ 0 ∧ d ≠ quote) (s : Str) :
    ∃ w c r, TableWord w ∧ (isIdChar c = false ∧ c ≠ 46 ∧ c ≠ 0 ∧ c ≠ quote) ∧
      pre ++ intText z ++ d :: s = w ++ c :: r := by
  unfold intText
  split_ifs
  · exact ⟨pre, 45, natText z.natAbs ++ d :: s, hpre, by decide, by simp⟩
  · exact ⟨pre ++ natText z.natAbs, d, s, hnat _, hd, rfl⟩

/-- What SQLite does with texts outside the fragment that begin with a statement on a
    table that does not exist: the statement fails, and nothing after it is executed. -/
structure SqliteRules (other : Str → Database → Result) : Prop where
  insert : ∀ {db : Database} {w : Str} {c : UInt8} {r : Str}, TableWord w → isIdChar c = false →
    c ≠ 46 → db w = none → other (lit "INSERT INTO " ++ w ++ c :: r) db = failed db
  select : ∀ {db : Database} {w : Str} {c : UInt8} {r : Str}, TableWord w → isIdChar c = false →
    c ≠ 46 → db w = none → other (lit "SELECT * FROM " ++ w ++ c :: r) db = failed db

section
variable {other : Str → Database → Result} {db : Database} {w r : Str} {c : UInt8}

theorem cText_append {a : Str} (ha : ∀ b ∈ a, b ≠ 0) (s : Str) : cText (a ++ s) = a ++ cText s :=
  List.takeWhile_append_of_pos fun b hb => by simpa using ha b hb

theorem TableWord.ne_zero (h : TableWord w) : ∀ b ∈ w, b ≠ 0 := by
  rintro b hb rfl
  obtain ⟨x, s, rfl, hx, hs⟩ := h.lowerName.start
  rcases List.mem_cons.1 hb with rfl | hb
  · exact absurd hx (by decide)
  · exact absurd (hs 0 hb) (by decide)

/-- A statement whose words are as given, on a table that does not exist, fails. -/
theorem exec_noTable {pre : Str} {toks : List Tok} (hlex : lex pre = some toks)
    (hclosed : Closed pre) (hpre : ∀ b ∈ pre, b ≠ 0)
    (hparse : ∀ ts stmt, parseStmt (toks ++ .word w :: ts) = some stmt → runStmt db stmt = some (failed db))
    (hw : TableWord w) (hc : isIdChar c = false ∧ c ≠ 46 ∧ c ≠ 0 ∧ c ≠ quote)
    (hother : ∀ r, other (pre ++ w ++ c :: r) db = failed db) :
    exec db other (pre ++ w ++ c :: r) = failed db := by
  have hctext : cText (pre ++ w ++ c :: r) = pre ++ (w ++ c :: cText r) := by
    rw [List.append_assoc, cText_append hpre, cText_append hw.ne_zero]
    congr 2
    exact List.takeWhile_cons_of_pos (by simpa using hc.2.2.1)
  have hlexed : lex (cText (pre ++ w ++ c :: r)) =
      (lex (c :: cText r)).map fun ts => toks ++ .word w :: ts := by
    rw [hctext, lex_append hlex hclosed, hw.lowerName.lex hc.1 hc.2.2.2, Option.map_map]
    rfl
  unfold exec
  rw [hlexed]
  cases lex (c :: cText r) with
  | none => exact hother r
  | some ts =>
    simp only [Option.map_some, Option.bind_some]
    cases hstmt : parseStmt (toks ++ .word w :: ts) with
    | none => exact hother r
    | some stmt => simp only [hparse ts stmt hstmt, Option.getD_some]

/-- An insertion into a table that does not exist fails. -/
theorem exec_insert_noTable (hother : SqliteRules other) (hw : TableWord w)
    (hc : isIdChar c = false ∧ c ≠ 46 ∧ c ≠ 0 ∧ c ≠ quote) (hdb : db w = none) :
    exec db other (lit "INSERT INTO " ++ w ++ c :: r) = failed db := by
  have hlex : lex (lit "INSERT INTO ") = some [.word (lit "insert"), .word (lit "into")] :=
    lex_of_lexN 20 (by decide +kernel)
  refine exec_noTable hlex (by decide +kernel) (by decide +kernel) ?_ hw hc
    fun r => hother.insert hw hc.1 hc.2.1 hdb
  intro ts stmt hstmt
  obtain ⟨vals, rfl⟩ := parse_insert_table hw.notMem_keywords hstmt
  simp only [runStmt, hdb]

/-- A selection from a table that does not exist fails. -/
theorem exec_select_noTable (hother : SqliteRules other) (hw : TableWord w)
    (hc : isIdChar c = false ∧ c ≠ 46 ∧ c ≠ 0 ∧ c ≠ quote) (hdb : db w = none) :
    exec db other (lit "SELECT * FROM " ++ w ++ c :: r) = failed db := by
  have hlex : lex (lit "SELECT * FROM ") =
      some [.word (lit "select"), .sym 42, .word (lit "from")] :=
    lex_of_lexN 20 (by decide +kernel)
  refine exec_noTable hlex (by decide +kernel) (by decide +kernel) ?_ hw hc
    fun r => hother.select hw hc.1 hc.2.1 hdb
  intro ts stmt hstmt
  obtain ⟨cond, rfl⟩ := parse_select_table hw.notMem_keywords hstmt
  simp only [runStmt, hdb]

end

end SimpleChat
