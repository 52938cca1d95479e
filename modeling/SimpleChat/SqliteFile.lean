/-
  The two database objects of the client: a template for the path of the file, and
  the file that is open.

  * `SqliteFile`: the state of a `sqlite_history` or a `sqlite_record`;
  * `openFile`: `open_history` and `open_record`, which write the path over the
    template;
  * `exec`: a statement on the file that is open;
  * `sqlHistory`, `sqlRecord`: the members that the chat client calls.
-/
import SimpleChat.QwebClient
import SimpleChat.SqliteOp

namespace SimpleChat

open Lib Lib.Sql

/-- A database object; `disk` are the files. -/
structure SqliteFile where
  /-- `_file` -/
  file : Str
  /-- The file that `_db` is open on; `none` if there is none. -/
  path : Option Str
  disk : Str → Database

namespace SqliteFile

section
variable (other : Str → Database → Result) (canOpen : Str → Bool)

/-- `open_history` and `open_record` -/
def openFile (account : Int64) (s : SqliteFile) : Outcome (Bool × SqliteFile) :=
  sformat s.file [intText account.toInt] >>= fun file =>
    .ok (canOpen file, { s with file := file, path := if canOpen file then some file else none })

/-- `exec_db` on the text that was built; without an open file it fails. -/
def exec (sql : Outcome Str) (s : SqliteFile) : Outcome (Bool × SqliteFile) :=
  sql.map fun sql =>
    match s.path with
    | none => (false, s)
    | some p =>
      let r := Sql.exec (s.disk p) other sql
      (r.ok, { s with disk := Function.update s.disk p r.db })

/-- `select_record` -/
def selectRecord (account : Int64) (s : SqliteFile) : Outcome (Bool × List RecordRow) :=
  match s.path with
  | none => .ok (false, [])
  | some p => SimpleChat.selectRecord other (s.disk p) account

/-- The members of `sqlite_history`. -/
def sqlHistory : HistoryDb SqliteFile where
  openHistory := openFile canOpen
  createHistory acFriend := exec other (createHistorySql acFriend)
  insertHistory acFriend tup := exec other (insertHistorySql acFriend tup)
  updateFeedBack acFriend sendTime feedBack := exec other (updateFeedBackSql acFriend sendTime feedBack)

/-- The members of `sqlite_record`. -/
def sqlRecord : RecordDb SqliteFile where
  openRecord := openFile canOpen
  insertRecord account tup := exec other (insertRecordSql account tup)

end

/-- The paths of the files of an account. -/
def historyPath (account : Int64) : Str := lit "../data/history_" ++ intText account.toInt ++ lit ".db"
def recordPath (account : Int64) : Str := lit "../data/record_" ++ intText account.toInt ++ lit ".db"

/-- The first login opens the file of its account. -/
theorem sformat_recordFile (account : Int64) :
    sformat recordFile [intText account.toInt] = .ok (recordPath account) := by
  have hshape : recordFile = template (lit "../data/record_") [(0, lit ".db")] := by decide +kernel
  rw [hshape, sformat_template (by decide +kernel) (by simp; decide) (by decide)]
  simp [filled, recordPath]

theorem sformat_historyFile (account : Int64) :
    sformat historyFile [intText account.toInt] = .ok (historyPath account) := by
  have hshape : historyFile = template (lit "../data/history_") [(0, lit ".db")] := by decide +kernel
  rw [hshape, sformat_template (by decide +kernel) (by simp; decide) (by decide)]
  simp [filled, historyPath]

theorem openFile_of_file {canOpen : Str → Bool} {account : Int64} {s : SqliteFile} {p : Str}
    (h : sformat s.file [intText account.toInt] = .ok p) :
    openFile canOpen account s =
      .ok (canOpen p, ⟨p, if canOpen p then some p else none, s.disk⟩) := by
  rw [openFile, h, ok_bind]

/-- A path has no marker left. -/
theorem noFlg_path {pre : Str} (hpre : lbrace ∉ pre) (account : Int64) :
    NoFlg (pre ++ intText account.toInt ++ lit ".db") := by
  refine noFlg_of_notMem ?_
  simp only [List.mem_append, not_or]
  exact ⟨⟨hpre, (brace_notMem_intText _).1⟩, by decide⟩

end SqliteFile

end SimpleChat
