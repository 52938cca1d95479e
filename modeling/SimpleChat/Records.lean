/-
  The friend requests of an account: `sqlite_record` is a map from times to requests.

  * `RecordOp`: the members of the class, as statements on a database;
  * `Requests`: for each account with a table the requests by their times;
  * `RecordOp.Answers`, `RecordOp.apply`: what a member reports and does on them;
  * `KeepsRequests`: the tables hold the requests;
  * `records_refine`: any sequence of members returns, and reports what it does on the
    maps.
-/
import SimpleChat.FriendRequests
import SimpleChat.Lib.KeyMap
import SimpleChat.RowClass

namespace SimpleChat

open Lib Lib.Sql

/-! ## The members on a database -/

inductive RecordOp where
  /-- `create_record` -/
  | create (account : Int64)
  /-- `insert_record` -/
  | insert (account : Int64) (tup : RecordRow)
  /-- `delete_record` -/
  | delete (account time : Int64)
  /-- `select_record` -/
  | select (account : Int64)

namespace RecordOp

def account : RecordOp → Int64
  | create a | insert a _ | delete a _ | select a => a

section
variable (other : Str → Database → Result)

/-- A call: what it reports, and the database behind it. -/
def exec (op : RecordOp) (db : Database) : Outcome ((Bool × List RecordRow) × Database) :=
  match op with
  | create a => (createRecord other db a).map fun r => ((r.1, []), r.2)
  | insert a tup => (insertRecord other db a tup).map fun r => ((r.1, []), r.2)
  | delete a time => (deleteRecord other db a time).map fun r => ((r.1, []), r.2)
  | select a => (selectRecord other db a).map fun r => (r, db)

/-- The calls one after the other. -/
def execAll : List RecordOp → Database → Outcome (List (Bool × List RecordRow) × Database)
  | [], db => .ok ([], db)
  | op :: ops, db => exec other op db >>= fun r => (execAll ops r.2).map fun rs => (r.1 :: rs.1, rs.2)

end

end RecordOp

/-! ## The requests -/

/-- The requests of the accounts whose tables were created. -/
abbrev Requests := Int64 → Option (KeyMap recordClass.key)

namespace RecordOp

/-- What a member does to the requests. -/
def apply (op : RecordOp) (m : Requests) : Requests :=
  match op with
  | create a => Function.update m a (some ((m a).getD .empty))
  | insert a tup => Function.update m a ((m a).map fun t => (t.add tup).getD t)
  | delete a time => Function.update m a ((m a).map fun t => t.erase time.toInt)
  | select _ => m

/-- What a member reports. -/
def Answers (op : RecordOp) (m : Requests) (out : Bool × List RecordRow) : Prop :=
  match op with
  | create _ => out = (true, [])
  | insert a tup => out = (((m a).bind fun t => t.add tup).isSome, [])
  | delete a _ => out = ((m a).isSome, [])
  | select a =>
    match m a with
    | some t => ∃ rows, t.Lists rows ∧ out = (true, rows)
    | none => out = (false, [])

/-- What a sequence of members reports. -/
def AnswersAll : List RecordOp → Requests → List (Bool × List RecordRow) → Prop
  | [], _, outs => outs = []
  | op :: ops, m, outs => ∃ out outs', outs = out :: outs' ∧ op.Answers m out ∧ AnswersAll ops (op.apply m) outs'

/-- The texts of a request that is inserted are data, and the account is not negative. -/
structure Tame (op : RecordOp) : Prop where
  account : 0 ≤ op.account.toInt
  noFlg : ∀ a tup, op = insert a tup → NoFlg (scannedText tup.fields)
  plain : ∀ a tup, op = insert a tup → ∀ v ∈ tup.fields, v.Plain

end RecordOp

/-! ## The texts of the statements -/

section
variable {account time : Int64} {tup : RecordRow}

/-- **The text of `create_record`.** -/
theorem createRecordSql_eq (account : Int64) :
    createRecordSql account = .ok (recordClass.createText account) := by
  have htext : recordClass.createText account =
      lit "\n        CREATE TABLE IF NOT EXISTS " ++ recordName account ++ recordColsText := by
    have hname : recordClass.table account = recordName account := rfl
    have hcols : recordClass.colsText = recordColsText := by simp only [recordClass]
    rw [RowClass.createText, hname, hcols]
  have hshape : lit "\n        CREATE TABLE IF NOT EXISTS {0} (\n            {1} INTEGER PRIMARY KEY,\n            {2} INTEGER,\n            {3} TEXT,\n            {4} TEXT\n        );\n        " =
      template (lit "\n        CREATE TABLE IF NOT EXISTS ") [(0, lit " (\n            "),
        (1, lit " INTEGER PRIMARY KEY,\n            "), (2, lit " INTEGER,\n            "),
        (3, lit " TEXT,\n            "), (4, lit " TEXT\n        );\n        ")] := by
    repeat rw [lit_ofList rfl]
    decide +kernel
  have hcols : lit " (\n            " ++ (lit "time" ++ (lit " INTEGER PRIMARY KEY,\n            " ++
      (lit "account" ++ (lit " INTEGER,\n            " ++ (lit "notes" ++
        (lit " TEXT,\n            " ++ (lit "remarks" ++ lit " TEXT\n        );\n        "))))))) =
      recordColsText := by
    rw [recordColsText]
    repeat rw [lit_ofList rfl]
    decide +kernel
  have hms : ∀ vec : List Str, vec.length = 5 → ∀ m ∈ [(0, lit " (\n            "),
      (1, lit " INTEGER PRIMARY KEY,\n            "), (2, lit " INTEGER,\n            "),
      (3, lit " TEXT,\n            "), (4, lit " TEXT\n        );\n        ")],
      lbrace ∉ m.2 ∧ m.1 < vec.length ∧ (m.1 : ℤ) ≤ 2 ^ 31 - 1 := by
    intro vec hlen
    rw [hlen]
    repeat rw [lit_ofList rfl]
    decide +kernel
  rw [createRecordSql, toTabel_eq, ok_bind, htext, hshape,
    sformat_template (by decide +kernel) (hms _ rfl) (by decide +kernel)]
  simp only [filled, List.flatMap_cons, List.flatMap_nil, List.append_nil, List.append_assoc,
    List.getD_cons_zero, List.getD_cons_succ, hcols]

theorem insertRecordSql_eq (h : NoFlg (scannedText tup.fields)) :
    insertRecordSql account tup = .ok (insertText (recordName account) tup.fields) := by
  have hne : tup.fields ≠ [] := List.cons_ne_nil _ _
  rw [insertRecordSql, toTabel_eq, ok_bind, insertDb_eq (lbrace_notMem_recordName account) hne h]

theorem deleteRecordSql_eq : (toTabel account >>= fun table => deleteDb table (lit "time") (.int time)) =
    .ok (deleteText (recordName account) (lit "time") (.int time)) := by
  rw [toTabel_eq, ok_bind, deleteDb_eq (lbrace_notMem_recordName account) (by decide)]

theorem selectRecordSql_eq :
    (toTabel account >>= fun table => sformat (lit "SELECT * FROM {0};") [table]) =
      .ok (lit "SELECT * FROM " ++ recordName account ++ lit ";") := by
  have hshape : lit "SELECT * FROM {0};" = template (lit "SELECT * FROM ") [(0, lit ";")] := by
    decide +kernel
  rw [toTabel_eq, ok_bind, hshape, sformat_template (by decide +kernel) (by simp; decide) (by decide)]
  simp [filled]

end

/-! ## Tables that hold the requests -/

theorem recordName_inj {a b : Int64} (h : recordName a = recordName b) : a = b :=
  Int64.toInt_inj.1 (intText_inj (List.append_cancel_left h))

/-- The tables of the accounts list their requests, and the texts in them are data. -/
structure KeepsRequests (db : Database) (m : Requests) : Prop where
  absent : ∀ a, 0 ≤ a.toInt → m a = none → db (recordName a) = none
  table : ∀ a t, 0 ≤ a.toInt → m a = some t → ∃ rows, t.Lists rows ∧
    (∀ r ∈ rows, ∀ v ∈ r.fields, v.Plain) ∧ db (recordName a) = some (recordClass.holding rows)

section
variable {db : Database} {m : Requests} {a : Int64} {t : KeyMap recordClass.key} {rows : List RecordRow}
  {op : RecordOp} {other : Str → Database → Result}

/-- One table gets new rows. -/
theorem KeepsRequests.update (h : KeepsRequests db m) (ht : t.Lists rows)
    (hplain : ∀ r ∈ rows, ∀ v ∈ r.fields, v.Plain) :
    KeepsRequests (Function.update db (recordName a) (some (recordClass.holding rows)))
      (Function.update m a (some t)) := by
  constructor
  · intro b hb hnone
    have hne : b ≠ a := by
      rintro rfl
      rw [Function.update_self] at hnone
      cases hnone
    rw [Function.update_of_ne hne] at hnone
    rw [Function.update_of_ne fun he => hne (recordName_inj he)]
    exact h.absent b hb hnone
  · intro b u hb hu
    rcases eq_or_ne b a with rfl | hne
    · rw [Function.update_self, Option.some.injEq] at hu
      subst hu
      rw [Function.update_self]
      exact ⟨rows, ht, hplain, rfl⟩
    · rw [Function.update_of_ne hne] at hu
      rw [Function.update_of_ne fun he => hne (recordName_inj he)]
      exact h.table b u hb hu

/-- A member that fails. -/
theorem KeepsRequests.same (h : KeepsRequests db m) (hm : m a = none) :
    KeepsRequests db (Function.update m a none) := by
  rw [← hm, Function.update_eq_self]
  exact h

/-- A member that executes one statement. -/
theorem execDb_ok (sql : Str) : execDb other db (.ok sql) = .ok ((Sql.exec db other sql).ok, (Sql.exec db other sql).db) :=
  rfl

/-- **`create_record`** -/
theorem create_refines (h : KeepsRequests db m) (ha : 0 ≤ a.toInt) :
    ∃ db', createRecord other db a = .ok (true, db') ∧ KeepsRequests db' (RecordOp.apply (.create a) m) := by
  have hname : recordClass.table a = recordName a := rfl
  rw [createRecord, createRecordSql_eq, execDb_ok, RowClass.exec_create ha, hname, RecordOp.apply]
  cases hm : m a with
  | none =>
    rw [h.absent a ha hm]
    exact ⟨_, rfl, h.update KeyMap.lists_empty fun r hr => absurd hr List.not_mem_nil⟩
  | some t =>
    obtain ⟨rows, -, -, hdb⟩ := h.table a t ha hm
    rw [hdb, Option.getD_some, ← hm, Function.update_eq_self]
    exact ⟨_, rfl, h⟩

/-- **`insert_record`** -/
theorem insert_refines (h : KeepsRequests db m) (ha : 0 ≤ a.toInt) {tup : RecordRow}
    (hnoFlg : NoFlg (scannedText tup.fields)) (hplain : ∀ v ∈ tup.fields, v.Plain) :
    ∃ db', insertRecord other db a tup = .ok (((m a).bind fun t => t.add tup).isSome, db') ∧
      KeepsRequests db' (RecordOp.apply (.insert a tup) m) := by
  rw [insertRecord, insertRecordSql_eq hnoFlg, execDb_ok, RecordOp.apply]
  cases hm : m a with
  | none =>
    have hexec : Sql.exec db other (insertText (recordName a) tup.fields) = failed db :=
      RowClass.exec_insert_none (T := recordClass) ha hplain (h.absent a ha hm)
    rw [hexec]
    exact ⟨db, rfl, h.same hm⟩
  | some t =>
    obtain ⟨rows, hrows, hrowsPlain, hdb⟩ := h.table a t ha hm
    have hexec : Sql.exec db other (insertText (recordName a) tup.fields) = _ :=
      RowClass.exec_insert (T := recordClass) ha hplain hdb rfl
    have hchecked : recordClass.checked tup = true := rfl
    have hadd := RowClass.addRow_holding (T := recordClass) rows tup
    have hmap := hrows.addRow tup
    rw [hexec, if_pos hchecked, hadd, Option.map_some, Option.bind_some]
    cases hnew : t.add tup with
    | none =>
      rw [hnew, addRow] at hmap
      have htaken : (rows.any fun x => recordClass.key x == recordClass.key tup) = true := by
        by_contra hfree
        rw [if_neg hfree] at hmap
        cases hmap
      rw [if_pos htaken, Option.getD_none, ← hm, Function.update_eq_self]
      exact ⟨db, rfl, h⟩
    | some t' =>
      rw [hnew] at hmap
      obtain ⟨rows', hrows', hlists⟩ := hmap
      have hfree : ¬ (rows.any fun x => recordClass.key x == recordClass.key tup) = true := by
        intro htaken
        rw [addRow, if_pos htaken] at hrows'
        cases hrows'
      have hplain' : ∀ r ∈ rows', ∀ v ∈ r.fields, v.Plain := by
        intro r hr
        rcases (mem_addRow hrows').1 hr with rfl | hold
        · exact hplain
        · exact hrowsPlain r hold
      obtain rfl : rows' = insertRow recordClass.key tup rows := (addRow_eq_some.1 hrows').2
      rw [if_neg hfree, Option.getD_some]
      exact ⟨_, rfl, h.update hlists hplain'⟩

/-- **`delete_record`** -/
theorem delete_refines (h : KeepsRequests db m) (ha : 0 ≤ a.toInt) (time : Int64) :
    ∃ db', deleteRecord other db a time = .ok ((m a).isSome, db') ∧
      KeepsRequests db' (RecordOp.apply (.delete a time) m) := by
  rw [deleteRecord, deleteRecordSql_eq, execDb_ok, RecordOp.apply]
  cases hm : m a with
  | none =>
    have hexec : Sql.exec db other (deleteText (recordName a) (lit "time") (.int time)) = failed db :=
      RowClass.exec_delete_none (T := recordClass) ha (h.absent a ha hm)
    rw [hexec]
    exact ⟨db, rfl, h.same hm⟩
  | some t =>
    obtain ⟨rows, hrows, hplain, hdb⟩ := h.table a t ha hm
    have hexec : Sql.exec db other (deleteText (recordName a) (lit "time") (.int time)) = _ :=
      RowClass.exec_delete (T := recordClass) ha hdb rfl
    have hkey : ∀ r : RecordRow, (keyOf (recordClass.values r) != time.toInt) =
        (recordClass.key r != time.toInt) := fun r => by rw [RowClass.keyOf_values]
    rw [RowClass.filter_holding (T := recordClass) hkey] at hexec
    rw [hexec]
    exact ⟨_, rfl, h.update (hrows.filter time.toInt) fun r hr => hplain r (List.mem_of_mem_filter hr)⟩

/-- **`select_record`** -/
theorem select_refines (h : KeepsRequests db m) (ha : 0 ≤ a.toInt) :
    ∃ out, selectRecord other db a = .ok out ∧ RecordOp.Answers (.select a) m out := by
  rw [selectRecord, selectRecordSql_eq]
  unfold RecordOp.Answers selectRows
  cases hm : m a with
  | none =>
    have hexec : Sql.exec db other (lit "SELECT * FROM " ++ recordName a ++ lit ";") = failed db :=
      RowClass.exec_select_none (T := recordClass) ha (h.absent a ha hm)
    simp only [Except.map, hexec, failed, hm]
    exact ⟨_, rfl, rfl⟩
  | some t =>
    obtain ⟨rows, hrows, hplain, hdb⟩ := h.table a t ha hm
    have hexec : Sql.exec db other (lit "SELECT * FROM " ++ recordName a ++ lit ";") = _ :=
      RowClass.exec_select (T := recordClass) ha hdb
    have hread : readRows readRecordRow ((recordClass.holding rows).rows.map
        fun row => ((recordClass.holding rows).cols.map Prod.fst).zip row) = (true, rows) :=
      RowClass.readRows_holding (T := recordClass) fun x hx v hv => (hplain x hx v hv).stored
    simp only [Except.map, hexec, if_true, hread, hm]
    exact ⟨_, rfl, rows, hrows, rfl⟩

/-- **One member** reports what it does on the requests. -/
theorem exec_refines (h : KeepsRequests db m) (hop : op.Tame) :
    ∃ out db', op.exec other db = .ok (out, db') ∧ op.Answers m out ∧ KeepsRequests db' (op.apply m) := by
  cases op with
  | create a =>
    have ha : 0 ≤ a.toInt := hop.account
    obtain ⟨db', hdb', hkeeps⟩ := create_refines h ha
    exact ⟨_, db', by rw [RecordOp.exec, hdb']; rfl, rfl, hkeeps⟩
  | insert a tup =>
    have ha : 0 ≤ a.toInt := hop.account
    obtain ⟨db', hdb', hkeeps⟩ := insert_refines h ha (hop.noFlg a tup rfl) (hop.plain a tup rfl)
    exact ⟨_, db', by rw [RecordOp.exec, hdb']; rfl, rfl, hkeeps⟩
  | delete a time =>
    have ha : 0 ≤ a.toInt := hop.account
    obtain ⟨db', hdb', hkeeps⟩ := delete_refines h ha time
    exact ⟨_, db', by rw [RecordOp.exec, hdb']; rfl, rfl, hkeeps⟩
  | select a =>
    have ha : 0 ≤ a.toInt := hop.account
    obtain ⟨out, hout, hanswers⟩ := select_refines h ha
    exact ⟨out, db, by rw [RecordOp.exec, hout]; rfl, hanswers, h⟩

/-- **Any sequence of members** returns, and reports what the maps of requests say. -/
theorem records_refine {ops : List RecordOp} (h : KeepsRequests db m) (hops : ∀ op ∈ ops, op.Tame) :
    ∃ outs db', RecordOp.execAll other ops db = .ok (outs, db') ∧ RecordOp.AnswersAll ops m outs := by
  induction ops generalizing db m with
  | nil => exact ⟨[], db, rfl, rfl⟩
  | cons op ops ih =>
    obtain ⟨hop, hops⟩ := List.forall_mem_cons.1 hops
    obtain ⟨out, db₁, hexec, hanswers, hkeeps⟩ :
        ∃ out db₁, op.exec other db = .ok (out, db₁) ∧ op.Answers m out ∧ KeepsRequests db₁ (op.apply m) :=
      exec_refines h hop
    obtain ⟨outs, db', hall, hrest⟩ := ih hkeeps hops
    refine ⟨out :: outs, db', ?_, out, outs, rfl, hanswers, hrest⟩
    rw [RecordOp.execAll, hexec, ok_bind, hall]
    rfl

end

/-- A request of 2 to 1. -/
def request : RecordRow := ⟨7, 2, lit "hello", []⟩

/-- The first table of a database: a request is put in and selected, deleted and gone. -/
theorem records_refine_request : ∃ outs db',
    RecordOp.execAll QwebClient.noOther [.create 1, .insert 1 request, .select 1, .delete 1 7, .select 1] (fun _ => none) =
      .ok (outs, db') ∧
    RecordOp.AnswersAll [.create 1, .insert 1 request, .select 1, .delete 1 7, .select 1] (fun _ => none) outs := by
  have hempty : KeepsRequests (fun _ => none) (fun _ => none) := ⟨fun _ _ _ => rfl, fun _ _ _ h => by cases h⟩
  have hnoFlg : NoFlg (scannedText request.fields) := by decide +kernel
  have hplain : ∀ v ∈ request.fields, v.Plain := by decide +kernel
  refine records_refine hempty fun op hop => ⟨?_, ?_, ?_⟩
  · simp only [List.mem_cons, List.not_mem_nil, or_false] at hop
    rcases hop with rfl | rfl | rfl | rfl | rfl <;> decide
  · rintro a tup rfl
    simp only [List.mem_cons, RecordOp.insert.injEq, reduceCtorEq, false_or, or_false, List.not_mem_nil] at hop
    rw [hop.2]
    exact hnoFlg
  · rintro a tup rfl
    simp only [List.mem_cons, RecordOp.insert.injEq, reduceCtorEq, false_or, or_false, List.not_mem_nil] at hop
    rw [hop.2]
    exact hplain

end SimpleChat
