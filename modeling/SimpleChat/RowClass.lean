/-
  What the statements on the tables of the two classes do.

  * `Field.Plain`: the values that stand in a statement as they are;
  * `exec_insertText` .. `exec_deleteText`: the statements of `sqlite_base`, token by
    token;
  * `RowClass`: the tables of a class and their rows, with what a row is read back as;
    `historyClass` and `recordClass` are `sqlite_history` and `sqlite_record`;
  * `RowClass.exec_insert` .. `RowClass.exec_delete`: the effect of the statements on a
    table;
  * `RowClass.readRows_holding`: the rows that were stored are read back.
-/
import SimpleChat.FriendTables
import SimpleChat.Statements

namespace SimpleChat

open Lib Lib.Sql

/-! ## Values in a statement -/

/-- A text without quotes, which end its literal, and without null bytes, which end the
    statement. -/
def Field.Plain : Field → Prop
  | .int _ => True
  | .text s => quote ∉ s ∧ (0 : UInt8) ∉ s

instance : ∀ v : Field, Decidable v.Plain
  | .int _ => .isTrue trivial
  | .text _ => inferInstanceAs (Decidable (_ ∧ _))

/-- A value that a cell can hold: its texts end at a null byte. -/
def Field.Stored : Field → Prop
  | .int _ => True
  | .text s => (0 : UInt8) ∉ s

theorem Field.Plain.stored {v : Field} (h : v.Plain) : v.Stored := by
  cases v with
  | int n => trivial
  | text s => exact h.2

theorem Field.Plain.unquoted {v : Field} (h : v.Plain) : v.Unquoted := by
  cases v with
  | int n => trivial
  | text s => exact h.1

theorem Field.value_inRange (v : Field) : v.value.InRange := by
  cases v with
  | int n => exact ⟨n.le_toInt, n.toInt_lt⟩
  | text s => trivial

theorem ne_zero_intText (z : ℤ) : ∀ b ∈ intText z, b ≠ 0 := by
  have hdigit : ∀ b ∈ natText z.natAbs, b ≠ 0 := by
    rintro b hb rfl
    exact absurd (natText_digits _ _ hb) (by decide)
  intro b hb
  unfold intText at hb
  split_ifs at hb
  · rcases List.mem_cons.1 hb with rfl | hb
    · decide
    · exact hdigit b hb
  · exact hdigit b hb

theorem Field.Plain.ne_zero {v : Field} (h : v.Plain) : ∀ b ∈ v.sqlText, b ≠ 0 := by
  cases v with
  | int n => exact ne_zero_intText _
  | text s =>
    rintro b hb rfl
    rcases List.mem_cons.1 hb with hq | hb
    · exact absurd hq (by decide)
    · rcases List.mem_append.1 hb with hb | hb
      · exact h.2 hb
      · exact absurd (List.mem_singleton.1 hb) (by decide)

theorem ne_zero_valuesText : ∀ {args : List Field}, (∀ v ∈ args, v.Plain) →
    ∀ b ∈ valuesText args, b ≠ 0
  | [], _, b, hb => absurd hb List.not_mem_nil
  | [v], h, b, hb => (h v List.mem_cons_self).ne_zero b hb
  | v :: w :: vs, h, b, hb => by
    rcases List.mem_append.1 hb with hb | hb
    · exact (h v List.mem_cons_self).ne_zero b hb
    rcases List.mem_cons.1 hb with rfl | hb
    · decide
    · exact ne_zero_valuesText (fun u hu => h u (List.mem_cons_of_mem v hu)) b hb

theorem ne_zero_append {s t : Str} : (∀ b ∈ s ++ t, b ≠ 0) ↔ (∀ b ∈ s, b ≠ 0) ∧ ∀ b ∈ t, b ≠ 0 :=
  List.forall_mem_append

/-! ## The statements, token by token -/

/-- The name of a column. -/
structure ColumnName (c : Str) : Prop where
  lower : LowerName c
  notMem : c ∉ keywords

theorem LowerName.ne_zero {w : Str} (h : LowerName w) : ∀ b ∈ w, b ≠ 0 := by
  rintro b hb rfl
  obtain ⟨x, s, rfl, hx, hs⟩ := h.start
  rcases List.mem_cons.1 hb with rfl | hb
  · exact absurd hx (by decide)
  · exact absurd (hs 0 hb) (by decide)

theorem LowerName.lexes {w : Str} (h : LowerName w) : LexesBefore w [.word w] := by
  rintro (_ | ⟨d, r⟩) ⟨d', hd, hsep⟩
  · cases hd
  · obtain rfl := Option.some.inj hd
    exact h.lex (idChar_of_sep hsep).1 (idChar_of_sep hsep).2 r

theorem Field.Unquoted.lexes {v : Field} (h : v.Unquoted) : LexesBefore v.sqlText (valueToks v.value) := by
  cases v with
  | int n => exact lexesBefore_int _
  | text s => exact lexesBefore_str h

section
variable {table col idCol : Str} {args : List Field} {val id : Field}
  {other : Str → Database → Result} {db : Database} {r : Result}

/-- **The tokens of an insertion.** -/
theorem lex_cText_insertText (ht : TableWord table) (hne : args ≠ []) (hplain : ∀ v ∈ args, v.Plain) :
    lex (cText (insertText table args)) = some (insertToks table (args.map Field.value)) := by
  have hzero : ∀ b ∈ insertText table args, b ≠ 0 := by
    simp only [insertText, ne_zero_append, and_assoc]
    exact ⟨by decide +kernel, ht.ne_zero, by decide +kernel, ne_zero_valuesText hplain,
      by decide +kernel⟩
  rw [cText_self hzero]
  exact lex_insertText ht.lowerName hne fun v hv => (hplain v hv).unquoted

theorem exec_insertText (ht : TableWord table) (hne : args ≠ []) (hplain : ∀ v ∈ args, v.Plain)
    (hrun : runStmt db (.insert table (args.map Field.value)) = some r) :
    Sql.exec db other (insertText table args) = r := by
  refine exec_eq (lex_cText_insertText ht hne hplain) (parse_insert ht.notMem_keywords ?_ ?_) hrun
  · simpa using hne
  · intro v hv
    obtain ⟨f, -, rfl⟩ := List.mem_map.1 hv
    exact f.value_inRange

/-- A condition at the end of a statement. -/
theorem lex_cond {pre e : Str} {ts : List Tok} (hpre : Lexes pre ts) (hid : LowerName idCol)
    (hk : id.Unquoted) (hend : Lexes e [.sym 59]) (hsep : Separates e) :
    lex (pre ++ idCol ++ lit " = " ++ id.sqlText ++ e) = some (ts ++ condToks idCol id.value) := by
  have heq : Lexes (lit " = ") [.sym 61] := lexes_of_lexN (n := 20) (by decide +kernel) (by decide +kernel)
  have hlex := ((((hpre.append_before hid.lexes).append heq (by decide)).append_before hk.lexes).append
    hend hsep).lex_eq
  rw [hlex]
  simp [condToks]

/-- **The tokens of an update.** -/
theorem lex_updateText (ht : LowerName table) (hcol : LowerName col) (hid : LowerName idCol)
    (hval : val.Unquoted) (hk : id.Unquoted) :
    lex (updateText table idCol id col val) = some (updateToks table col val.value idCol id.value) := by
  have hupdate : Lexes (lit " UPDATE ") [.word (lit "update")] :=
    lexes_of_lexN (n := 20) (by decide +kernel) (by decide +kernel)
  have hset : Lexes (lit " SET ") [.word (lit "set")] :=
    lexes_of_lexN (n := 20) (by decide +kernel) (by decide +kernel)
  have heq : Lexes (lit " = ") [.sym 61] := lexes_of_lexN (n := 20) (by decide +kernel) (by decide +kernel)
  have hwhere : Lexes (lit " WHERE ") [.word (lit "where")] :=
    lexes_of_lexN (n := 20) (by decide +kernel) (by decide +kernel)
  have hend : Lexes (lit "; ") [.sym 59] := lexes_of_lexN (n := 20) (by decide +kernel) (by decide +kernel)
  have hfields := ((((((hupdate.append_before ht.lexes).append hset (by decide)).append_before
    hcol.lexes).append heq (by decide)).append_before hval.lexes).append hwhere (by decide))
  rw [updateText, lex_cond hfields hid hk hend (by decide)]
  simp [updateToks]

theorem exec_updateText (ht : TableWord table) (hcol : ColumnName col) (hid : ColumnName idCol)
    (hval : val.Plain) (hk : id.Plain)
    (hrun : runStmt db (.update table col val.value idCol id.value) = some r) :
    Sql.exec db other (updateText table idCol id col val) = r := by
  have hzero : ∀ b ∈ updateText table idCol id col val, b ≠ 0 := by
    simp only [updateText, ne_zero_append, and_assoc]
    exact ⟨by decide +kernel, ht.ne_zero, by decide +kernel, hcol.lower.ne_zero, by decide +kernel,
      hval.ne_zero, by decide +kernel, hid.lower.ne_zero, by decide +kernel, hk.ne_zero,
      by decide +kernel⟩
  have hlex : lex (cText (updateText table idCol id col val)) =
      some (updateToks table col val.value idCol id.value) := by
    rw [cText_self hzero]
    exact lex_updateText ht.lowerName hcol.lower hid.lower hval.unquoted hk.unquoted
  exact exec_eq hlex (parse_update ht.notMem_keywords hcol.notMem hid.notMem val.value_inRange
    id.value_inRange) hrun

/-- **The tokens of a deletion.** -/
theorem exec_deleteText (ht : TableWord table) (hid : ColumnName idCol) (hk : id.Plain)
    (hrun : runStmt db (.delete table idCol id.value) = some r) :
    Sql.exec db other (deleteText table idCol id) = r := by
  have hdelete : Lexes (lit " DELETE FROM ") [.word (lit "delete"), .word (lit "from")] :=
    lexes_of_lexN (n := 20) (by decide +kernel) (by decide +kernel)
  have hwhere : Lexes (lit " WHERE ") [.word (lit "where")] :=
    lexes_of_lexN (n := 20) (by decide +kernel) (by decide +kernel)
  have hend : Lexes (lit "; ") [.sym 59] := lexes_of_lexN (n := 20) (by decide +kernel) (by decide +kernel)
  have hzero : ∀ b ∈ deleteText table idCol id, b ≠ 0 := by
    simp only [deleteText, ne_zero_append, and_assoc]
    exact ⟨by decide +kernel, ht.ne_zero, by decide +kernel, hid.lower.ne_zero, by decide +kernel,
      hk.ne_zero, by decide +kernel⟩
  have hfrom := ((hdelete.append_before ht.lowerName.lexes).append hwhere (by decide))
  have hlex : lex (cText (deleteText table idCol id)) = some (deleteToks table idCol id.value) := by
    rw [cText_self hzero, deleteText, lex_cond hfrom hid.lower hk.unquoted hend (by decide)]
    rfl
  exact exec_eq hlex (parse_delete ht.notMem_keywords hid.notMem id.value_inRange) hrun

/-- **The tokens of a selection.** -/
theorem exec_selectText (ht : TableWord table) (hrun : runStmt db (.select table none) = some r) :
    Sql.exec db other (lit "SELECT * FROM " ++ table ++ lit ";") = r := by
  have hselect : Lexes (lit "SELECT * FROM ") [.word (lit "select"), .sym 42, .word (lit "from")] :=
    lexes_of_lexN (n := 20) (by decide +kernel) (by decide +kernel)
  have hend : Lexes (lit ";") [.sym 59] := lexes_of_lexN (n := 20) (by decide +kernel) (by decide +kernel)
  have hzero : ∀ b ∈ lit "SELECT * FROM " ++ table ++ lit ";", b ≠ 0 := by
    simp only [ne_zero_append, and_assoc]
    exact ⟨by decide +kernel, ht.ne_zero, by decide +kernel⟩
  have hlex : lex (cText (lit "SELECT * FROM " ++ table ++ lit ";")) = some (selectToks table) := by
    rw [cText_self hzero]
    exact ((hselect.append_before ht.lowerName.lexes).append hend (by decide)).lex_eq
  exact exec_eq hlex (parse_select ht.notMem_keywords) hrun

/-- **The tokens of a selection with a condition.** -/
theorem exec_selectWhereText (ht : TableWord table) (hid : ColumnName idCol) (hk : id.Plain)
    (hrun : runStmt db (.select table (some (idCol, id.value))) = some r) :
    Sql.exec db other (lit "SELECT * FROM " ++ table ++ lit " WHERE " ++ idCol ++ lit " = " ++
      id.sqlText ++ lit ";") = r := by
  have hselect : Lexes (lit "SELECT * FROM ") [.word (lit "select"), .sym 42, .word (lit "from")] :=
    lexes_of_lexN (n := 20) (by decide +kernel) (by decide +kernel)
  have hwhere : Lexes (lit " WHERE ") [.word (lit "where")] :=
    lexes_of_lexN (n := 20) (by decide +kernel) (by decide +kernel)
  have hend : Lexes (lit ";") [.sym 59] := lexes_of_lexN (n := 20) (by decide +kernel) (by decide +kernel)
  have hzero : ∀ b ∈ lit "SELECT * FROM " ++ table ++ lit " WHERE " ++ idCol ++ lit " = " ++
      id.sqlText ++ lit ";", b ≠ 0 := by
    simp only [ne_zero_append, and_assoc]
    exact ⟨by decide +kernel, ht.ne_zero, by decide +kernel, hid.lower.ne_zero, by decide +kernel,
      hk.ne_zero, by decide +kernel⟩
  have hfrom := ((hselect.append_before ht.lowerName.lexes).append hwhere (by decide))
  have hlex : lex (cText (lit "SELECT * FROM " ++ table ++ lit " WHERE " ++ idCol ++ lit " = " ++
      id.sqlText ++ lit ";")) = some (selectWhereToks table idCol id.value) := by
    rw [cText_self hzero, lex_cond hfrom hid.lower hk.unquoted hend (by decide)]
    rfl
  exact exec_eq hlex (parse_selectWhere ht.notMem_keywords hid.notMem id.value_inRange) hrun

end

/-! ## The two classes -/

/-- A class of tables: their names, columns and rows, and the rows that its loops read. -/
structure RowClass (ρ : Type) where
  table : Int64 → Str
  keyCol : Str
  cols : List (Str × Kind)
  /-- The column definitions in the text of `create_history` and `create_record`. -/
  colsText : Str
  fields : ρ → List Field
  key : ρ → ℤ
  /-- The `CHECK` of the columns. -/
  checked : ρ → Bool
  read : List (Str × Value) → Option ρ
  tableWord : ∀ a, 0 ≤ a.toInt → TableWord (table a)
  cols_eq : cols = (keyCol, .key) :: cols.tail
  columnName : ∀ c ∈ cols, ColumnName c.1
  unsigned : ∀ c ∈ cols, c.2.Unsigned
  key_notMem : .key ∉ cols.tail.map Prod.snd
  colsText_lex : lex colsText = some (.sym 40 :: (colsToks cols ++ [.sym 41, .sym 59]))
  colsText_sep : Separates colsText
  colsText_ne_zero : ∀ b ∈ colsText, b ≠ 0
  fields_ne_nil : ∀ r, fields r ≠ []
  fits : ∀ r, fitsAll cols ((fields r).map Field.value) = some (checked r)
  key_eq : ∀ r, keyOf ((fields r).map Field.value) = key r
  read_eq : ∀ r, (∀ v ∈ fields r, v.Stored) →
    read ((cols.map Prod.fst).zip ((fields r).map Field.value)) = some r

/-- A number is read back. -/
theorem stoll_int (n : Int64) : (stoll (intText n.toInt)).map Int64.ofInt = some n := by
  have hhi : n.toInt ≤ 2 ^ 63 - 1 := Int.le_sub_one_of_lt n.toInt_lt
  rw [stoll, stoInt_intText n.toInt n.le_toInt hhi, Option.map_some, Int64.ofInt_toInt]

theorem cText_stored {s : Str} (h : (Field.text s).Stored) : cText s = s :=
  cText_self fun _ hb he => h (he ▸ hb)

theorem rowField_cons (n : Str) (v : Value) (row : List (Str × Value)) (name : Str) :
    rowField ((n, v) :: row) name = if n = name then argText v else rowField row name := by
  unfold rowField
  rw [List.find?_cons]
  by_cases h : n = name
  · simp [h]
  · have hbeq : (n == name) = false := beq_eq_false_iff_ne.2 h
    simp [h, hbeq]

/-- The names of the columns of both classes. -/
def columnNames : List Str :=
  [lit "send_time", lit "feed_back", lit "non_read", lit "types", lit "object", lit "content",
    lit "time", lit "account", lit "notes", lit "remarks"]

theorem columnName_of_mem {c : Str} (h : c ∈ columnNames) : ColumnName c := by
  have hshape : ∀ c ∈ columnNames, (c.head?.any isIdStart = true ∧ ∀ b ∈ c.tail, isIdChar b = true) ∧
      c.map Sql.lower = c ∧ c ∉ keywords := by
    unfold columnNames keywords
    repeat rw [lit_ofList rfl]
    decide +kernel
  obtain ⟨⟨hstart, hrest⟩, hlower, hkey⟩ := hshape c h
  cases c with
  | nil => cases hstart
  | cons b r => exact ⟨⟨⟨b, r, rfl, hstart, hrest⟩, hlower⟩, hkey⟩

/-- The names of the columns are different. -/
theorem historyNames_ne : ((historyCols.map Prod.fst).Pairwise fun a b => a ≠ b) := by
  decide +kernel

/-- `sqlite_history` -/
def historyClass : RowClass HistoryRow where
  table := historyName
  keyCol := lit "send_time"
  cols := historyCols
  colsText := historyColsText
  fields := HistoryRow.fields
  key r := r.sendTime.toInt
  checked r := decide (0 ≤ r.nonRead.toInt ∧ r.nonRead.toInt ≤ 1)
  read := readHistoryRow
  tableWord _ h := tableWord_historyName h
  cols_eq := rfl
  columnName c hc := columnName_of_mem ((by decide +kernel : ∀ c ∈ historyCols, c.1 ∈ columnNames) c hc)
  unsigned := unsigned_historyCols
  key_notMem := by decide
  colsText_lex := lex_historyColsText
  colsText_sep := historyColsText_sep
  colsText_ne_zero := historyColsText_ne_zero
  fields_ne_nil _ := List.cons_ne_nil _ _
  fits r := by
    simp only [HistoryRow.fields, List.map_cons, List.map_nil, Field.value, historyCols, fitsAll, fits,
      Bool.true_and, Bool.and_true]
  key_eq _ := rfl
  read_eq r h := by
    have htypes : cText r.types = r.types := cText_stored (h (.text r.types) (by simp [HistoryRow.fields]))
    have hobject : cText r.object = r.object :=
      cText_stored (h (.text r.object) (by simp [HistoryRow.fields]))
    have hcontent : cText r.content = r.content :=
      cText_stored (h (.text r.content) (by simp [HistoryRow.fields]))
    have hne := historyNames_ne
    simp only [historyCols, List.map_cons, List.map_nil, List.pairwise_cons, List.mem_cons,
      List.not_mem_nil, or_false, forall_eq_or_imp, forall_eq] at hne
    simp only [readHistoryRow, rowInt, historyCols, HistoryRow.fields, List.map_cons, List.map_nil,
      List.zip_cons_cons, List.zip_nil_left, rowField_cons, Field.value, argText, hne, if_true, if_false,
      stoll_int, htypes, hobject, hcontent, Option.bind_eq_bind, Option.bind_some]

/-- The column definitions of `create_record`. -/
def recordColsText : Str := lit " (\n            time INTEGER PRIMARY KEY,\n            account INTEGER,\n            notes TEXT,\n            remarks TEXT\n        );\n        "

/-- The columns of a record. -/
def recordCols : List (Str × Kind) :=
  [(lit "time", .key), (lit "account", .int none), (lit "notes", .text), (lit "remarks", .text)]

theorem recordNames_ne : ((recordCols.map Prod.fst).Pairwise fun a b => a ≠ b) := by
  decide +kernel

theorem tableWord_recordName {account : Int64} (h : 0 ≤ account.toInt) :
    TableWord (recordName account) := by
  rw [recordName, intText, if_neg (not_lt.2 h)]
  exact .recordName _

theorem unsigned_recordCols : ∀ c ∈ recordCols, c.2.Unsigned := by
  simp [recordCols, Kind.Unsigned]

theorem lex_recordColsText :
    lex recordColsText = some (.sym 40 :: (colsToks recordCols ++ [.sym 41, .sym 59])) := by
  refine lex_of_lexN 100 ?_
  rw [recordColsText, lit_ofList rfl]
  decide +kernel

theorem recordColsText_sep : Separates recordColsText := by
  rw [recordColsText, lit_ofList rfl]
  decide +kernel

theorem recordColsText_ne_zero : ∀ b ∈ recordColsText, b ≠ 0 := by
  rw [recordColsText, lit_ofList rfl]
  decide +kernel

/-- `sqlite_record` -/
def recordClass : RowClass RecordRow where
  table := recordName
  keyCol := lit "time"
  cols := recordCols
  colsText := recordColsText
  fields := RecordRow.fields
  key r := r.time.toInt
  checked _ := true
  read := readRecordRow
  tableWord _ h := tableWord_recordName h
  cols_eq := rfl
  columnName c hc := columnName_of_mem ((by decide +kernel : ∀ c ∈ recordCols, c.1 ∈ columnNames) c hc)
  unsigned := unsigned_recordCols
  key_notMem := by decide
  colsText_lex := lex_recordColsText
  colsText_sep := recordColsText_sep
  colsText_ne_zero := recordColsText_ne_zero
  fields_ne_nil _ := List.cons_ne_nil _ _
  fits r := rfl
  key_eq _ := rfl
  read_eq r h := by
    have hnotes : cText r.notes = r.notes := cText_stored (h (.text r.notes) (by simp [RecordRow.fields]))
    have hremarks : cText r.remarks = r.remarks :=
      cText_stored (h (.text r.remarks) (by simp [RecordRow.fields]))
    have hne := recordNames_ne
    simp only [recordCols, List.map_cons, List.map_nil, List.pairwise_cons, List.mem_cons,
      List.not_mem_nil, or_false, forall_eq_or_imp, forall_eq] at hne
    simp only [readRecordRow, rowInt, recordCols, RecordRow.fields, List.map_cons, List.map_nil,
      List.zip_cons_cons, List.zip_nil_left, rowField_cons, Field.value, argText, hne, if_true, if_false,
      stoll_int, hnotes, hremarks, Option.bind_eq_bind, Option.bind_some]

namespace RowClass

variable {ρ : Type} (T : RowClass ρ)

/-- A row as it is stored. -/
def values (r : ρ) : List Value := (T.fields r).map Field.value

/-- A table that holds rows of the class. -/
def holding (rows : List ρ) : Table := ⟨T.cols, rows.map T.values⟩

/-- The statement that creates a table. -/
def createText (a : Int64) : Str := lit "\n        CREATE TABLE IF NOT EXISTS " ++ T.table a ++ T.colsText

section
variable {T} {a k : Int64} {r : ρ} {db : Database} {tbl : Table} {other : Str → Database → Result}

theorem keyColumn : ColumnName T.keyCol := by
  have hmem : (T.keyCol, .key) ∈ T.cols := by
    rw [T.cols_eq]
    exact List.mem_cons_self
  exact T.columnName _ hmem

theorem colIdx_key (hcols : tbl.cols = T.cols) : colIdx tbl T.keyCol = some 0 := by
  rw [colIdx, hcols, T.cols_eq]
  simp [List.findIdx?_cons]

/-- **The creation of a table**: one that exists is left as it is. -/
theorem exec_create (ha : 0 ≤ a.toInt) :
    Sql.exec db other (T.createText a) =
      match db (T.table a) with
      | some _ => ⟨true, db, []⟩
      | none => ⟨true, Function.update db (T.table a) (some (T.holding [])), []⟩ := by
  have hlex := T.colsText_lex
  have hnames : ∀ c ∈ T.cols, c.1 ∉ keywords ∧ c.2.Unsigned :=
    fun c hc => ⟨(T.columnName c hc).notMem, T.unsigned c hc⟩
  rw [T.cols_eq] at hlex hnames
  rw [createText, exec_createText (T.tableWord a ha) hlex T.colsText_sep T.colsText_ne_zero hnames
    T.key_notMem, ← T.cols_eq]
  rfl

/-- **An insertion**: a row whose key is free, and that meets the `CHECK`, is put in;
    any other one is refused. -/
theorem exec_insert (ha : 0 ≤ a.toInt) (hplain : ∀ v ∈ T.fields r, v.Plain)
    (hdb : db (T.table a) = some tbl) (hcols : tbl.cols = T.cols) :
    Sql.exec db other (insertText (T.table a) (T.fields r)) =
      match if T.checked r then addRow keyOf (T.values r) tbl.rows else none with
      | some rows => stored db (T.table a) tbl rows
      | none => failed db := by
  refine exec_insertText (T.tableWord a ha) (T.fields_ne_nil r) hplain ?_
  simp only [runStmt, hdb, runInsert, hcols, T.fits, Option.map_some, values]
  cases T.checked r <;> rfl

/-- Without its table nothing is inserted. -/
theorem exec_insert_none (ha : 0 ≤ a.toInt) (hplain : ∀ v ∈ T.fields r, v.Plain)
    (hdb : db (T.table a) = none) :
    Sql.exec db other (insertText (T.table a) (T.fields r)) = failed db := by
  refine exec_insertText (T.tableWord a ha) (T.fields_ne_nil r) hplain ?_
  simp only [runStmt, hdb]

/-- **An update** rewrites one column of the row with the key; it is refused if there is
    such a row, and the value does not meet the `CHECK` of the column. -/
theorem exec_update {col : Str} {i : ℕ} {v : Field} {b : Bool} (ha : 0 ≤ a.toInt)
    (hcol : ColumnName col) (hv : v.Plain) (hdb : db (T.table a) = some tbl) (hcols : tbl.cols = T.cols)
    (hidx : colIdx tbl col = some (i + 1))
    (hfits : (T.cols[i + 1]?.bind fun c => Sql.fits c.2 v.value) = some b) :
    Sql.exec db other (updateText (T.table a) T.keyCol (.int k) col v) =
      if b || !(tbl.rows.any fun r => keyOf r == k.toInt) then
        stored db (T.table a) tbl (updateRow keyOf k.toInt (fun r => r.set (i + 1) v.value) tbl.rows)
      else failed db := by
  have hk : (Field.int k).value = .int k.toInt := rfl
  refine exec_updateText (T.tableWord a ha) hcol keyColumn hv trivial ?_
  simp only [runStmt, hdb, runUpdate, colIdx_key hcols, hidx, hk, hcols, hfits, Option.map_some]

/-- Without its table nothing is rewritten. -/
theorem exec_update_none {col : Str} {v : Field} (ha : 0 ≤ a.toInt) (hcol : ColumnName col)
    (hv : v.Plain) (hdb : db (T.table a) = none) :
    Sql.exec db other (updateText (T.table a) T.keyCol (.int k) col v) = failed db := by
  refine exec_updateText (T.tableWord a ha) hcol keyColumn hv trivial ?_
  simp only [runStmt, hdb]

/-- **A deletion** takes the row with the key away. -/
theorem exec_delete (ha : 0 ≤ a.toInt) (hdb : db (T.table a) = some tbl) (hcols : tbl.cols = T.cols) :
    Sql.exec db other (deleteText (T.table a) T.keyCol (.int k)) =
      stored db (T.table a) tbl (tbl.rows.filter fun r => keyOf r != k.toInt) := by
  have hk : (Field.int k).value = .int k.toInt := rfl
  refine exec_deleteText (T.tableWord a ha) keyColumn trivial ?_
  simp only [runStmt, hdb, runDelete, colIdx_key hcols, hk]

theorem exec_delete_none (ha : 0 ≤ a.toInt) (hdb : db (T.table a) = none) :
    Sql.exec db other (deleteText (T.table a) T.keyCol (.int k)) = failed db := by
  refine exec_deleteText (T.tableWord a ha) keyColumn trivial ?_
  simp only [runStmt, hdb]

/-- **A selection** gives the rows of the table. -/
theorem exec_select (ha : 0 ≤ a.toInt) (hdb : db (T.table a) = some tbl) :
    Sql.exec db other (lit "SELECT * FROM " ++ T.table a ++ lit ";") =
      ⟨true, db, tbl.rows.map fun row => (tbl.cols.map Prod.fst).zip row⟩ := by
  refine exec_selectText (T.tableWord a ha) ?_
  simp only [runStmt, hdb, runSelect]

theorem exec_select_none (ha : 0 ≤ a.toInt) (hdb : db (T.table a) = none) :
    Sql.exec db other (lit "SELECT * FROM " ++ T.table a ++ lit ";") = failed db := by
  refine exec_selectText (T.tableWord a ha) ?_
  simp only [runStmt, hdb]

/-- The rows that were stored are read back. -/
theorem readRows_holding {rows : List ρ} (hstored : ∀ x ∈ rows, ∀ v ∈ T.fields x, v.Stored) :
    readRows T.read ((T.holding rows).rows.map fun row => (T.cols.map Prod.fst).zip row) =
      (true, rows) := by
  induction rows with
  | nil => rfl
  | cons x rows ih =>
    obtain ⟨hx, hrows⟩ := List.forall_mem_cons.1 hstored
    have hread : T.read ((T.cols.map Prod.fst).zip (T.values x)) = some x := T.read_eq x hx
    have hrest := ih hrows
    simp only [holding, List.map_cons, readRows, hread] at hrest ⊢
    rw [hrest]

/-- The rows with one more. -/
theorem addRow_holding (rows : List ρ) (r : ρ) :
    addRow keyOf (T.values r) (T.holding rows).rows =
      if rows.any fun x => T.key x == T.key r then none else some (T.holding (insertRow T.key r rows)).rows := by
  have hmap : addRow keyOf (T.values r) (rows.map T.values) =
      (addRow T.key r rows).map (List.map T.values) := addRow_map T.values T.key_eq r rows
  rw [holding, hmap, addRow]
  split_ifs <;> rfl

theorem keyOf_values (r : ρ) : keyOf (T.values r) = T.key r := T.key_eq r

/-- The rows with one of them rewritten. -/
theorem updateRow_holding {f : ρ → ρ} {g : List Value → List Value}
    (hfg : ∀ r, T.values (f r) = g (T.values r)) (n : ℤ) (rows : List ρ) :
    updateRow keyOf n g (T.holding rows).rows = (T.holding (updateRow T.key n f rows)).rows := by
  simp only [holding, updateRow, List.map_map]
  refine List.map_congr_left fun r _ => ?_
  simp only [Function.comp, keyOf_values]
  split_ifs
  · exact (hfg r).symm
  · rfl

/-- The rows that pass a test. -/
theorem filter_holding {p : ρ → Bool} {q : List Value → Bool} (hpq : ∀ r, q (T.values r) = p r)
    (rows : List ρ) : (T.holding rows).rows.filter q = (T.holding (rows.filter p)).rows := by
  simp only [holding, List.filter_map]
  congr 1
  exact List.filter_congr fun r _ => hpq r

/-- A selection of rows with a value in a column. -/
theorem exec_selectWhere {col : Str} {i : ℕ} {v : Field} (ha : 0 ≤ a.toInt) (hcol : ColumnName col)
    (hv : v.Plain) (hdb : db (T.table a) = some tbl) (hcols : tbl.cols = T.cols)
    (hidx : colIdx tbl col = some i)
    (hfits : (T.cols[i]?.bind fun c => Sql.fits c.2 v.value).isSome = true) :
    Sql.exec db other (lit "SELECT * FROM " ++ T.table a ++ lit " WHERE " ++ col ++ lit " = " ++
      v.sqlText ++ lit ";") =
      ⟨true, db, (tbl.rows.filter fun r => r[i]? == some v.value).map fun row =>
        (T.cols.map Prod.fst).zip row⟩ := by
  obtain ⟨b, hb⟩ := Option.isSome_iff_exists.1 hfits
  refine exec_selectWhereText (T.tableWord a ha) hcol hv ?_
  simp only [runStmt, hdb, runSelect, hidx, hcols, hb, Option.map_some]

theorem exec_selectWhere_none {col : Str} {v : Field} (ha : 0 ≤ a.toInt) (hcol : ColumnName col)
    (hv : v.Plain) (hdb : db (T.table a) = none) :
    Sql.exec db other (lit "SELECT * FROM " ++ T.table a ++ lit " WHERE " ++ col ++ lit " = " ++
      v.sqlText ++ lit ";") = failed db := by
  refine exec_selectWhereText (T.tableWord a ha) hcol hv ?_
  simp only [runStmt, hdb]

end

end RowClass

end SimpleChat
