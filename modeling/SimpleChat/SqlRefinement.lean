/-
  The history in SQLite does what the tables of rows do.

  * `Tables`: the tables of the file hold the rows of the histories;
  * `tables_create` .. `tables_updateNonRead`: each statement text keeps them so, and
    reports the same;
  * `Holds`: the file that is open, of an account that has logged in;
  * `sqlHistory_refines`, `sqlReading_refines`: the members of `sqlite_history`;
  * `reported`: the messages that `select_history` reports;
  * `session_refines`: so a whole session over the texts sends, signals and shows what
    it does over the rows.
-/
import SimpleChat.Acknowledged
import SimpleChat.ChatSession

namespace SimpleChat

open Lib Lib.Json Lib.Sql

/-! ## Rows -/

/-- `UPDATE .. SET non_read = v WHERE send_time = k`; the check is made for the row. -/
def HistoryTable.updateNonRead (t : HistoryTable) (k v : Int64) : Option HistoryTable :=
  if h : 0 ≤ v.toInt ∧ v.toInt ≤ 1 then
    some (t.update k (fun r => { r with nonRead := v }) (fun _ => rfl) fun _ _ => h)
  else if t.rows.any fun r => r.key == k.toInt then none else some t

/-- What a selection reports. -/
def selected : Option (List HistoryRow) → Bool × List HistoryRow
  | some rows => (true, rows)
  | none => (false, [])

/-- `sqlite_history` at row level, for the reader. -/
def rowReading : ReadingDb Histories where
  selectHistory f h := .ok (selected (h.selectHistory f))
  selectNonRead f h := .ok (selected (h.selectNonRead f))
  updateNonRead f k v h := .ok (h.onTable f fun t => t.updateNonRead k v)

section
variable {h : Histories} {account : Int64}

/-- The loop at row level. -/
theorem readLoop_rows (rows : List HistoryRow) (h : Histories) :
    readLoop rowReading account rows h = .ok (h.readLoop account rows) := by
  have hloop : ∀ (out : List CtMsgType) (h : Histories),
      rows.foldlM (fun s r => (rowReading.updateNonRead account r.sendTime 0 s.2).map
        fun q => (s.1 ++ [r.ct], q.2)) (out, h) =
      .ok (out ++ rows.map HistoryRow.ct, rows.foldl (fun h r => (h.markRead account r.sendTime).2) h) := by
    induction rows with
    | nil =>
      intro out h
      rw [List.map_nil, List.append_nil]
      rfl
    | cons r rows ih =>
      intro out h
      have hstep : (rowReading.updateNonRead account r.sendTime 0 h).map
          (fun q => (out ++ [r.ct], q.2)) = .ok (out ++ [r.ct], (h.markRead account r.sendTime).2) := rfl
      rw [List.foldlM_cons]
      simp only [hstep, ok_bind]
      rw [ih, List.map_cons, List.append_assoc]
      rfl
  exact hloop [] h

/-- The reads at row level are those of the histories. -/
theorem readHistory_rows : readHistory rowReading account h = .ok (h.readHistory account) := by
  have hselect : rowReading.selectHistory account h = .ok (selected (h.selectHistory account)) := rfl
  rw [readHistory, hselect, ok_bind, Histories.readHistory]
  cases h.selectHistory account with
  | none => rfl
  | some rows => exact readLoop_rows rows h

theorem readHistoryNonRead_rows :
    readHistoryNonRead rowReading account h = .ok (h.readHistoryNonRead account) := by
  have hselect : rowReading.selectNonRead account h = .ok (selected (h.selectNonRead account)) := rfl
  rw [readHistoryNonRead, hselect, ok_bind, Histories.readHistoryNonRead]
  cases h.selectNonRead account with
  | none => rfl
  | some rows => exact readLoop_rows rows h

end

/-! ## Tables that hold rows -/

theorem historyName_inj {f g : Int64} (h : historyName f = historyName g) : f = g :=
  Int64.toInt_inj.1 (intText_inj (List.append_cancel_left h))

/-- The tables of the database hold the rows of the histories.  A negative account has
    none. -/
structure Tables (db : Database) (h : Histories) : Prop where
  tables : ∀ f, 0 ≤ f.toInt → db (historyName f) = (h f).map fun t => historyClass.holding t.rows
  signed : ∀ f, f.toInt < 0 → h f = none
  stored : ∀ f t, h f = some t → ∀ r ∈ t.rows, ∀ v ∈ r.fields, v.Stored

section
variable {db : Database} {h : Histories} {f k v : Int64} {t t' : HistoryTable}
  {other : Str → Database → Result}

/-- No table was created. -/
theorem tables_none : Tables (fun _ => none) (fun _ => none) :=
  ⟨fun _ _ => rfl, fun _ _ => rfl, fun _ _ h => by cases h⟩

theorem stored_empty : ∀ r ∈ HistoryTable.empty.rows, ∀ v ∈ r.fields, v.Stored :=
  fun _ hr => absurd hr List.not_mem_nil

/-- A table gets new rows. -/
theorem Tables.update (ht : Tables db h) (hf : 0 ≤ f.toInt)
    (hstored : ∀ r ∈ t'.rows, ∀ v ∈ r.fields, v.Stored) :
    Tables (Function.update db (historyName f) (some (historyClass.holding t'.rows)))
      (Function.update h f (some t')) := by
  refine ⟨fun g hg => ?_, fun g hg => ?_, fun g t hgt => ?_⟩
  · rcases eq_or_ne g f with rfl | hne
    · rw [Function.update_self, Function.update_self, Option.map_some]
    · rw [Function.update_of_ne fun he => hne (historyName_inj he), Function.update_of_ne hne]
      exact ht.tables g hg
  · have hne : g ≠ f := by
      rintro rfl
      omega
    rw [Function.update_of_ne hne]
    exact ht.signed g hg
  · rcases eq_or_ne g f with rfl | hne
    · rw [Function.update_self, Option.some.injEq] at hgt
      rw [← hgt]
      exact hstored
    · rw [Function.update_of_ne hne] at hgt
      exact ht.stored g t hgt

/-- **A statement on the table of a friend.**  It fails without the table, and on it does
    what the operation on the rows does. -/
theorem tables_onTable (ht : Tables db h) {text : Str} {op : HistoryTable → Option HistoryTable}
    (hneg : f.toInt < 0 → Sql.exec db other text = failed db)
    (hnone : 0 ≤ f.toInt → db (historyName f) = none → Sql.exec db other text = failed db)
    (hsome : ∀ t, 0 ≤ f.toInt → db (historyName f) = some (historyClass.holding t.rows) →
      Sql.exec db other text =
        match op t with
        | some t' => ⟨true, Function.update db (historyName f) (some (historyClass.holding t'.rows)), []⟩
        | none => failed db)
    (hstored : ∀ t t', (∀ r ∈ t.rows, ∀ v ∈ r.fields, v.Stored) → op t = some t' →
      ∀ r ∈ t'.rows, ∀ v ∈ r.fields, v.Stored) :
    (Sql.exec db other text).ok = (h.onTable f op).1 ∧
      Tables (Sql.exec db other text).db (h.onTable f op).2 := by
  by_cases hf : 0 ≤ f.toInt
  · cases hft : h f with
    | none =>
      have hdb : db (historyName f) = none := by rw [ht.tables f hf, hft, Option.map_none]
      rw [Histories.onTable_none hft, hnone hf hdb]
      exact ⟨rfl, ht⟩
    | some t =>
      have hdb : db (historyName f) = some (historyClass.holding t.rows) := by
        rw [ht.tables f hf, hft, Option.map_some]
      rw [hsome t hf hdb, Histories.onTable, hft, Option.bind_some]
      cases hop : op t with
      | none => exact ⟨rfl, ht⟩
      | some t' => exact ⟨rfl, ht.update hf (hstored t t' (ht.stored f t hft) hop)⟩
  · rw [Histories.onTable_none (ht.signed f (not_le.1 hf)), hneg (not_le.1 hf)]
    exact ⟨rfl, ht⟩

/-! ## The statements -/

/-- **`create_history`**, for an account that is not negative. -/
theorem tables_create (ht : Tables db h) (hf : 0 ≤ f.toInt) :
    (Sql.exec db other (createHistoryText (historyName f))).ok = true ∧
      Tables (Sql.exec db other (createHistoryText (historyName f))).db (h.create f) := by
  cases hft : h f with
  | some t =>
    have hdb : db (historyName f) = some (historyClass.holding t.rows) := by
      rw [ht.tables f hf, hft, Option.map_some]
    have hsame : h.create f = h := by
      rw [Histories.create, hft, Option.getD_some, ← hft, Function.update_eq_self]
    rw [exec_createHistory_eq hf, hdb, hsame]
    exact ⟨rfl, ht⟩
  | none =>
    have hdb : db (historyName f) = none := by rw [ht.tables f hf, hft, Option.map_none]
    rw [exec_createHistory_eq hf, hdb, Histories.create, hft, Option.getD_none]
    exact ⟨rfl, ht.update hf stored_empty⟩

/-- **`insert_history`**, of texts that are data. -/
theorem tables_insert (hother : RefusesSigns other) (ht : Tables db h) {r : HistoryRow} (hr : r.IsData) :
    (Sql.exec db other (insertText (historyName f) r.fields)).ok = (h.insertHistory f r).1 ∧
      Tables (Sql.exec db other (insertText (historyName f) r.fields)).db (h.insertHistory f r).2 := by
  refine tables_onTable ht (fun hneg => ?_) (fun hf hdb => ?_) (fun t hf hdb => ?_)
    (fun t t' hstored hins => ?_)
  · rw [insertText, List.append_assoc, List.append_assoc]
    exact (exec_negative hother hneg _).2.1
  · exact RowClass.exec_insert_none (T := historyClass) hf hr.plain hdb
  · rw [exec_insertHistory hf hr hdb rfl, RowClass.addRow_holding]
    have hkey : (t.rows.any fun x => historyClass.key x == historyClass.key r) = true ↔
        ∃ x ∈ t.rows, x.sendTime = r.sendTime := by
      simp only [List.any_eq_true, beq_iff_eq]
      exact exists_congr fun x => and_congr Iff.rfl HistoryRow.key_inj
    by_cases hchecked : r.Checked
    · have htrue : historyClass.checked r = true := decide_eq_true hchecked
      rw [if_pos htrue]
      cases hins : t.insert r with
      | none => rw [if_pos (hkey.2 ((HistoryTable.insert_eq_none hchecked).1 hins))]
      | some t' =>
        obtain ⟨hfree, -, hrows⟩ := HistoryTable.insert_eq_some.1 hins
        have hany : ¬ (t.rows.any fun x => historyClass.key x == historyClass.key r) = true := by
          rw [hkey]
          rintro ⟨x, hx, he⟩
          exact hfree x hx he
        rw [if_neg hany]
        show stored db (historyName f) _ (historyClass.holding (insertRow HistoryRow.key r t.rows)).rows =
          ⟨true, Function.update db (historyName f) (some (historyClass.holding t'.rows)), []⟩
        rw [← hrows]
        rfl
    · have hins : t.insert r = none := by
        cases hins : t.insert r with
        | none => rfl
        | some t' => exact absurd (HistoryTable.insert_eq_some.1 hins).2.1 hchecked
      have hfalse : ¬ historyClass.checked r = true := fun he => hchecked (of_decide_eq_true he)
      rw [if_neg hfalse, hins]
  · intro x hx
    rcases (HistoryTable.mem_insert hins).1 hx with rfl | hx
    · exact fun v hv => (hr.plain v hv).stored
    · exact hstored x hx

/-- Numbers that are rewritten leave the texts as they are. -/
theorem stored_update {g : HistoryRow → HistoryRow} {hkey : ∀ r, (g r).sendTime = r.sendTime}
    {hcheck : ∀ r, r.Checked → (g r).Checked} (hstored : ∀ r ∈ t.rows, ∀ v ∈ r.fields, v.Stored)
    (hg : ∀ r : HistoryRow, (∀ v ∈ r.fields, v.Stored) → ∀ v ∈ (g r).fields, v.Stored) :
    ∀ r ∈ (t.update k g hkey hcheck).rows, ∀ v ∈ r.fields, v.Stored := by
  intro r hr
  rcases HistoryTable.mem_update.1 hr with ⟨x, hx, -, rfl⟩ | ⟨hr, -⟩
  · exact hg x (hstored x hx)
  · exact hstored r hr

/-- A row can be stored if its texts can. -/
theorem stored_fields {r : HistoryRow} :
    (∀ v ∈ r.fields, v.Stored) ↔ (Field.text r.types).Stored ∧ (Field.text r.object).Stored ∧
      (Field.text r.content).Stored := by
  simp [HistoryRow.fields, Field.Stored]

theorem updateText_neg (hother : RefusesSigns other) (hf : f.toInt < 0) (idCol col : Str) (id val : Field) :
    Sql.exec db other (updateText (historyName f) idCol id col val) = failed db := by
  have hshape : ∃ rest, updateText (historyName f) idCol id col val = lit " UPDATE " ++ historyName f ++ rest := by
    simp only [updateText, List.append_assoc]
    exact ⟨_, rfl⟩
  obtain ⟨rest, hrest⟩ := hshape
  rw [hrest]
  exact (exec_negative hother hf rest).2.2.1

/-- **`update_feed_back`** -/
theorem tables_updateFeedBack (hother : RefusesSigns other) (ht : Tables db h) :
    (Sql.exec db other (updateFeedBackText f k v)).ok = (h.updateFeedBack f k v).1 ∧
      Tables (Sql.exec db other (updateFeedBackText f k v)).db (h.updateFeedBack f k v).2 := by
  refine tables_onTable ht (fun hneg => updateText_neg hother hneg _ _ _ _)
    (fun hf hdb => exec_updateFeedBack_none hf hdb) (fun t hf hdb => ?_) (fun t t' hstored hop => ?_)
  · rw [exec_updateFeedBack hf hdb rfl]
    rw [RowClass.updateRow_holding (T := historyClass) (f := fun r => { r with feedBack := v })
      fun r => rfl]
    rfl
  · obtain rfl := Option.some.inj hop
    exact stored_update hstored fun r hr => stored_fields.2 (by simpa using stored_fields.1 hr)

/-- The statement that `update_non_read` executes. -/
def updateNonReadText (acFriend sendTime nonRead : Int64) : Str :=
  updateText (historyName acFriend) (lit "send_time") (.int sendTime) (lit "non_read") (.int nonRead)

/-- **`update_non_read`** -/
theorem tables_updateNonRead (hother : RefusesSigns other) (ht : Tables db h) :
    (Sql.exec db other (updateNonReadText f k v)).ok = (h.onTable f fun t => t.updateNonRead k v).1 ∧
      Tables (Sql.exec db other (updateNonReadText f k v)).db (h.onTable f fun t => t.updateNonRead k v).2 := by
  have hcol : ColumnName (lit "non_read") := columnName_of_mem (by decide)
  refine tables_onTable ht (fun hneg => updateText_neg hother hneg _ _ _ _)
    (fun hf hdb => RowClass.exec_update_none (T := historyClass) hf hcol trivial hdb)
    (fun t hf hdb => ?_) (fun t t' hstored hop => ?_)
  · have hidx : colIdx (historyClass.holding t.rows) (lit "non_read") = some 2 := by
      show (historyCols.map Prod.fst).findIdx? (· == lit "non_read") = some 2
      decide +kernel
    have hexec : Sql.exec db other (updateNonReadText f k v) = _ :=
      RowClass.exec_update (T := historyClass) (k := k) (v := .int v)
        (b := decide (0 ≤ v.toInt ∧ v.toInt ≤ 1)) hf hcol trivial hdb rfl hidx rfl
    have hany : ((historyClass.holding t.rows).rows.any fun r => keyOf r == k.toInt) =
        t.rows.any fun r => r.key == k.toInt := by
      rw [RowClass.holding, List.any_map]
      rfl
    have hrows := RowClass.updateRow_holding (T := historyClass) (f := fun r => { r with nonRead := v })
      (g := fun r => r.set 2 (.int v.toInt)) (fun r => rfl) k.toInt t.rows
    refine hexec.trans ?_
    rw [hany]
    unfold HistoryTable.updateNonRead
    by_cases hv : 0 ≤ v.toInt ∧ v.toInt ≤ 1
    · rw [dif_pos hv, decide_eq_true hv, Bool.true_or, if_pos rfl]
      exact congrArg (stored db (historyName f) (historyClass.holding t.rows)) hrows
    · rw [dif_neg hv, decide_eq_false hv, Bool.false_or]
      cases hkey : t.rows.any fun r => r.key == k.toInt with
      | true => rfl
      | false =>
        -- no row has the key: nothing is rewritten
        have hsame : updateRow HistoryRow.key k.toInt (fun r => { r with nonRead := v }) t.rows = t.rows := by
          refine (List.map_congr_left fun r hr => ?_).trans t.rows.map_id'
          have hne : r.key ≠ k.toInt := by
            intro he
            have := List.any_eq_false.1 hkey r hr
            exact this (beq_iff_eq.2 he)
          rw [if_neg hne]
        refine congrArg (stored db (historyName f) (historyClass.holding t.rows)) (hrows.trans ?_)
        exact congrArg (fun rows => (historyClass.holding rows).rows) hsame
  · unfold HistoryTable.updateNonRead at hop
    split_ifs at hop
    · obtain rfl := Option.some.inj hop
      exact stored_update hstored fun r hr => stored_fields.2 (by simpa using stored_fields.1 hr)
    · obtain rfl := Option.some.inj hop
      exact hstored

/-! ## The selections -/

theorem sformat_selectHistory (f : Int64) : sformat (lit "SELECT * FROM history_{0};") [intText f.toInt] =
    .ok (lit "SELECT * FROM " ++ historyName f ++ lit ";") := by
  have hshape : lit "SELECT * FROM history_{0};" = template (lit "SELECT * FROM history_") [(0, lit ";")] := by
    decide +kernel
  have hpre : lit "SELECT * FROM history_" = lit "SELECT * FROM " ++ lit "history_" := by decide +kernel
  rw [hshape, sformat_template (by decide +kernel) (by simp; decide) (by decide), hpre]
  simp [filled, historyName]

theorem sformat_selectNonRead (f : Int64) :
    sformat (lit "SELECT * FROM history_{0} WHERE non_read = 1;") [intText f.toInt] =
      .ok (lit "SELECT * FROM " ++ historyName f ++ lit " WHERE " ++ lit "non_read" ++ lit " = " ++
        (Field.int 1).sqlText ++ lit ";") := by
  have hshape : lit "SELECT * FROM history_{0} WHERE non_read = 1;" =
      template (lit "SELECT * FROM history_") [(0, lit " WHERE non_read = 1;")] := by decide +kernel
  have hpre : lit "SELECT * FROM history_" = lit "SELECT * FROM " ++ lit "history_" := by decide +kernel
  have hpost : lit " WHERE non_read = 1;" =
      lit " WHERE " ++ lit "non_read" ++ lit " = " ++ (Field.int 1).sqlText ++ lit ";" := by decide +kernel
  rw [hshape, sformat_template (by decide +kernel) (by simp; decide) (by decide), hpre, hpost]
  simp [filled, historyName]

/-- **A selection from the table of a friend.** -/
theorem tables_select (ht : Tables db h) {text : Str} {p : HistoryRow → Bool}
    (hneg : f.toInt < 0 → Sql.exec db other text = failed db)
    (hnone : 0 ≤ f.toInt → db (historyName f) = none → Sql.exec db other text = failed db)
    (hsome : ∀ t : HistoryTable, 0 ≤ f.toInt → db (historyName f) = some (historyClass.holding t.rows) →
      Sql.exec db other text = ⟨true, db, (historyClass.holding (t.rows.filter p)).rows.map
        fun row => (historyClass.cols.map Prod.fst).zip row⟩) :
    selectRows other db readHistoryRow (.ok text) =
      .ok (selected ((h f).map fun t => t.rows.filter p)) := by
  have hfailed : Sql.exec db other text = failed db → h f = none →
      selectRows other db readHistoryRow (.ok text) =
        .ok (selected ((h f).map fun t => t.rows.filter p)) := by
    intro hexec hf
    simp only [selectRows, Except.map, hexec, failed, hf]
    rfl
  by_cases hf : 0 ≤ f.toInt
  · cases hft : h f with
    | none =>
      rw [← hft]
      exact hfailed (hnone hf (by rw [ht.tables f hf, hft, Option.map_none])) hft
    | some t =>
      have hdb : db (historyName f) = some (historyClass.holding t.rows) := by
        rw [ht.tables f hf, hft, Option.map_some]
      have hread : readRows readHistoryRow ((historyClass.holding (t.rows.filter p)).rows.map
          fun row => (historyClass.cols.map Prod.fst).zip row) = (true, t.rows.filter p) :=
        RowClass.readRows_holding (T := historyClass) fun r hr => ht.stored f t hft r (List.mem_of_mem_filter hr)
      simp only [selectRows, Except.map, hsome t hf hdb, if_true, hread]
      rfl
  · exact hfailed (hneg (not_le.1 hf)) (ht.signed f (not_le.1 hf))

/-- **`select_history`** reports the rows of the table. -/
theorem tables_selectHistory (hother : RefusesSigns other) (ht : Tables db h) :
    SimpleChat.selectHistory other db f = .ok (selected (h.selectHistory f)) := by
  have hall : ∀ t : HistoryTable, t.rows.filter (fun _ => true) = t.rows := fun t => List.filter_true t.rows
  rw [SimpleChat.selectHistory, sformat_selectHistory]
  refine (tables_select ht (p := fun _ => true) (fun hneg => ?_)
    (fun hf hdb => RowClass.exec_select_none (T := historyClass) hf hdb) (fun t hf hdb => ?_)).trans ?_
  · exact (exec_negative hother hneg _).2.2.2
  · rw [hall]
    exact RowClass.exec_select (T := historyClass) hf hdb
  · simp only [hall]
    rfl

/-- **`select_non_read`** reports the unread rows. -/
theorem tables_selectNonRead (hother : RefusesSigns other) (ht : Tables db h) :
    SimpleChat.selectNonRead other db f = .ok (selected (h.selectNonRead f)) := by
  have hcol : ColumnName (lit "non_read") := columnName_of_mem (by decide)
  rw [SimpleChat.selectNonRead, sformat_selectNonRead]
  refine tables_select ht (fun hneg => ?_)
    (fun hf hdb => RowClass.exec_selectWhere_none (T := historyClass) hf hcol trivial hdb)
    (fun t hf hdb => ?_)
  · simp only [List.append_assoc]
    rw [← List.append_assoc]
    exact (exec_negative hother hneg _).2.2.2
  · have hidx : colIdx (historyClass.holding t.rows) (lit "non_read") = some 2 := by
      show (historyCols.map Prod.fst).findIdx? (· == lit "non_read") = some 2
      decide +kernel
    have hexec : Sql.exec db other (lit "SELECT * FROM " ++ historyName f ++ lit " WHERE " ++
        lit "non_read" ++ lit " = " ++ (Field.int 1).sqlText ++ lit ";") = _ :=
      RowClass.exec_selectWhere (T := historyClass) (v := .int 1) hf hcol trivial hdb rfl hidx rfl
    have hunread : ∀ r : HistoryRow,
        ((historyClass.values r)[2]? == some (Field.int 1).value) = decide (r.nonRead = 1) := by
      intro r
      show (some (Value.int r.nonRead.toInt) == some (Value.int (1 : Int64).toInt)) = _
      rw [Bool.eq_iff_iff, beq_iff_eq, decide_eq_true_iff, Option.some.injEq, Value.int.injEq,
        Int64.toInt_inj]
    rw [RowClass.filter_holding (T := historyClass) hunread] at hexec
    exact hexec

end

/-! ## The members of `sqlite_history` -/

namespace SqliteFile

/-- `select_history`; without an open file it fails. -/
def selectHistory (other : Str → Database → Result) (acFriend : Int64) (s : SqliteFile) :
    Outcome (Bool × List HistoryRow) :=
  match s.path with
  | none => .ok (false, [])
  | some p => SimpleChat.selectHistory other (s.disk p) acFriend

/-- `select_non_read` -/
def selectNonRead (other : Str → Database → Result) (acFriend : Int64) (s : SqliteFile) :
    Outcome (Bool × List HistoryRow) :=
  match s.path with
  | none => .ok (false, [])
  | some p => SimpleChat.selectNonRead other (s.disk p) acFriend

/-- The members of `sqlite_history` that the reader calls. -/
def sqlReading (other : Str → Database → Result) : ReadingDb SqliteFile where
  selectHistory := selectHistory other
  selectNonRead := selectNonRead other
  updateNonRead acFriend sendTime nonRead := exec other (makeTable acFriend >>= fun table =>
    updateDb table (lit "send_time") (.int sendTime) (lit "non_read") (.int nonRead))

/-- The history of an account that has logged in: its file is open, and its tables hold
    the rows. -/
structure Holds (a : Int64) (s : SqliteFile) (h : Histories) : Prop where
  file : s.file = historyPath a
  path : s.path = some (historyPath a)
  tables : Tables (s.disk (historyPath a)) h

section
variable {a : Int64} {s : SqliteFile} {h h' : Histories} {b : Bool} {other : Str → Database → Result}
  {canOpen : Str → Bool}

/-- A statement on the open file. -/
theorem Holds.exec (hs : Holds a s h) {text : Str}
    (hexec : (Sql.exec (s.disk (historyPath a)) other text).ok = b ∧
      Tables (Sql.exec (s.disk (historyPath a)) other text).db h') :
    Alike (Both (Holds a)) (SqliteFile.exec other (.ok text) s) (.ok (b, h')) := by
  have hrun : SqliteFile.exec other (.ok text) s =
      .ok ((Sql.exec (s.disk (historyPath a)) other text).ok, { s with
        disk := Function.update s.disk (historyPath a) (Sql.exec (s.disk (historyPath a)) other text).db }) := by
    simp only [SqliteFile.exec, Except.map, hs.path]
  rw [hrun]
  refine .ok ⟨hexec.1, hs.file, hs.path, ?_⟩
  simp only [Function.update_self]
  exact hexec.2

/-- An insertion of texts that are data. -/
theorem insertHistory_alike (hother : RefusesSigns other) (f : Int64) {r : HistoryRow} (hr : r.IsData)
    (hs : Holds a s h) : Alike (Both (Holds a)) (exec other (insertHistorySql f r) s)
      (.ok (h.insertHistory f r)) := by
  rw [hr.sql]
  exact hs.exec (tables_insert hother hs.tables hr)

/-- **`sqlite_history` does what the tables of rows do**, for friends that are not
    negative and rows whose texts are data. -/
theorem sqlHistory_refines (hother : RefusesSigns other) (hcan : canOpen (historyPath a) = true) :
    (sqlHistory other canOpen).Refines rowHistory (Holds a) (fun f => 0 ≤ f.toInt) HistoryRow.IsData where
  openHistory account s h hs := by
    -- the template is gone: the path that was written over it is opened again
    have hnoFlg : NoFlg (historyPath a) := noFlg_path (by decide +kernel) a
    have hfile : sformat s.file [intText account.toInt] = .ok (historyPath a) := by
      rw [hs.file]
      exact sformat_noFlg hnoFlg _
    have hopen : openFile canOpen account s =
        .ok (true, ⟨historyPath a, some (historyPath a), s.disk⟩) := by
      rw [openFile_of_file hfile, hcan, if_pos rfl]
    show Alike _ (openFile canOpen account s) (.ok (true, h))
    rw [hopen]
    exact .ok ⟨rfl, rfl, rfl, hs.tables⟩
  createHistory {f} hf s h hs := by
    show Alike _ (exec other (createHistorySql f) s) (.ok (true, h.create f))
    rw [createHistorySql_eq]
    exact hs.exec (tables_create hs.tables hf)
  insertHistory f r hr s h hs := insertHistory_alike hother f hr hs
  updateFeedBack f k v s h hs := by
    show Alike _ (exec other (updateFeedBackSql f k v) s) (.ok (h.updateFeedBack f k v))
    rw [updateFeedBackSql_eq]
    exact hs.exec (tables_updateFeedBack hother hs.tables)

/-- And the members that the reader calls. -/
theorem sqlReading_refines (hother : RefusesSigns other) :
    (sqlReading other).Refines rowReading (Holds a) where
  selectHistory f s h hs := by
    have hselect : (sqlReading other).selectHistory f s =
        SimpleChat.selectHistory other (s.disk (historyPath a)) f := by
      simp only [sqlReading, SqliteFile.selectHistory, hs.path]
    exact hselect.trans (tables_selectHistory hother hs.tables)
  selectNonRead f s h hs := by
    have hselect : (sqlReading other).selectNonRead f s =
        SimpleChat.selectNonRead other (s.disk (historyPath a)) f := by
      simp only [sqlReading, SqliteFile.selectNonRead, hs.path]
    exact hselect.trans (tables_selectNonRead hother hs.tables)
  updateNonRead f k v s h hs := by
    have hcols : lbrace ∉ lit "send_time" ∧ lbrace ∉ lit "non_read" := by decide
    have hsql : (makeTable f >>= fun table => updateDb table (lit "send_time") (.int k)
        (lit "non_read") (.int v)) = .ok (updateNonReadText f k v) := by
      rw [makeTable_eq, ok_bind, updateDb_eq (lbrace_notMem_historyName f) hcols.1 hcols.2]
      rfl
    show Alike _ (exec other _ s) (.ok (h.onTable f fun t => t.updateNonRead k v))
    rw [hsql]
    exact hs.exec (tables_updateNonRead hother hs.tables)

/-! ## What is reported -/

/-- The rows that `select_history` reports. -/
def reportedRows (other : Str → Database → Result) (acFriend : Int64) (s : SqliteFile) : List HistoryRow :=
  match selectHistory other acFriend s with
  | .ok (true, rows) => rows
  | _ => []

/-- And their messages. -/
def reported (other : Str → Database → Result) (acFriend : Int64) (s : SqliteFile) : List CtMsgType :=
  (reportedRows other acFriend s).map HistoryRow.ct

namespace Holds

/-- What the selections report of tables that hold rows. -/
theorem selectHistory (hother : RefusesSigns other) (hs : Holds a s h) (f : Int64) :
    SqliteFile.selectHistory other f s = .ok (selected (h.selectHistory f)) :=
  (sqlReading_refines hother).selectHistory f hs

theorem selectNonRead (hother : RefusesSigns other) (hs : Holds a s h) (f : Int64) :
    SqliteFile.selectNonRead other f s = .ok (selected (h.selectNonRead f)) :=
  (sqlReading_refines hother).selectNonRead f hs

theorem reportedRows (hother : RefusesSigns other) (hs : Holds a s h) (f : Int64) :
    SqliteFile.reportedRows other f s = (h.table f).rows := by
  unfold SqliteFile.reportedRows
  rw [hs.selectHistory hother]
  unfold Histories.selectHistory Histories.table
  cases h f with
  | none => rfl
  | some t => rfl

theorem reported (hother : RefusesSigns other) (hs : Holds a s h) (f : Int64) :
    SqliteFile.reported other f s = (h.table f).messages :=
  congrArg (List.map HistoryRow.ct) (hs.reportedRows hother f)

end Holds

end

/-- The file of an account with an empty table for one friend. -/
def emptyFor (a f : Int64) : SqliteFile :=
  ⟨historyPath a, some (historyPath a), fun _ =>
    Function.update (fun _ => none) (historyName f) (some (historyClass.holding []))⟩

theorem holds_emptyFor {f : Int64} (a : Int64) (hf : 0 ≤ f.toInt) :
    Holds a (emptyFor a f) (Function.update (fun _ => none) f (some .empty)) :=
  ⟨rfl, rfl, tables_none.update hf stored_empty⟩

end SqliteFile

/-! ## Sessions -/

open SqliteFile

section
variable {ρ : Type} {J : JsonLib} {R : RecordDb ρ} {clock : ℕ → Int64} {a : Int64}
  {other : Str → Database → Result} {canOpen : Str → Bool}

/-- **A session over SQLite** sends the frames, signals what is signalled, shows the
    messages and ends as the session over the tables of rows: for texts that are data
    and friends that are not negative. -/
theorem session_refines (hother : RefusesSigns other) (hcan : canOpen (historyPath a) = true)
    {s : Session SqliteFile ρ} {t : Session Histories ρ} (h : Session.Related (Holds a) s t)
    {es : List SessionEvent}
    (htame : ∀ e ∈ es, e.Tame J (fun f => 0 ≤ f.toInt) HistoryRow.IsData) :
    Alike (Session.Related (Holds a))
      (Session.run J (sqlHistory other canOpen) (sqlReading other) R clock s es)
      (Session.run J rowHistory rowReading R clock t es) :=
  Session.run_alike (sqlHistory_refines hother hcan) (sqlReading_refines hother) h htame

end

open QwebClient

/-- The history of 1, who has not chatted with the friend 2 yet, as rows. -/
def noChats : Histories := Function.update (fun _ => none) 2 (some .empty)

theorem tables_noChats : Tables (chatting.dbh.disk (historyPath 1)) noChats :=
  tables_none.update (f := 2) (by decide) stored_empty

/-- 1 at row level. -/
def rowChatting : QwebClient Histories SqliteFile := ⟨noChats, chatting.dbr, [], []⟩

/-- A message of 2 arrives and the chat is read: it is shown. -/
theorem session_refines_hello : ∃ t s, setSwapMsg jsonText hello = .ok t ∧
    Session.run jsonText firstHistory (sqlReading noOther) firstRecord (fun _ => 9) ⟨chatting, []⟩
      [.received t, .read 2 false] = .ok s ∧
    s.shown = [(2, [⟨7, lit "Text", objectAL, lit "hello"⟩])] := by
  obtain ⟨t, hset⟩ := MsgType.exists_set jsonText .swapMsg hello (by decide)
  have hroute : route jsonText t = .ok (some .swapMsg) := (route_set hset).trans (by decide +kernel)
  have htame : ∀ e ∈ [SessionEvent.received t, .read 2 false],
      e.Tame jsonText (fun f => 0 ≤ f.toInt) HistoryRow.IsData := by
    intro e he
    rcases List.mem_cons.1 he with rfl | he
    · intro l hl
      rw [leaves_of_task hroute (by decide), List.mem_singleton] at hl
      subst hl
      intro m hm
      obtain rfl := Option.some.inj (Except.ok.inj ((MsgType.get_set jsonText hset).symm.trans hm))
      exact isData_hello
    · rw [List.mem_singleton.1 he]
      trivial
  obtain ⟨back, -, hswap⟩ := swapMsg_row jsonText (fun _ => 9) hello rowChatting
  have hrows : Session.run jsonText rowHistory rowReading firstRecord (fun _ => 9)
      ⟨rowChatting, []⟩ [.received t, .read 2 false] =
        .ok ⟨⟨((noChats.insertHistory 2 hello.row).2.readHistory 2).2, chatting.dbr, [back], [.recvMsg hello]⟩,
          [(2, ((noChats.insertHistory 2 hello.row).2.readHistory 2).1)]⟩ := by
    simp only [Session.run, List.foldlM_cons, List.foldlM_nil, Session.step, slMessage_swapMsg hset,
      hswap, Except.map, ok_bind, Bool.false_eq_true, if_false, readHistory_rows]
    rfl
  have hstart : Session.Related (Holds 1) ⟨chatting, []⟩ ⟨rowChatting, []⟩ :=
    ⟨⟨⟨rfl, rfl, tables_noChats⟩, rfl, rfl, rfl⟩, rfl⟩
  have halike : Alike (Session.Related (Holds 1))
      (Session.run jsonText firstHistory (sqlReading noOther) firstRecord (fun _ => 9) ⟨chatting, []⟩
        [.received t, .read 2 false])
      (Session.run jsonText rowHistory rowReading firstRecord (fun _ => 9) ⟨rowChatting, []⟩
        [.received t, .read 2 false]) :=
    session_refines refusesSigns_noOther rfl hstart htame
  rw [hrows] at halike
  obtain ⟨s, hs, hrelated⟩ := halike.exists_ok
  have hread : ((noChats.insertHistory 2 hello.row).2.readHistory 2).1 =
      [⟨7, lit "Text", objectAL, lit "hello"⟩] := by decide +kernel
  refine ⟨t, s, hset, hs, ?_⟩
  rw [hrelated.shown, hread]

end SimpleChat
