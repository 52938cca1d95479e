/-
  The chat history at row level: what the statements of `sqlite_history` do when
  they have their documented effect.

  * `HistoryTable`: the table of one friend.  `send_time` is the primary key, and
    `non_read` is 0 or 1 (its `CHECK`): an insertion or an update that breaks
    this is refused;
  * `Histories`: the tables by friend, with the members of `sqlite_history`;
  * `readHistory`, `readHistoryNonRead`: the members of `sqlite_read_history`;
  * `Later`: rows are only added, their texts never change and what is marked as
    read stays so.  Every member keeps this.
-/
import SimpleChat.SqliteOp

namespace SimpleChat

open Lib

/-- `ct_msg_type` -/
structure CtMsgType where
  time : Int64
  types : Str
  object : Str
  content : Str
  deriving DecidableEq

/-- `_object_AL_` and `_object_AR_`: messages of the friend and of the user. -/
def objectAL : Str := lit "AL"
def objectAR : Str := lit "AR"

namespace HistoryRow

/-- The primary key. -/
def key (r : HistoryRow) : ℤ := r.sendTime.toInt

/-- `CHECK (non_read >= 0 AND non_read <= 1)` -/
def Checked (r : HistoryRow) : Prop := 0 ≤ r.nonRead.toInt ∧ r.nonRead.toInt ≤ 1

instance (r : HistoryRow) : Decidable r.Checked := inferInstanceAs (Decidable (_ ∧ _))

/-- The message that a read makes of a row. -/
def ct (r : HistoryRow) : CtMsgType := ⟨r.sendTime, r.types, r.object, r.content⟩

/-- The row once it is marked as read. -/
def marked (r : HistoryRow) : HistoryRow := { r with nonRead := 0 }

@[simp] theorem marked_ct (r : HistoryRow) : r.marked.ct = r.ct := rfl
@[simp] theorem marked_nonRead (r : HistoryRow) : r.marked.nonRead = 0 := rfl
@[simp] theorem marked_sendTime (r : HistoryRow) : r.marked.sendTime = r.sendTime := rfl
@[simp] theorem marked_object (r : HistoryRow) : r.marked.object = r.object := rfl
@[simp] theorem marked_marked (r : HistoryRow) : r.marked.marked = r.marked := rfl

theorem key_inj {r r' : HistoryRow} : r.key = r'.key ↔ r.sendTime = r'.sendTime :=
  Int64.toInt_inj

theorem Checked.zero_or_one {r : HistoryRow} (h : r.Checked) : r.nonRead = 0 ∨ r.nonRead = 1 := by
  obtain ⟨h0, h1⟩ := h
  rcases (by omega : r.nonRead.toInt = 0 ∨ r.nonRead.toInt = 1) with h | h
  · exact Or.inl (Int64.toInt_inj.1 h)
  · exact Or.inr (Int64.toInt_inj.1 h)

end HistoryRow

/-- The rows that `task_swap_msg` and `ask_swap_msg` insert. -/
def incomingRow (timeTo : Int64) (type content : Str) : HistoryRow :=
  ⟨timeTo, timeTo, 1, type, objectAL, content⟩
def outgoingRow (timeTo : Int64) (types content : Str) : HistoryRow :=
  ⟨timeTo, 0, 0, types, objectAR, content⟩

theorem incomingRow_checked (timeTo : Int64) (type content : Str) :
    (incomingRow timeTo type content).Checked := by constructor <;> simp [incomingRow]

theorem outgoingRow_checked (timeTo : Int64) (types content : Str) :
    (outgoingRow timeTo types content).Checked := by constructor <;> simp [outgoingRow]

/-! ## One table -/

/-- The table of a friend. -/
@[ext]
structure HistoryTable where
  rows : List HistoryRow
  keyed : Keyed HistoryRow.key rows
  checked : ∀ r ∈ rows, r.Checked

namespace HistoryTable

def empty : HistoryTable := ⟨[], List.Pairwise.nil, by simp⟩

/-- The messages of the table. -/
def messages (t : HistoryTable) : List CtMsgType := t.rows.map HistoryRow.ct

/-- `INSERT` -/
def insert (t : HistoryTable) (r : HistoryRow) : Option HistoryTable :=
  if h : (∀ x ∈ t.rows, x.key ≠ r.key) ∧ r.Checked then
    some ⟨insertRow HistoryRow.key r t.rows, keyed_addRow t.keyed (addRow_eq_some.2 ⟨h.1, rfl⟩), by
      intro x hx
      rcases mem_insertRow.1 hx with rfl | hx
      · exact h.2
      · exact t.checked x hx⟩
  else none

/-- `UPDATE .. WHERE send_time = k`, for an update that keeps the key and the check. -/
def update (t : HistoryTable) (k : Int64) (f : HistoryRow → HistoryRow)
    (hkey : ∀ r, (f r).sendTime = r.sendTime) (hcheck : ∀ r, r.Checked → (f r).Checked) :
    HistoryTable :=
  ⟨updateRow HistoryRow.key k.toInt f t.rows,
    keyed_updateRow (fun r => HistoryRow.key_inj.2 (hkey r)) t.keyed, by
      intro x hx
      rcases mem_updateRow.1 hx with ⟨r, hr, -, rfl⟩ | ⟨hx, -⟩
      · exact hcheck r (t.checked r hr)
      · exact t.checked x hx⟩

/-- `UPDATE .. SET feed_back = v` -/
def updateFeedBack (t : HistoryTable) (k v : Int64) : HistoryTable :=
  t.update k (fun r => { r with feedBack := v }) (fun _ => rfl) fun _ h => h

/-- `UPDATE .. SET non_read = 0` -/
def markRead (t : HistoryTable) (k : Int64) : HistoryTable :=
  t.update k HistoryRow.marked (fun _ => rfl) fun _ _ => by
    constructor <;> simp

variable {t t' : HistoryTable}

theorem row_inj (t : HistoryTable) {x y : HistoryRow} (hx : x ∈ t.rows) (hy : y ∈ t.rows)
    (h : x.sendTime = y.sendTime) : x = y :=
  keyed_inj t.keyed hx hy (HistoryRow.key_inj.2 h)

theorem zero_or_one {r : HistoryRow} (hr : r ∈ t.rows) : r.nonRead = 0 ∨ r.nonRead = 1 :=
  (t.checked r hr).zero_or_one

@[simp] theorem rows_empty : empty.rows = [] := rfl

theorem insert_eq_some {r : HistoryRow} :
    t.insert r = some t' ↔
      (∀ x ∈ t.rows, x.sendTime ≠ r.sendTime) ∧ r.Checked ∧
        t'.rows = insertRow HistoryRow.key r t.rows := by
  have hkey : (∀ x ∈ t.rows, x.key ≠ r.key) ↔ ∀ x ∈ t.rows, x.sendTime ≠ r.sendTime :=
    forall₂_congr fun x _ => not_congr HistoryRow.key_inj
  unfold insert
  rw [← hkey]
  split_ifs with h
  · rw [Option.some.injEq, HistoryTable.ext_iff]
    exact ⟨fun he => ⟨h.1, h.2, he.symm⟩, fun he => he.2.2.symm⟩
  · exact ⟨fun he => absurd he (by simp), fun he => absurd ⟨he.1, he.2.1⟩ h⟩

theorem insert_eq_none {r : HistoryRow} (hr : r.Checked) :
    t.insert r = none ↔ ∃ x ∈ t.rows, x.sendTime = r.sendTime := by
  unfold insert
  split_ifs with h
  · refine ⟨fun he => absurd he (by simp), ?_⟩
    rintro ⟨x, hx, he⟩
    exact absurd (HistoryRow.key_inj.2 he) (h.1 x hx)
  · refine ⟨fun _ => ?_, fun _ => rfl⟩
    by_contra hne
    exact h ⟨fun x hx he => hne ⟨x, hx, HistoryRow.key_inj.1 he⟩, hr⟩

theorem mem_insert {r x : HistoryRow} (h : t.insert r = some t') :
    x ∈ t'.rows ↔ x = r ∨ x ∈ t.rows := by
  rw [(insert_eq_some.1 h).2.2, mem_insertRow]

section
variable {k : Int64} {f : HistoryRow → HistoryRow} {hkey : ∀ r, (f r).sendTime = r.sendTime}
  {hcheck : ∀ r, r.Checked → (f r).Checked}

theorem mem_update {y : HistoryRow} :
    y ∈ (t.update k f hkey hcheck).rows ↔
      (∃ x ∈ t.rows, x.sendTime = k ∧ f x = y) ∨ (y ∈ t.rows ∧ y.sendTime ≠ k) := by
  simp only [update, mem_updateRow, HistoryRow.key, Int64.toInt_inj, ne_eq]

/-- An update of other columns keeps the messages. -/
theorem messages_update (hct : ∀ r, (f r).ct = r.ct) :
    (t.update k f hkey hcheck).messages = t.messages := by
  simp only [messages, update, updateRow, List.map_map]
  refine List.map_congr_left fun r _ => ?_
  simp only [Function.comp]
  split_ifs
  · exact hct r
  · rfl

end

@[simp] theorem messages_updateFeedBack {k v : Int64} :
    (t.updateFeedBack k v).messages = t.messages := messages_update fun _ => rfl

@[simp] theorem messages_markRead {k : Int64} : (t.markRead k).messages = t.messages :=
  messages_update fun _ => rfl

theorem mem_messages_insert {r : HistoryRow} {c : CtMsgType} (h : t.insert r = some t') :
    c ∈ t'.messages ↔ c = r.ct ∨ c ∈ t.messages := by
  simp only [messages, List.mem_map]
  constructor
  · rintro ⟨x, hx, rfl⟩
    rcases (mem_insert h).1 hx with rfl | hx
    · exact Or.inl rfl
    · exact Or.inr ⟨x, hx, rfl⟩
  · rintro (rfl | ⟨x, hx, rfl⟩)
    · exact ⟨r, (mem_insert h).2 (Or.inl rfl), rfl⟩
    · exact ⟨x, (mem_insert h).2 (Or.inr hx), rfl⟩

/-- Mark the rows of some times as read. -/
def markAll (t : HistoryTable) (ks : List Int64) : HistoryTable := ks.foldl markRead t

/-- The rows that are not marked as read. -/
def unread (t : HistoryTable) : List HistoryRow := t.rows.filter fun r => r.nonRead = 1

/-- The sum of the marks counts the unread rows. -/
theorem sum_nonRead (t : HistoryTable) :
    (t.rows.map fun r => r.nonRead.toInt).sum = t.unread.length := by
  have hsum : ∀ rows : List HistoryRow, (∀ r ∈ rows, r.nonRead = 0 ∨ r.nonRead = 1) →
      (rows.map fun r => r.nonRead.toInt).sum = (rows.filter fun r => r.nonRead = 1).length := by
    intro rows
    induction rows with
    | nil => intro _; rfl
    | cons r rows ih =>
      intro hall
      have hrest := ih fun x hx => hall x (List.mem_cons_of_mem r hx)
      rw [List.map_cons, List.sum_cons, hrest]
      rcases hall r List.mem_cons_self with h | h
      · simp [h]
      · simp [h, add_comm]
  exact hsum t.rows fun _ hr => zero_or_one hr

/-- The messages that are marked as read. -/
def readMessages (t : HistoryTable) : List CtMsgType :=
  (t.rows.filter fun r => r.nonRead = 0).map HistoryRow.ct

/-- A table holds what is read and what is unread. -/
theorem messages_perm (t : HistoryTable) :
    t.messages.Perm (t.readMessages ++ t.unread.map HistoryRow.ct) := by
  have hunread : t.unread = t.rows.filter fun r => !decide (r.nonRead = 0) := by
    refine List.filter_congr fun r hr => ?_
    rcases zero_or_one hr with h | h <;> simp [h]
  rw [readMessages, hunread, ← List.map_append]
  exact ((List.filter_append_perm _ t.rows).map _).symm

theorem readMessages_of_unread_nil (h : t.unread = []) : t.messages.Perm t.readMessages := by
  simpa [h] using t.messages_perm

@[simp] theorem messages_markAll {ks : List Int64} : (t.markAll ks).messages = t.messages := by
  induction ks generalizing t with
  | nil => rfl
  | cons k ks ih => exact ih.trans messages_markRead

theorem rows_markRead {k : Int64} :
    (t.markRead k).rows = t.rows.map fun r => if r.sendTime = k then r.marked else r := by
  simp only [markRead, update, updateRow, HistoryRow.key, Int64.toInt_inj]

theorem rows_markAll {ks : List Int64} :
    (t.markAll ks).rows = t.rows.map fun r => if r.sendTime ∈ ks then r.marked else r := by
  induction ks generalizing t with
  | nil => simp [markAll]
  | cons k ks ih =>
    rw [markAll, List.foldl_cons, ← markAll, ih, rows_markRead, List.map_map]
    refine List.map_congr_left fun r _ => ?_
    by_cases hk : r.sendTime = k
    · simp [hk]
    · simp [hk]

/-- Nothing is unread once all unread rows are marked. -/
theorem unread_markAll {ks : List Int64} (h : ∀ r ∈ t.unread, r.sendTime ∈ ks) :
    (t.markAll ks).unread = [] := by
  refine List.filter_eq_nil_iff.2 fun r hr => ?_
  rw [rows_markAll] at hr
  obtain ⟨x, hx, rfl⟩ := List.mem_map.1 hr
  split_ifs with hk
  · simp
  · simpa using fun h1 => hk (h x (List.mem_filter.2 ⟨hx, by simpa using h1⟩))

/-- The messages are in increasing time order. -/
theorem messages_sorted (t : HistoryTable) :
    t.messages.Pairwise fun x y => x.time.toInt < y.time.toInt :=
  List.pairwise_map.2 t.keyed

theorem message_inj (t : HistoryTable) {x y : CtMsgType} (hx : x ∈ t.messages)
    (hy : y ∈ t.messages) (h : x.time = y.time) : x = y := by
  obtain ⟨r, hr, rfl⟩ := List.mem_map.1 hx
  obtain ⟨r', hr', rfl⟩ := List.mem_map.1 hy
  rw [t.row_inj hr hr' h]

end HistoryTable

/-! ## The tables of all friends -/

/-- The history database: the tables that were created. -/
abbrev Histories := Int64 → Option HistoryTable

namespace Histories

section
variable (h : Histories) (acFriend : Int64)

/-- `create_history` -/
def create : Histories :=
  Function.update h acFriend (some ((h acFriend).getD HistoryTable.empty))

/-- A statement on the table of a friend: it fails if there is no such table, or
    if it is refused there. -/
def onTable (f : HistoryTable → Option HistoryTable) : Bool × Histories :=
  match (h acFriend).bind f with
  | some t => (true, Function.update h acFriend (some t))
  | none => (false, h)

/-- `insert_history` -/
def insertHistory (tup : HistoryRow) : Bool × Histories := h.onTable acFriend fun t => t.insert tup

/-- `update_non_read` with 0 -/
def markRead (sendTime : Int64) : Bool × Histories :=
  h.onTable acFriend fun t => some (t.markRead sendTime)

/-- `update_feed_back` -/
def updateFeedBack (sendTime feedBack : Int64) : Bool × Histories :=
  h.onTable acFriend fun t => some (t.updateFeedBack sendTime feedBack)

/-- `select_history`; it fails if there is no table. -/
def selectHistory : Option (List HistoryRow) := (h acFriend).map HistoryTable.rows

/-- `select_non_read` -/
def selectNonRead : Option (List HistoryRow) :=
  (h acFriend).map fun t => t.rows.filter fun r => r.nonRead = 1

/-- `count_non_read`: the sum, as `sqlite3_column_int` gives it. -/
def countNonRead : Int32 :=
  match h acFriend with
  | some t => Int32.ofInt (t.rows.map fun r => r.nonRead.toInt).sum
  | none => -1

/-- The table of a friend; one that was not created has no rows. -/
def table : HistoryTable := (h acFriend).getD HistoryTable.empty

/-- The loop of the two reads, over the rows that were selected. -/
def readLoop (rows : List HistoryRow) : List CtMsgType × Histories :=
  (rows.map HistoryRow.ct, rows.foldl (fun h r => (h.markRead acFriend r.sendTime).2) h)

/-- `read_history` -/
def readHistory : List CtMsgType × Histories :=
  match h.selectHistory acFriend with
  | some rows => h.readLoop acFriend rows
  | none => ([], h)

/-- `read_history_non_read` -/
def readHistoryNonRead : List CtMsgType × Histories :=
  match h.selectNonRead acFriend with
  | some rows => h.readLoop acFriend rows
  | none => ([], h)

end

variable {h : Histories} {f g : Int64} {t : HistoryTable}

theorem table_of_some (hf : h f = some t) : h.table f = t := by simp [table, hf]

theorem table_of_none (hf : h f = none) : h.table f = HistoryTable.empty := by simp [table, hf]

theorem create_self : h.create f f = some ((h f).getD HistoryTable.empty) := by simp [create]

theorem create_of_ne (hne : g ≠ f) : h.create f g = h g := by simp [create, hne]

section
variable {op : HistoryTable → Option HistoryTable}

theorem onTable_of_ne (hne : g ≠ f) : (h.onTable f op).2 g = h g := by
  unfold onTable
  split
  · exact Function.update_of_ne hne _ _
  · rfl

theorem onTable_none (hf : h f = none) : h.onTable f op = (false, h) := by simp [onTable, hf]

/-- What a statement does to the table of its friend. -/
theorem onTable_self (hf : h f = some t) :
    (h.onTable f op).1 = (op t).isSome ∧ (h.onTable f op).2 f = some ((op t).getD t) := by
  unfold onTable
  cases ho : op t with
  | none => simp [hf, ho]
  | some t' => simp [hf, ho]

end

/-- An insertion leaves the table as it was, or adds the row to it. -/
theorem table_insertHistory (h : Histories) (f : Int64) (tup : HistoryRow) :
    (h.insertHistory f tup).2.table f = h.table f ∨
      (h.table f).insert tup = some ((h.insertHistory f tup).2.table f) := by
  cases hf : h f with
  | none => exact Or.inl (by rw [insertHistory, onTable_none hf])
  | some t =>
    rw [table_of_some hf, insertHistory, table_of_some (onTable_self hf).2]
    cases ht : t.insert tup with
    | none => exact Or.inl rfl
    | some t' => exact Or.inr rfl

/-- It does add the row if there is a table, and the key is free. -/
theorem table_insertHistory_of_free {tup : HistoryRow} (hf : h f ≠ none) (hc : tup.Checked)
    (hfree : ∀ r ∈ (h.table f).rows, r.sendTime ≠ tup.sendTime) :
    (h.table f).insert tup = some ((h.insertHistory f tup).2.table f) := by
  obtain ⟨t, hf⟩ := Option.ne_none_iff_exists'.1 hf
  rw [table_of_some hf] at hfree ⊢
  rw [insertHistory, table_of_some (onTable_self hf).2]
  cases ht : t.insert tup with
  | some t' => rfl
  | none =>
    obtain ⟨r, hr, he⟩ := (HistoryTable.insert_eq_none hc).1 ht
    exact absurd he (hfree r hr)

/-- **What an insertion stores.** -/
theorem mem_messages_insertHistory {tup : HistoryRow} (hc : tup.Checked) {c : CtMsgType} :
    c ∈ ((h.insertHistory f tup).2.table f).messages ↔
      c ∈ (h.table f).messages ∨
        (c = tup.ct ∧ h f ≠ none ∧ ∀ x ∈ (h.table f).messages, x.time ≠ tup.sendTime) := by
  have hfree : (∀ x ∈ (h.table f).messages, x.time ≠ tup.sendTime) ↔
      ∀ r ∈ (h.table f).rows, r.sendTime ≠ tup.sendTime := by
    simp only [HistoryTable.messages, List.forall_mem_map]
    rfl
  by_cases hcond : h f ≠ none ∧ ∀ x ∈ (h.table f).messages, x.time ≠ tup.sendTime
  · have hins := table_insertHistory_of_free hcond.1 hc (hfree.1 hcond.2)
    rw [HistoryTable.mem_messages_insert hins]
    tauto
  · have hsame : (h.insertHistory f tup).2.table f = h.table f := by
      rcases table_insertHistory h f tup with heq | hins
      · exact heq
      · refine absurd ⟨fun hf => ?_, hfree.2 (HistoryTable.insert_eq_some.1 hins).1⟩ hcond
        obtain ⟨-, -, hrows⟩ := HistoryTable.insert_eq_some.1 hins
        rw [insertHistory, onTable_none hf, table_of_none hf] at hrows
        exact absurd hrows (by simp [insertRow])
    rw [hsame]
    tauto

theorem insertHistory_none_iff {tup : HistoryRow} (g : Int64) :
    (h.insertHistory f tup).2 g = none ↔ h g = none := by
  by_cases hg : g = f
  · subst hg
    cases hf : h g with
    | none => simp [insertHistory, onTable_none hf, hf]
    | some t => simp [insertHistory, (onTable_self hf).2]
  · rw [insertHistory, onTable_of_ne hg]

/-- The loop of a read marks the selected rows. -/
theorem foldl_markRead (hf : h f = some t) (rows : List HistoryRow) :
    rows.foldl (fun h r => (h.markRead f r.sendTime).2) h =
      Function.update h f (some (t.markAll (rows.map HistoryRow.sendTime))) := by
  induction rows generalizing h t with
  | nil => simp [HistoryTable.markAll, ← hf]
  | cons r rows ih =>
    have hstep : (h.markRead f r.sendTime).2 = Function.update h f (some (t.markRead r.sendTime)) := by
      simp [markRead, onTable, hf]
    rw [List.foldl_cons, hstep, ih (Function.update_self ..), Function.update_idem]
    rfl

theorem readHistory_eq (hf : h f = some t) :
    h.readHistory f =
      (t.messages, Function.update h f (some (t.markAll (t.rows.map HistoryRow.sendTime)))) := by
  simp only [readHistory, selectHistory, hf, Option.map_some, readLoop, foldl_markRead hf]
  rfl

theorem readHistoryNonRead_eq (hf : h f = some t) :
    h.readHistoryNonRead f =
      (t.unread.map HistoryRow.ct,
        Function.update h f (some (t.markAll (t.unread.map HistoryRow.sendTime)))) := by
  simp only [readHistoryNonRead, selectNonRead, hf, Option.map_some, readLoop, foldl_markRead hf]
  rfl

theorem readHistory_none (hf : h f = none) : h.readHistory f = ([], h) := by
  simp [readHistory, selectHistory, hf]

theorem readHistoryNonRead_none (hf : h f = none) : h.readHistoryNonRead f = ([], h) := by
  simp [readHistoryNonRead, selectNonRead, hf]

/-- **What a read does.**  Afterwards nothing of the friend is unread. -/
theorem read_spec (isNonRead : Bool) {r : List CtMsgType × Histories}
    (hr : r = if isNonRead then h.readHistoryNonRead f else h.readHistory f) :
    r.1 = (if isNonRead then (h.table f).unread.map HistoryRow.ct else (h.table f).messages) ∧
      (∀ g, g ≠ f → r.2 g = h g) ∧ (r.2.table f).unread = [] ∧
      (r.2.table f).messages = (h.table f).messages := by
  cases hf : h f with
  | none =>
    rw [readHistoryNonRead_none hf, readHistory_none hf, ite_self] at hr
    subst hr
    rw [table_of_none hf, show HistoryTable.empty.unread = [] from rfl]
    exact ⟨by cases isNonRead <;> rfl, fun _ _ => rfl, rfl, rfl⟩
  | some t =>
    rw [readHistoryNonRead_eq hf, readHistory_eq hf] at hr
    rw [table_of_some hf]
    have hmark : ∀ g, g ≠ f → ∀ t', Function.update h f (some t') g = h g :=
      fun g hg t' => Function.update_of_ne hg _ _
    cases isNonRead <;> simp only [Bool.false_eq_true, if_false, if_true] at hr ⊢ <;> subst hr
    · refine ⟨rfl, fun g hg => hmark g hg _, ?_, ?_⟩
      · rw [table_of_some (Function.update_self ..)]
        exact HistoryTable.unread_markAll fun r hr => List.mem_map_of_mem (List.mem_filter.1 hr).1
      · rw [table_of_some (Function.update_self ..), HistoryTable.messages_markAll]
    · refine ⟨rfl, fun g hg => hmark g hg _, ?_, ?_⟩
      · rw [table_of_some (Function.update_self ..)]
        exact HistoryTable.unread_markAll fun r hr => List.mem_map_of_mem hr
      · rw [table_of_some (Function.update_self ..), HistoryTable.messages_markAll]

end Histories

/-! ## What never changes -/

/-- Rows are only added, their texts never change, and what is marked as read
    stays so. -/
def HistoryTable.Later (t t' : HistoryTable) : Prop :=
  ∀ r ∈ t.rows, ∃ r' ∈ t'.rows, r'.ct = r.ct ∧ (r.nonRead = 0 → r'.nonRead = 0)

def Histories.Later (h h' : Histories) : Prop :=
  ∀ f t, h f = some t → ∃ t', h' f = some t' ∧ t.Later t'

namespace HistoryTable

variable {t t' : HistoryTable}

theorem Later.refl (t : HistoryTable) : t.Later t := fun r hr => ⟨r, hr, rfl, id⟩

theorem Later.trans {t'' : HistoryTable} (h : t.Later t') (h' : t'.Later t'') : t.Later t'' := by
  intro r hr
  obtain ⟨r', hr', hct, h0⟩ := h r hr
  obtain ⟨r'', hr'', hct', h0'⟩ := h' r' hr'
  exact ⟨r'', hr'', hct'.trans hct, h0' ∘ h0⟩

theorem later_insert {r : HistoryRow} (h : t.insert r = some t') : t.Later t' :=
  fun x hx => ⟨x, (mem_insert h).2 (Or.inr hx), rfl, id⟩

theorem later_update {k : Int64} {f : HistoryRow → HistoryRow}
    {hkey : ∀ r, (f r).sendTime = r.sendTime} {hcheck : ∀ r, r.Checked → (f r).Checked}
    (hct : ∀ r, (f r).ct = r.ct) (h0 : ∀ r, r.nonRead = 0 → (f r).nonRead = 0) :
    t.Later (t.update k f hkey hcheck) := by
  intro r hr
  by_cases hk : r.sendTime = k
  · exact ⟨f r, mem_update.2 (Or.inl ⟨r, hr, hk, rfl⟩), hct r, h0 r⟩
  · exact ⟨r, mem_update.2 (Or.inr ⟨hr, hk⟩), rfl, id⟩

theorem later_updateFeedBack {k v : Int64} : t.Later (t.updateFeedBack k v) :=
  later_update (fun _ => rfl) fun _ h => h

theorem later_markRead {k : Int64} : t.Later (t.markRead k) :=
  later_update (fun _ => rfl) fun _ _ => rfl

theorem Later.mem_messages (h : t.Later t') {c : CtMsgType} (hc : c ∈ t.messages) :
    c ∈ t'.messages := by
  obtain ⟨r, hr, rfl⟩ := List.mem_map.1 hc
  obtain ⟨r', hr', hct, -⟩ := h r hr
  exact List.mem_map.2 ⟨r', hr', hct⟩

end HistoryTable

namespace Histories

variable {h h' : Histories}

theorem Later.refl (h : Histories) : h.Later h := fun _ t ht => ⟨t, ht, .refl t⟩

theorem Later.trans {h'' : Histories} (hl : h.Later h') (hl' : h'.Later h'') : h.Later h'' := by
  intro f t ht
  obtain ⟨t', ht', hl⟩ := hl f t ht
  obtain ⟨t'', ht'', hl'⟩ := hl' f t' ht'
  exact ⟨t'', ht'', hl.trans hl'⟩

/-- A statement that keeps what a table holds keeps what they all hold. -/
theorem later_onTable {op : HistoryTable → Option HistoryTable}
    (hop : ∀ t t', op t = some t' → t.Later t') (h : Histories) (f : Int64) :
    h.Later (h.onTable f op).2 := by
  intro g t ht
  by_cases hg : g = f
  · subst hg
    refine ⟨_, (onTable_self ht).2, ?_⟩
    cases ho : op t with
    | none => exact .refl t
    | some t' => exact hop t t' ho
  · exact ⟨t, by rw [onTable_of_ne hg, ht], .refl t⟩

/-- A message that was stored is in every later history. -/
theorem Later.mem_of_insertHistory {f : Int64} {tup : HistoryRow} {h₀ : Histories}
    (hins : h₀.insertHistory f tup = (true, h)) (hl : h.Later h') :
    ∃ t, h' f = some t ∧ tup.ct ∈ t.messages := by
  obtain ⟨t, ht, hmem⟩ : ∃ t, h f = some t ∧ tup.ct ∈ t.messages := by
    cases hf : h₀ f with
    | none =>
      rw [insertHistory, onTable_none hf] at hins
      exact absurd (congrArg Prod.fst hins) (by simp)
    | some t₀ =>
      obtain ⟨hok, htable⟩ := @onTable_self h₀ f t₀ (fun t => t.insert tup) hf
      rw [← insertHistory, hins] at hok htable
      obtain ⟨t, ht⟩ := Option.isSome_iff_exists.1 hok.symm
      rw [ht] at htable
      exact ⟨t, htable, (HistoryTable.mem_messages_insert ht).2 (Or.inl rfl)⟩
  obtain ⟨t', ht', hlt⟩ := hl f t ht
  exact ⟨t', ht', hlt.mem_messages hmem⟩

theorem later_insertHistory (h : Histories) (f : Int64) (tup : HistoryRow) :
    h.Later (h.insertHistory f tup).2 :=
  later_onTable (fun _ _ => HistoryTable.later_insert) h f

theorem later_markRead (h : Histories) (f k : Int64) : h.Later (h.markRead f k).2 :=
  later_onTable (fun _ _ ho => Option.some.inj ho ▸ HistoryTable.later_markRead) h f

theorem later_updateFeedBack (h : Histories) (f k v : Int64) :
    h.Later (h.updateFeedBack f k v).2 :=
  later_onTable (fun _ _ ho => Option.some.inj ho ▸ HistoryTable.later_updateFeedBack) h f

end Histories

end SimpleChat
