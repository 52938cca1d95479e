/-
  Tables whose rows are told apart by a key.

  A table is the list of its rows in increasing order of `key` (`Keyed`), the
  order in which a scan of a table with an integer primary key returns them.
  `addRow` refuses a row whose key is taken; `updateRow k f` rewrites the row
  with key `k`.
-/
import Mathlib

namespace Lib

variable {ρ : Type} (key : ρ → ℤ)

/-- The rows are in strictly increasing key order. -/
def Keyed (rows : List ρ) : Prop := rows.Pairwise fun x y => key x < key y

/-- Insert a row at its place in the key order. -/
def insertRow (r : ρ) (rows : List ρ) : List ρ := rows.orderedInsert (fun x y => key x ≤ key y) r

/-- Insert a row, unless its key is taken. -/
def addRow (r : ρ) (rows : List ρ) : Option (List ρ) :=
  if rows.any fun x => key x == key r then none else some (insertRow key r rows)

/-- Rewrite the row with key `k`. -/
def updateRow (k : ℤ) (f : ρ → ρ) (rows : List ρ) : List ρ :=
  rows.map fun x => if key x = k then f x else x

variable {key}

theorem addRow_eq_none {r : ρ} {rows : List ρ} :
    addRow key r rows = none ↔ ∃ x ∈ rows, key x = key r := by
  simp [addRow]

theorem addRow_eq_some {r : ρ} {rows rows' : List ρ} :
    addRow key r rows = some rows' ↔
      (∀ x ∈ rows, key x ≠ key r) ∧ rows' = insertRow key r rows := by
  unfold addRow
  split_ifs with h
  · obtain ⟨x, hx, he⟩ := List.any_eq_true.1 h
    exact ⟨fun h' => absurd h' (by simp), fun hne => absurd (by simpa using he) (hne.1 x hx)⟩
  · have hne : ∀ x ∈ rows, key x ≠ key r := by simpa using h
    exact ⟨fun h' => ⟨hne, (Option.some.inj h').symm⟩, fun h' => by rw [h'.2]⟩

theorem mem_insertRow {r x : ρ} {rows : List ρ} :
    x ∈ insertRow key r rows ↔ x = r ∨ x ∈ rows := List.mem_orderedInsert _

theorem mem_addRow {r x : ρ} {rows rows' : List ρ} (h : addRow key r rows = some rows') :
    x ∈ rows' ↔ x = r ∨ x ∈ rows := by
  rw [(addRow_eq_some.1 h).2, mem_insertRow]

theorem keyed_addRow {r : ρ} {rows rows' : List ρ} (hk : Keyed key rows)
    (h : addRow key r rows = some rows') : Keyed key rows' := by
  obtain ⟨hne, rfl⟩ := addRow_eq_some.1 h
  clear h
  induction rows with
  | nil => simp [insertRow, Keyed]
  | cons y rows ih =>
    obtain ⟨hy, hrows⟩ := List.pairwise_cons.1 hk
    simp only [insertRow, List.orderedInsert_cons]
    split_ifs with hle
    · have hlt : key r < key y := lt_of_le_of_ne hle fun he => hne y (by simp) he.symm
      exact List.pairwise_cons.2 ⟨fun z hz => by
        rcases List.mem_cons.1 hz with rfl | hz
        · exact hlt
        · exact hlt.trans (hy z hz), hk⟩
    · refine List.pairwise_cons.2 ⟨fun z hz => ?_, ih hrows fun x hx => hne x (by simp [hx])⟩
      rcases mem_insertRow.1 hz with rfl | hz
      · exact not_le.1 hle
      · exact hy z hz

theorem keyed_inj {rows : List ρ} (hk : Keyed key rows) {x y : ρ} (hx : x ∈ rows) (hy : y ∈ rows)
    (h : key x = key y) : x = y := by
  by_contra hne
  rcases List.pairwise_iff_getElem.1 hk with hp
  obtain ⟨i, hi, rfl⟩ := List.getElem_of_mem hx
  obtain ⟨j, hj, rfl⟩ := List.getElem_of_mem hy
  rcases lt_trichotomy i j with hij | rfl | hij
  · have := hp i j hi hj hij; omega
  · exact hne rfl
  · have := hp j i hj hi hij; omega

section
variable {k : ℤ} {f : ρ → ρ} (hf : ∀ x, key (f x) = key x)
include hf

/-- Rewriting a row keeps the keys. -/
theorem key_updateRow (rows : List ρ) : (updateRow key k f rows).map key = rows.map key := by
  simp only [updateRow, List.map_map]
  refine List.map_congr_left fun x _ => ?_
  simp only [Function.comp]
  split_ifs
  · exact hf x
  · rfl

theorem keyed_updateRow {rows : List ρ} (hk : Keyed key rows) :
    Keyed key (updateRow key k f rows) := by
  have h := List.pairwise_map.2 hk
  rw [← key_updateRow (k := k) hf] at h
  exact List.pairwise_map.1 h

end

theorem mem_updateRow {k : ℤ} {f : ρ → ρ} {rows : List ρ} {y : ρ} :
    y ∈ updateRow key k f rows ↔ (∃ x ∈ rows, key x = k ∧ f x = y) ∨ (y ∈ rows ∧ key y ≠ k) := by
  simp only [updateRow, List.mem_map]
  constructor
  · rintro ⟨x, hx, rfl⟩
    split_ifs with h
    · exact Or.inl ⟨x, hx, h, rfl⟩
    · exact Or.inr ⟨hx, h⟩
  · rintro (⟨x, hx, h, rfl⟩ | ⟨hy, h⟩)
    · exact ⟨x, hx, by simp [h]⟩
    · exact ⟨y, hy, by simp [h]⟩

/-- Tables correspond along a map of rows that keeps the keys. -/
theorem addRow_map {τ : Type} {key' : τ → ℤ} (g : ρ → τ) (hg : ∀ x, key' (g x) = key x)
    (r : ρ) (rows : List ρ) :
    addRow key' (g r) (rows.map g) = (addRow key r rows).map (List.map g) := by
  have hany : ((rows.map g).any fun x => key' x == key' (g r)) =
      rows.any fun x => key x == key r := by
    rw [List.any_map]; congr 1; funext x; simp [hg]
  unfold addRow
  rw [hany]
  split_ifs with h
  · rfl
  · simp only [Option.map_some, insertRow, Option.some.injEq]
    exact (List.map_orderedInsert _ _ g rows r (fun a _ => by simp [hg]) (fun a _ => by simp [hg])).symm

end Lib
