/-
  What a table with a key is for: a map from the keys to the rows.

  * `KeyMap`: a map whose rows stand at their own keys; `add`, `erase`;
  * `KeyMap.Lists`: the rows of a table list the map, in the order of the keys;
  * `lists_addRow`, `lists_filter`: the operations on the rows do what those on the map
    do.
-/
import SimpleChat.Lib.Keyed

namespace Lib

variable {ρ : Type} {key : ρ → ℤ}

/-- Rows by their keys. -/
structure KeyMap (key : ρ → ℤ) where
  get : ℤ → Option ρ
  key_get : ∀ k r, get k = some r → key r = k

namespace KeyMap

def empty : KeyMap key := ⟨fun _ => none, fun _ _ h => by cases h⟩

/-- Put a row in, unless its key is taken. -/
def add (m : KeyMap key) (r : ρ) : Option (KeyMap key) :=
  match m.get (key r) with
  | some _ => none
  | none => some ⟨Function.update m.get (key r) (some r), by
      intro k x hx
      rcases eq_or_ne k (key r) with rfl | hne
      · rw [Function.update_self, Option.some.injEq] at hx
        rw [hx]
      · rw [Function.update_of_ne hne] at hx
        exact m.key_get k x hx⟩

/-- Take the row with a key out. -/
def erase (m : KeyMap key) (k : ℤ) : KeyMap key :=
  ⟨Function.update m.get k none, by
    intro j x hx
    rcases eq_or_ne j k with rfl | hne
    · rw [Function.update_self] at hx
      cases hx
    · rw [Function.update_of_ne hne] at hx
      exact m.key_get j x hx⟩

/-- The rows are those of the map, in increasing order of their keys. -/
structure Lists (m : KeyMap key) (rows : List ρ) : Prop where
  keyed : Keyed key rows
  mem : ∀ r, r ∈ rows ↔ m.get (key r) = some r

variable {m m' : KeyMap key} {rows : List ρ} {r : ρ}

theorem lists_empty : (empty : KeyMap key).Lists [] := by
  refine ⟨List.Pairwise.nil, fun r => ?_⟩
  simp [empty]

/-- A key is taken if a row of the list has it. -/
theorem Lists.get_eq_none (h : m.Lists rows) {k : ℤ} : m.get k = none ↔ ∀ x ∈ rows, key x ≠ k := by
  constructor
  · rintro hk x hx rfl
    rw [(h.mem x).1 hx] at hk
    cases hk
  · intro hall
    cases hk : m.get k with
    | none => rfl
    | some x =>
      have hx := m.key_get k x hk
      rw [← hx] at hk
      exact absurd hx (hall x ((h.mem x).2 hk))

theorem add_eq_none : m.add r = none ↔ m.get (key r) ≠ none := by
  unfold add
  split
  · rename_i x hx
    simp [hx]
  · rename_i hx
    simp [hx]

theorem get_add (h : m.add r = some m') : m'.get = Function.update m.get (key r) (some r) := by
  unfold add at h
  split at h
  · cases h
  · rw [← Option.some.inj h]

/-- **An insertion.** -/
theorem Lists.addRow (h : m.Lists rows) (r : ρ) :
    match m.add r with
    | none => addRow key r rows = none
    | some m' => ∃ rows', Lib.addRow key r rows = some rows' ∧ m'.Lists rows' := by
  cases hadd : m.add r with
  | none =>
    have htaken : ∃ x ∈ rows, key x = key r := by
      by_contra hfree
      push Not at hfree
      exact add_eq_none.1 hadd (h.get_eq_none.2 hfree)
    exact addRow_eq_none.2 htaken
  | some m' =>
    have hfree : ∀ x ∈ rows, key x ≠ key r := by
      refine h.get_eq_none.1 ?_
      by_contra htaken
      rw [add_eq_none.2 htaken] at hadd
      cases hadd
    have hrows : Lib.addRow key r rows = some (insertRow key r rows) := addRow_eq_some.2 ⟨hfree, rfl⟩
    refine ⟨insertRow key r rows, hrows, keyed_addRow h.keyed hrows, fun x => ?_⟩
    rw [mem_insertRow, get_add hadd]
    rcases eq_or_ne (key x) (key r) with heq | hne
    · rw [heq, Function.update_self, Option.some.injEq]
      refine ⟨?_, fun hx => .inl hx.symm⟩
      rintro (rfl | hx)
      · rfl
      · exact absurd heq (hfree x hx)
    · rw [Function.update_of_ne hne, h.mem]
      refine ⟨?_, .inr⟩
      rintro (rfl | hx)
      · exact absurd rfl hne
      · exact hx

/-- **A deletion.** -/
theorem Lists.filter (h : m.Lists rows) (k : ℤ) : (m.erase k).Lists (rows.filter fun r => key r != k) := by
  refine ⟨h.keyed.filter _, fun x => ?_⟩
  have hget : (m.erase k).get = Function.update m.get k none := rfl
  rw [List.mem_filter, h.mem, bne_iff_ne, hget]
  rcases eq_or_ne (key x) k with heq | hne
  · rw [heq, Function.update_self]
    simp
  · rw [Function.update_of_ne hne]
    simp [hne]

end KeyMap

end Lib
