/-
  Registries: entries that are open under a number, and channels that list the
  numbers of the entries they are responsible for.

  * `Registry`: the open entries, and the list of each live channel;
  * `openAt`: open an entry and list it, undoing both when one of them fails;
    the undoing goes by number alone, so `openAt_eq_self` says exactly when a
    failed opening changes nothing;
  * `Owned`: an entry is open if and only if a live channel lists it, and no
    two channels list the same number; for each operation, exactly when it
    keeps this;
  * `Holds`: some live channel lists an entry with a given value; for each
    operation, exactly when it does afterwards;
  * `Registry.map`: registries along a map of their entries.
-/
import Mathlib

namespace Lib

/-- Open entries by number, and the numbers listed by each live channel. -/
@[ext] structure Registry (κ ι β : Type) where
  entry : ι → Option β
  lists : κ → Option (Finset ι)

namespace Registry

variable {κ ι β : Type}

/-- The channel `c` is live and lists `i`. -/
def Listed (r : Registry κ ι β) (c : κ) (i : ι) : Prop := ∃ l ∈ r.lists c, i ∈ l

/-! ## Operations -/

section
variable [DecidableEq κ] [DecidableEq ι]

/-- Open `v` under `i`, unless `i` is open. -/
def acquire (r : Registry κ ι β) (i : ι) (v : Option β) : Bool × Registry κ ι β :=
  match r.entry i, v with
  | none, some v => (true, { r with entry := Function.update r.entry i (some v) })
  | _, _ => (false, r)

/-- Close `i`. -/
def release (r : Registry κ ι β) (i : ι) : Registry κ ι β :=
  { r with entry := Function.update r.entry i none }

/-- List `i` under `c`, if `c` is live. -/
def list (r : Registry κ ι β) (c : κ) (i : ι) : Bool × Registry κ ι β :=
  match r.lists c with
  | some l => (true, { r with lists := Function.update r.lists c (some (insert i l)) })
  | none => (false, r)

/-- Take `i` off the list of `c`. -/
def unlist (r : Registry κ ι β) (c : κ) (i : ι) : Registry κ ι β :=
  match r.lists c with
  | some l => { r with lists := Function.update r.lists c (some (l.erase i)) }
  | none => r

/-- Open and list, or close and take off the list. -/
def openAt (r : Registry κ ι β) (c : κ) (i : ι) (v : Option β) : Bool × Registry κ ι β :=
  let a := r.acquire i v
  let b := a.2.list c i
  if a.1 && b.1 then (true, b.2) else (false, (b.2.release i).unlist c i)

def closeAt (r : Registry κ ι β) (c : κ) (i : ι) : Registry κ ι β := (r.release i).unlist c i

/-- Make `c` live. -/
def addChannel (r : Registry κ ι β) (c : κ) : Registry κ ι β :=
  match r.lists c with
  | some _ => r
  | none => { r with lists := Function.update r.lists c (some ∅) }

/-- Forget `c` and its list. -/
def dropChannel (r : Registry κ ι β) (c : κ) : Registry κ ι β :=
  { r with lists := Function.update r.lists c none }

end

/-! ## What the operations do -/

section Entries
variable [DecidableEq ι] (r : Registry κ ι β) (i : ι) (v : Option β)

@[simp] theorem release_lists : (r.release i).lists = r.lists := rfl

@[simp] theorem acquire_lists : (r.acquire i v).2.lists = r.lists := by
  unfold acquire; split <;> rfl

theorem acquire_fst : (r.acquire i v).1 = true ↔ r.entry i = none ∧ v.isSome := by
  unfold acquire
  cases r.entry i <;> cases v <;> simp

end Entries

section Channels
variable [DecidableEq κ]

@[simp] theorem addChannel_entry (r : Registry κ ι β) (c : κ) : (r.addChannel c).entry = r.entry := by
  unfold addChannel; split <;> rfl

theorem listed_update (r : Registry κ ι β) (c : κ) (i : ι) (f : Finset ι → Finset ι) (c₀ : κ) :
    Listed ⟨r.entry, Function.update r.lists c₀ ((r.lists c₀).map f)⟩ c i ↔
      if c = c₀ then ∃ l ∈ r.lists c₀, i ∈ f l else r.Listed c i := by
  unfold Listed
  by_cases hc : c = c₀
  · subst hc; simp
  · simp [hc]

variable {r : Registry κ ι β} {c c' : κ} {j : ι}

theorem listed_addChannel : (r.addChannel c).Listed c' j ↔ r.Listed c' j := by
  unfold addChannel
  split
  · rfl
  · rename_i hc
    unfold Listed
    by_cases hcc : c' = c
    · subst hcc; simp [hc]
    · simp [hcc]

theorem listed_dropChannel : (r.dropChannel c).Listed c' j ↔ c' ≠ c ∧ r.Listed c' j := by
  unfold dropChannel Listed
  by_cases hcc : c' = c
  · subst hcc; simp
  · simp [hcc]

end Channels

section
variable [DecidableEq κ] [DecidableEq ι] (r : Registry κ ι β) (c c' : κ) (i j : ι) (v : Option β)

@[simp] theorem unlist_entry : (r.unlist c i).entry = r.entry := by
  unfold unlist; split <;> rfl

@[simp] theorem list_entry : (r.list c i).2.entry = r.entry := by
  unfold list; split <;> rfl

theorem list_fst : (r.list c i).1 = true ↔ (r.lists c).isSome := by
  unfold list; split <;> simp_all

theorem list_lists : (r.list c i).2.lists =
    Function.update r.lists c ((r.lists c).map (insert i)) := by
  unfold list
  cases h : r.lists c with
  | some l => rfl
  | none => exact (Function.update_eq_self_iff.2 h.symm).symm

theorem unlist_lists : (r.unlist c i).lists =
    Function.update r.lists c ((r.lists c).map (·.erase i)) := by
  unfold unlist
  cases h : r.lists c with
  | some l => rfl
  | none => exact (Function.update_eq_self_iff.2 h.symm).symm

/-- The result of a successful opening. -/
theorem openAt_of_ok (h : r.entry i = none) (hv : v.isSome) (hc : (r.lists c).isSome) :
    r.openAt c i v = (true, ⟨Function.update r.entry i v,
      Function.update r.lists c ((r.lists c).map (insert i))⟩) := by
  obtain ⟨v, rfl⟩ := Option.isSome_iff_exists.1 hv
  obtain ⟨l, hl⟩ := Option.isSome_iff_exists.1 hc
  simp [openAt, acquire, list, h, hl]

/-- The result of a failed opening: whatever was open under `i` is closed. -/
theorem openAt_of_not (h : ¬ (r.entry i = none ∧ v.isSome ∧ (r.lists c).isSome)) :
    r.openAt c i v = (false, r.closeAt c i) := by
  have hf : ((r.acquire i v).1 && ((r.acquire i v).2.list c i).1) = false := by
    rw [Bool.eq_false_iff]
    intro ht
    rw [Bool.and_eq_true, acquire_fst, list_fst, acquire_lists] at ht
    exact h ⟨ht.1.1, ht.1.2, ht.2⟩
  unfold openAt
  simp only [hf, Bool.false_eq_true, if_false]
  refine congrArg (Prod.mk false) ?_
  ext1
  · funext j
    simp only [closeAt, unlist_entry, release, list_entry]
    by_cases hj : j = i
    · simp [hj]
    · simp only [Function.update_of_ne hj, acquire]
      split <;> simp [hj]
  · simp only [closeAt, unlist_lists, release_lists, list_lists, acquire_lists,
      Function.update_self, Function.update_idem, Option.map_map]
    congr 1
    cases r.lists c <;> simp [Function.comp]

theorem openAt_fst : (r.openAt c i v).1 = true ↔
    r.entry i = none ∧ v.isSome ∧ (r.lists c).isSome := by
  by_cases h : r.entry i = none ∧ v.isSome ∧ (r.lists c).isSome
  · simp [openAt_of_ok r c i v h.1 h.2.1 h.2.2, h]
  · simp [openAt_of_not r c i v h, h]

theorem closeAt_entry : (r.closeAt c i).entry = Function.update r.entry i none := by
  simp [closeAt, release]

/-- After an opening, `i` has what its result says. -/
theorem openAt_entry : (r.openAt c i v).2.entry =
    Function.update r.entry i (if (r.openAt c i v).1 then v else none) := by
  by_cases h : r.entry i = none ∧ v.isSome ∧ (r.lists c).isSome
  · rw [openAt_of_ok r c i v h.1 h.2.1 h.2.2]
    rfl
  · rw [openAt_of_not r c i v h]
    exact closeAt_entry r c i

theorem closeAt_lists : (r.closeAt c i).lists =
    Function.update r.lists c ((r.lists c).map (·.erase i)) := by
  simp [closeAt, unlist_lists]

theorem closeAt_eq_self : r.closeAt c i = r ↔ r.entry i = none ∧ ¬ r.Listed c i := by
  rw [Registry.ext_iff, closeAt_entry, closeAt_lists, Function.update_eq_self_iff,
    Function.update_eq_self_iff, eq_comm]
  refine and_congr_right fun _ => ?_
  unfold Listed
  cases r.lists c <;> simp

/-- **When a failed opening changes nothing.** -/
theorem openAt_eq_self : ((r.openAt c i v).1 = false → (r.openAt c i v).2 = r) ↔
    r.entry i = none ∧ (¬ r.Listed c i ∨ v.isSome) := by
  by_cases h : r.entry i = none ∧ v.isSome ∧ (r.lists c).isSome
  · simp [openAt_of_ok r c i v h.1 h.2.1 h.2.2, h]
  · rw [openAt_of_not r c i v h]
    simp only [true_imp_iff, closeAt_eq_self]
    refine and_congr_right fun hi => ⟨Or.inl, ?_⟩
    rintro (hn | hv)
    · exact hn
    · -- the entry can be opened, so it is the channel that is not live
      rintro ⟨l, hl, -⟩
      exact h ⟨hi, hv, by rw [hl]; rfl⟩

end

/-! ## Ownership -/

/-- An entry is open if and only if a live channel lists it, and only one does. -/
structure Owned (r : Registry κ ι β) : Prop where
  open_iff : ∀ i, (r.entry i).isSome ↔ ∃ c, r.Listed c i
  unique : ∀ {c c' i}, r.Listed c i → r.Listed c' i → c = c'

theorem Owned.existsUnique {r : Registry κ ι β} (h : Owned r) (i : ι) :
    (r.entry i).isSome ↔ ∃! c, r.Listed c i := by
  rw [h.open_iff]
  exact ⟨fun ⟨c, hc⟩ => ⟨c, hc, fun _ hc' => h.unique hc' hc⟩, fun ⟨c, hc, _⟩ => ⟨c, hc⟩⟩

section
variable [DecidableEq κ] {r : Registry κ ι β}

theorem owned_addChannel (h : Owned r) (c : κ) : Owned (r.addChannel c) :=
  ⟨fun i => by simp [listed_addChannel, h.open_iff], fun h₁ h₂ =>
    h.unique (listed_addChannel.1 h₁) (listed_addChannel.1 h₂)⟩

/-- Dropping a channel keeps ownership exactly when its list is empty. -/
theorem owned_dropChannel (h : Owned r) (c : κ) :
    Owned (r.dropChannel c) ↔ ∀ i, ¬ r.Listed c i := by
  constructor
  · intro h' i hi
    obtain ⟨c', hc'⟩ := (h'.open_iff i).1 ((h.open_iff i).2 ⟨c, hi⟩)
    rw [listed_dropChannel] at hc'
    exact hc'.1 (h.unique hc'.2 hi)
  · intro hempty
    refine ⟨fun i => ?_, fun h₁ h₂ => h.unique (listed_dropChannel.1 h₁).2 (listed_dropChannel.1 h₂).2⟩
    rw [show (r.dropChannel c).entry = r.entry from rfl, h.open_iff]
    refine exists_congr fun c' => ?_
    rw [listed_dropChannel]
    exact ⟨fun hl => ⟨fun he => hempty i (he ▸ hl), hl⟩, And.right⟩

end

section
variable [DecidableEq κ] [DecidableEq ι] {r : Registry κ ι β} {c : κ} {i : ι}

theorem listed_closeAt {c' : κ} {j : ι} :
    (r.closeAt c i).Listed c' j ↔ r.Listed c' j ∧ ¬ (c' = c ∧ j = i) := by
  have := listed_update r c' j (·.erase i) c
  simp only [Listed, closeAt_lists] at this ⊢
  rw [this]
  split_ifs with hc
  · subst hc; simp; tauto
  · simp [hc]

/-- Closing `i` keeps ownership exactly when no other channel lists it. -/
theorem owned_closeAt (h : Owned r) (c : κ) (i : ι) :
    Owned (r.closeAt c i) ↔ ∀ c', c' ≠ c → ¬ r.Listed c' i := by
  constructor
  · intro h' c' hc' hl
    have hopen := (h'.open_iff i).2 ⟨c', listed_closeAt.2 ⟨hl, fun he => hc' he.1⟩⟩
    simp [closeAt_entry] at hopen
  · intro hother
    refine ⟨fun j => ?_, fun h₁ h₂ => h.unique (listed_closeAt.1 h₁).1 (listed_closeAt.1 h₂).1⟩
    simp only [listed_closeAt, closeAt_entry]
    by_cases hj : j = i
    · subst hj
      simp only [Function.update_self, Option.isSome_none, Bool.false_eq_true, false_iff]
      rintro ⟨c', hc', hne⟩
      exact hother c' (fun he => hne ⟨he, trivial⟩) hc'
    · simp [hj, h.open_iff j]

/-- A successful opening lists one more entry. -/
theorem listed_openAt {v : Option β} (hi : r.entry i = none) (hv : v.isSome)
    (hc : (r.lists c).isSome) (c' : κ) (j : ι) :
    (r.openAt c i v).2.Listed c' j ↔ r.Listed c' j ∨ (c' = c ∧ j = i) := by
  obtain ⟨l, hl⟩ := Option.isSome_iff_exists.1 hc
  have := listed_update r c' j (insert i) c
  rw [openAt_of_ok r c i v hi hv hc]
  simp only [Listed] at this ⊢
  rw [this]
  split_ifs with hcc
  · subst hcc; simp [hl]; tauto
  · simp [hcc]

/-- Opening `i` keeps ownership exactly when no other channel lists it. -/
theorem owned_openAt (h : Owned r) (c : κ) (i : ι) (v : Option β) :
    Owned (r.openAt c i v).2 ↔ ∀ c', c' ≠ c → ¬ r.Listed c' i := by
  by_cases hok : r.entry i = none ∧ v.isSome ∧ (r.lists c).isSome
  · obtain ⟨hi, hv, hc⟩ := hok
    have hnot : ∀ c', ¬ r.Listed c' i := fun c' hc' => by
      have := (h.open_iff i).2 ⟨c', hc'⟩
      simp [hi] at this
    refine iff_of_true ?_ fun c' _ => hnot c'
    have hlisted := listed_openAt hi hv hc
    rw [openAt_of_ok r c i v hi hv hc] at hlisted ⊢
    refine ⟨fun j => ?_, fun {c₁ c₂ j} h₁ h₂ => ?_⟩
    · simp only [hlisted]
      by_cases hj : j = i
      · subst hj
        exact iff_of_true (by simpa using hv) ⟨c, Or.inr ⟨rfl, rfl⟩⟩
      · simp [hj, h.open_iff j]
    · rw [hlisted] at h₁ h₂
      rcases h₁ with h₁ | ⟨rfl, rfl⟩ <;> rcases h₂ with h₂ | ⟨rfl, hj⟩
      · exact h.unique h₁ h₂
      · exact absurd (hj ▸ h₁) (hnot _)
      · exact absurd h₂ (hnot _)
      · rfl
  · rw [openAt_of_not r c i v hok]
    exact owned_closeAt h c i

end

/-! ## Values held -/

/-- A live channel lists an entry with the value `v`. -/
def Holds (r : Registry κ ι β) (v : β) : Prop := ∃ c i, r.Listed c i ∧ r.entry i = some v

section
variable [DecidableEq κ] {r : Registry κ ι β} {c : κ} {v : β}

theorem holds_addChannel : (r.addChannel c).Holds v ↔ r.Holds v := by
  simp only [Holds, listed_addChannel, addChannel_entry]

theorem holds_dropChannel :
    (r.dropChannel c).Holds v ↔ ∃ c' i, c' ≠ c ∧ r.Listed c' i ∧ r.entry i = some v := by
  simp only [Holds, listed_dropChannel, and_assoc]
  rfl

end

section
variable [DecidableEq κ] [DecidableEq ι] {r : Registry κ ι β} {c : κ} {i : ι} {v : β}

theorem holds_closeAt :
    (r.closeAt c i).Holds v ↔ ∃ c' j, j ≠ i ∧ r.Listed c' j ∧ r.entry j = some v := by
  simp only [Holds, listed_closeAt, closeAt_entry]
  refine exists_congr fun c' => exists_congr fun j => ?_
  by_cases hj : j = i
  · simp [hj]
  · simp [hj]

theorem holds_openAt {w : β} (hi : r.entry i = none) (hc : (r.lists c).isSome) :
    (r.openAt c i (some w)).2.Holds v ↔ v = w ∨ r.Holds v := by
  have hlisted := listed_openAt (v := some w) hi Option.isSome_some hc
  have hentry : (r.openAt c i (some w)).2.entry = Function.update r.entry i (some w) := by
    rw [openAt_of_ok r c i (some w) hi (Option.isSome_some) hc]
  simp only [Holds, hlisted, hentry]
  constructor
  · rintro ⟨c', j, hl, he⟩
    by_cases hj : j = i
    · subst hj
      simp only [Function.update_self, Option.some.injEq] at he
      exact Or.inl he.symm
    · rw [Function.update_of_ne hj] at he
      exact Or.inr ⟨c', j, hl.resolve_right fun h => hj h.2, he⟩
  · rintro (rfl | ⟨c', j, hl, he⟩)
    · exact ⟨c, i, Or.inr ⟨rfl, rfl⟩, Function.update_self _ _ _⟩
    · have hj : j ≠ i := by rintro rfl; rw [hi] at he; cases he
      exact ⟨c', j, Or.inl hl, by rw [Function.update_of_ne hj, he]⟩

end

/-! ## Maps -/

/-- The registry with other values. -/
def map {γ : Type} (g : β → γ) (r : Registry κ ι β) : Registry κ ι γ :=
  ⟨fun i => (r.entry i).map g, r.lists⟩

theorem map_addChannel [DecidableEq κ] {γ : Type} (g : β → γ) (r : Registry κ ι β) (c : κ) :
    (r.addChannel c).map g = (r.map g).addChannel c := by
  ext1
  · simp only [map, addChannel_entry]
  · show (r.addChannel c).lists = ((r.map g).addChannel c).lists
    unfold addChannel
    rw [show (r.map g).lists = r.lists from rfl]
    cases r.lists c <;> rfl

section
variable [DecidableEq κ] [DecidableEq ι] {γ : Type} (g : β → γ) (r : Registry κ ι β) (c : κ) (i : ι)

theorem map_closeAt : (r.closeAt c i).map g = (r.map g).closeAt c i := by
  ext1
  · funext j
    by_cases hj : j = i
    · simp [map, closeAt_entry, hj]
    · simp [map, closeAt_entry, hj]
  · simp only [map, closeAt_lists]

theorem map_openAt (v : Option β) : (r.openAt c i v).2.map g = ((r.map g).openAt c i (v.map g)).2 := by
  by_cases h : r.entry i = none ∧ v.isSome ∧ (r.lists c).isSome
  · obtain ⟨hi, hv, hc⟩ := h
    rw [openAt_of_ok r c i v hi hv hc, openAt_of_ok (r.map g) c i _ (by simp [map, hi])
      (by simpa using hv) hc]
    ext1
    · funext j
      by_cases hj : j = i
      · simp [map, hj]
      · simp [map, hj]
    · rfl
  · rw [openAt_of_not r c i v h, openAt_of_not (r.map g) c i _ (by simpa [map] using h)]
    exact map_closeAt g r c i

end

/-- The registry without entries and channels. -/
def empty : Registry κ ι β := ⟨fun _ => none, fun _ => none⟩

theorem owned_empty : Owned (empty : Registry κ ι β) :=
  ⟨fun _ => by simp [empty, Listed], fun h => by simp [empty, Listed] at h⟩

end Registry

end Lib
