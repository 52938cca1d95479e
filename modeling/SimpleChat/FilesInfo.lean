/-
  files_transfer.h: names for new files (`files_info`).

  `make_none_repeat_file` puts underscores behind the stem of a name until no
  entry of the directory has it.

  * `FileName`: the names that a directory can have entries under;
  * `stem`, `extension`: what `std::filesystem::path` splits a name into;
    `split_cases`: the dot at which it is split, if there is one;
  * `makeNoneRepeatFile`: each call makes the name longer, so it ends;
  * `makeNoneRepeatFile_spec`: the name is free, and has the stem and the extension
    of the old one up to underscores.
-/
import SimpleChat.Lib.Text

namespace SimpleChat

open Lib

/-- The name of an entry of a directory. -/
structure FileName where
  text : Str
  ne_nil : text ≠ []
  no_slash : 47 ∉ text
  ne_dot : text ≠ [46]
  ne_dots : text ≠ [46, 46]

/-! ## Stem and extension -/

/-- What stands before the last dot. -/
def beforeDot (name : Str) : Str := (name.rdropWhile (· ≠ 46)).dropLast

/-- `path::stem`; a dot at the front does not count. -/
def stem (name : Str) : Str :=
  if name = [46] ∨ name = [46, 46] ∨ beforeDot name = [] then name else beforeDot name

/-- `path::extension` -/
def extension (name : Str) : Str :=
  if name = [46] ∨ name = [46, 46] ∨ beforeDot name = [] then [] else 46 :: name.rtakeWhile (· ≠ 46)

section
variable {name s t : Str}

/-- The last dot of a text. -/
theorem exists_lastDot (h : 46 ∈ name) : ∃ s t, name = s ++ 46 :: t ∧ 46 ∉ t := by
  induction name using List.reverseRecOn with
  | nil => cases h
  | append_singleton name c ih =>
    by_cases hc : c = 46
    · exact ⟨name, [], by rw [hc], List.not_mem_nil⟩
    · rcases List.mem_append.1 h with hmem | hmem
      · obtain ⟨s, t, rfl, ht⟩ := ih hmem
        refine ⟨s, t ++ [c], by simp, fun hcon => ?_⟩
        rcases List.mem_append.1 hcon with hcon | hcon
        · exact ht hcon
        · exact hc (List.mem_singleton.1 hcon).symm
      · exact absurd (List.mem_singleton.1 hmem).symm hc

theorem rtakeWhile_lastDot (ht : 46 ∉ t) : (s ++ 46 :: t).rtakeWhile (· ≠ 46) = t := by
  induction t using List.reverseRecOn with
  | nil => simp
  | append_singleton t c ih =>
    rw [List.mem_append, not_or, List.mem_singleton] at ht
    have hsplit : s ++ 46 :: (t ++ [c]) = (s ++ 46 :: t) ++ [c] := by simp
    rw [hsplit, List.rtakeWhile_concat_pos _ _ _ (by simpa using Ne.symm ht.2), ih ht.1]

theorem beforeDot_lastDot (ht : 46 ∉ t) : beforeDot (s ++ 46 :: t) = s := by
  induction t using List.reverseRecOn with
  | nil => simp [beforeDot]
  | append_singleton t c ih =>
    rw [List.mem_append, not_or, List.mem_singleton] at ht
    have hsplit : s ++ 46 :: (t ++ [c]) = (s ++ 46 :: t) ++ [c] := by simp
    rw [beforeDot, hsplit, List.rdropWhile_concat_pos _ _ _ (by simpa using Ne.symm ht.2)]
    exact ih ht.1

theorem beforeDot_noDot (h : 46 ∉ name) : beforeDot name = [] := by
  have hall : name.rdropWhile (· ≠ 46) = [] := by
    rw [List.rdropWhile_eq_nil_iff]
    intro c hc
    simp only [decide_eq_true_eq]
    rintro rfl
    exact h hc
  rw [beforeDot, hall, List.dropLast_nil]

/-- A name without a dot behind its first byte. -/
theorem split_noDot (h : 46 ∉ name.tail) : stem name = name ∧ extension name = [] := by
  have hnil : name = [46] ∨ name = [46, 46] ∨ beforeDot name = [] := by
    by_cases hdot : 46 ∈ name
    · obtain ⟨s, t, rfl, ht⟩ := exists_lastDot hdot
      cases s with
      | nil => exact Or.inr (Or.inr (beforeDot_lastDot ht))
      | cons c s => exact absurd (List.mem_append_right s (List.mem_cons_self ..)) h
    · exact Or.inr (Or.inr (beforeDot_noDot hdot))
  exact ⟨if_pos hnil, if_pos hnil⟩

/-- A name with a dot behind its first byte. -/
theorem split_dot (hs : s ≠ []) (ht : 46 ∉ t) (hne : s ++ 46 :: t ≠ [46, 46]) :
    stem (s ++ 46 :: t) = s ∧ extension (s ++ 46 :: t) = 46 :: t := by
  have hcond : ¬ (s ++ 46 :: t = [46] ∨ s ++ 46 :: t = [46, 46] ∨ beforeDot (s ++ 46 :: t) = []) := by
    rintro (h | h | h)
    · have hlen := congrArg List.length h
      have hpos := List.length_pos_iff.2 hs
      simp only [List.length_append, List.length_cons, List.length_nil] at hlen
      omega
    · exact hne h
    · rw [beforeDot_lastDot ht] at h
      exact hs h
  rw [stem, extension, if_neg hcond, if_neg hcond, beforeDot_lastDot ht, rtakeWhile_lastDot ht]
  exact ⟨rfl, rfl⟩

/-- **How a name is split.** -/
theorem split_cases (name : FileName) :
    (46 ∉ name.text.tail ∧ stem name.text = name.text ∧ extension name.text = []) ∨
    ∃ t, 46 ∉ t ∧ stem name.text ≠ [] ∧ name.text = stem name.text ++ 46 :: t ∧
      extension name.text = 46 :: t := by
  by_cases hdot : 46 ∈ name.text.tail
  · right
    obtain ⟨s, t, hst, ht⟩ := exists_lastDot hdot
    obtain ⟨c, r, hname⟩ := List.exists_cons_of_ne_nil name.ne_nil
    have heq : name.text = (c :: s) ++ 46 :: t := by
      rw [hname, List.cons_append, ← hst, hname, List.tail_cons]
    obtain ⟨hstem, hext⟩ := split_dot (List.cons_ne_nil c s) ht (heq ▸ name.ne_dots)
    rw [heq, hstem, hext]
    exact ⟨t, ht, List.cons_ne_nil c s, rfl, rfl⟩
  · exact Or.inl ⟨hdot, split_noDot hdot⟩

theorem stem_append_extension (name : FileName) : stem name.text ++ extension name.text = name.text := by
  rcases split_cases name with ⟨-, hstem, hext⟩ | ⟨t, -, -, hname, hext⟩
  · rw [hstem, hext, List.append_nil]
  · rw [hext, ← hname]

end

/-! ## Free names -/

/-- The name with an underscore behind the stem: `file_none += "_"`, and the
    extension. -/
def FileName.underscore (name : FileName) : FileName where
  text := stem name.text ++ [95] ++ extension name.text
  ne_nil := by simp
  no_slash := by
    have h := name.no_slash
    rw [← stem_append_extension name] at h
    simp only [List.mem_append, not_or, List.mem_singleton] at h ⊢
    exact ⟨⟨h.1, by decide⟩, h.2⟩
  ne_dot := fun h => by
    have hmem : (95 : UInt8) ∈ [(46 : UInt8)] := h ▸ by simp
    exact absurd hmem (by decide)
  ne_dots := fun h => by
    have hmem : (95 : UInt8) ∈ [(46 : UInt8), 46] := h ▸ by simp
    exact absurd hmem (by decide)

theorem FileName.underscore_length (name : FileName) :
    name.underscore.text.length = name.text.length + 1 := by
  have h := congrArg List.length (stem_append_extension name)
  simp only [underscore, List.length_append, List.length_singleton] at h ⊢
  omega

/-- **The underscore belongs to the stem.** -/
theorem FileName.split_underscore (name : FileName) :
    stem name.underscore.text = stem name.text ++ [95] ∧
      extension name.underscore.text = extension name.text := by
  rcases split_cases name with ⟨hdot, hstem, hext⟩ | ⟨t, ht, hne, -, hext⟩
  · have htext : name.underscore.text = name.text ++ [95] := by
      simp only [underscore, hstem, hext, List.append_nil]
    have hdot' : 46 ∉ name.underscore.text.tail := by
      rw [htext, List.tail_append_of_ne_nil name.ne_nil, List.mem_append, not_or]
      exact ⟨hdot, by decide⟩
    rw [(split_noDot hdot').1, (split_noDot hdot').2, htext, hstem, hext]
    exact ⟨rfl, rfl⟩
  · have htext : name.underscore.text = (stem name.text ++ [95]) ++ 46 :: t := by
      simp only [underscore, hext]
    have hdots := name.underscore.ne_dots
    rw [htext] at hdots ⊢
    rw [hext]
    exact split_dot (by simp) ht hdots

/-- `make_none_repeat_file`, in a directory with the given entries. -/
def makeNoneRepeatFile (dir : Finset Str) (name : FileName) : FileName :=
  if name.text ∈ dir then makeNoneRepeatFile dir name.underscore else name
  -- the entries that are not shorter than the name
termination_by (dir.filter fun n => name.text.length ≤ n.length).card
decreasing_by
  rename_i hmem
  refine Finset.card_lt_card (Finset.ssubset_iff_subset_ne.2 ⟨?_, fun heq => ?_⟩)
  · intro n hn
    rw [Finset.mem_filter, name.underscore_length] at hn
    rw [Finset.mem_filter]
    exact ⟨hn.1, by omega⟩
  · have hself : name.text ∈ dir.filter fun n => name.text.length ≤ n.length :=
      Finset.mem_filter.2 ⟨hmem, le_rfl⟩
    rw [← heq, Finset.mem_filter, name.underscore_length] at hself
    omega

/-- A call adds underscores to the stem, until the name is free. -/
theorem makeNoneRepeatFile_run (dir : Finset Str) (name : FileName) :
    (makeNoneRepeatFile dir name).text ∉ dir ∧
      extension (makeNoneRepeatFile dir name).text = extension name.text ∧
      ∃ k, stem (makeNoneRepeatFile dir name).text = stem name.text ++ List.replicate k 95 := by
  induction name using makeNoneRepeatFile.induct dir with
  | case1 name hmem ih =>
    obtain ⟨hfree, hext, k, hstem⟩ := ih
    rw [makeNoneRepeatFile, if_pos hmem]
    refine ⟨hfree, hext.trans name.split_underscore.2, k + 1, ?_⟩
    rw [hstem, name.split_underscore.1, List.append_assoc]
    rfl
  | case2 name hmem =>
    rw [makeNoneRepeatFile, if_neg hmem]
    exact ⟨hmem, rfl, 0, (List.append_nil _).symm⟩

/-- **Fresh file names.**  The name that is returned is free; it is the given one if
    that was free, and otherwise the given one with one or more underscores behind
    its stem. -/
theorem makeNoneRepeatFile_spec (dir : Finset Str) (name : FileName) :
    (makeNoneRepeatFile dir name).text ∉ dir ∧
      (name.text ∉ dir → makeNoneRepeatFile dir name = name) ∧
      (name.text ∈ dir → extension (makeNoneRepeatFile dir name).text = extension name.text ∧
        ∃ k, 0 < k ∧ stem (makeNoneRepeatFile dir name).text = stem name.text ++ List.replicate k 95) := by
  obtain ⟨hfree, hext, k, hstem⟩ := makeNoneRepeatFile_run dir name
  refine ⟨hfree, fun hmem => ?_, fun hmem => ⟨hext, k, ?_, hstem⟩⟩
  · rw [makeNoneRepeatFile, if_neg hmem]
  · -- otherwise the name would not have changed
    by_contra hzero
    obtain rfl : k = 0 := by omega
    have hsame : (makeNoneRepeatFile dir name).text = name.text := by
      rw [← stem_append_extension, hstem, hext, List.replicate_zero, List.append_nil,
        stem_append_extension]
    rw [hsame] at hfree
    exact hfree hmem

end SimpleChat
