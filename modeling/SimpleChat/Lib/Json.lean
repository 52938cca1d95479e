/-
  JSON documents, and what a JSON library promises.

  * `Json`: documents; an object is the list of its fields, in the order of
    their keys;
  * `find`, `setField`: reading and writing a field of an object;
  * `Json.size`: a bound on the bytes of the strings in a document;
  * `Json.Plain`, `Json.Utf8`: documents that a library writes and reads back;
  * `JsonLib`: `parse` and `dump` with their promises: what has been dumped
    parses to what it was, dumping fails only on strings that are not UTF-8, and
    the strings in a document are shorter than its text.
-/
import SimpleChat.Lib.Text

namespace Lib

/-- A document.  A number that is no integer is represented by the integer it is
    converted to. -/
inductive Json where
  | null
  | bool (b : Bool)
  | int (n : ℤ)
  | float (n : ℤ)
  | str (s : Str)
  | arr (js : List Json)
  | obj (fs : List (Str × Json))

namespace Json

/-! ## Fields -/

/-- The order of keys: by their bytes. -/
def keyLt : Str → Str → Bool
  | _, [] => false
  | [], _ :: _ => true
  | a :: s, b :: t => a.toNat < b.toNat || (a == b && keyLt s t)

/-- The value of the field `k`. -/
def find (fs : List (Str × Json)) (k : Str) : Option Json := (fs.find? (·.1 == k)).map (·.2)

/-- Write the field `k`. -/
def setField : List (Str × Json) → Str → Json → List (Str × Json)
  | [], k, v => [(k, v)]
  | (k', v') :: fs, k, v =>
    if k = k' then (k, v) :: fs
    else if keyLt k k' then (k, v) :: (k', v') :: fs
    else (k', v') :: setField fs k v

/-- The fields are in the order of their keys. -/
def SortedKeys (fs : List (Str × Json)) : Prop := fs.Pairwise fun a b => keyLt a.1 b.1 = true

theorem sortedKeys_iff {fs : List (Str × Json)} :
    SortedKeys fs ↔ (fs.map (·.1)).Pairwise fun a b => keyLt a b = true := by
  rw [SortedKeys, List.pairwise_map]

theorem keyLt_irrefl : ∀ s, keyLt s s = false
  | [] => rfl
  | a :: s => by simp [keyLt, keyLt_irrefl s]

theorem keyLt_asymm : ∀ {s t : Str}, keyLt s t = true → keyLt t s = false
  | _, [], h => by simp [keyLt] at h
  | [], _ :: _, _ => rfl
  | a :: s, b :: t, h => by
    simp only [keyLt, Bool.or_eq_true, decide_eq_true_eq, Bool.and_eq_true, beq_iff_eq,
      Bool.or_eq_false_iff, decide_eq_false_iff_not, Bool.and_eq_false_iff,
      beq_eq_false_iff_ne] at h ⊢
    rcases h with h | ⟨rfl, h⟩
    · exact ⟨by omega, Or.inl fun he => by subst he; omega⟩
    · exact ⟨by omega, Or.inr (keyLt_asymm h)⟩

theorem keyLt_total : ∀ {s t : Str}, s ≠ t → keyLt s t = false → keyLt t s = true
  | [], [], h, _ => absurd rfl h
  | _ :: _, [], _, _ => rfl
  | [], _ :: _, _, h => by simp [keyLt] at h
  | a :: s, b :: t, hne, h => by
    simp only [keyLt, Bool.or_eq_true, decide_eq_true_eq, Bool.and_eq_true, beq_iff_eq,
      Bool.or_eq_false_iff, decide_eq_false_iff_not, Bool.and_eq_false_iff,
      beq_eq_false_iff_ne] at h ⊢
    by_cases hab : a = b
    · subst hab
      have hst : s ≠ t := fun he => hne (by rw [he])
      exact Or.inr ⟨rfl, keyLt_total hst (h.2.resolve_left fun hn => hn rfl)⟩
    · have : a.toNat ≠ b.toNat := fun he => hab (UInt8.toNat_inj.1 he)
      exact Or.inl (by omega)

theorem keyLt_trans : ∀ {s t u : Str}, keyLt s t = true → keyLt t u = true → keyLt s u = true
  | _, [], _, h, _ => by simp [keyLt] at h
  | _, _ :: _, [], _, h => by simp [keyLt] at h
  | [], _ :: _, _ :: _, _, _ => rfl
  | a :: s, b :: t, c :: u, h, h' => by
    simp only [keyLt, Bool.or_eq_true, decide_eq_true_eq, Bool.and_eq_true, beq_iff_eq] at h h' ⊢
    rcases h with h | ⟨rfl, h⟩
    · rcases h' with h' | ⟨rfl, h'⟩ <;> left <;> omega
    · rcases h' with h' | ⟨rfl, h'⟩
      · exact Or.inl h'
      · exact Or.inr ⟨rfl, keyLt_trans h h'⟩

@[simp] theorem find_nil (k : Str) : find [] k = none := rfl

theorem find_cons (k k' : Str) (v : Json) (fs : List (Str × Json)) :
    find ((k', v) :: fs) k = if k' = k then some v else find fs k := by
  unfold find
  by_cases h : k' = k
  · simp [h]
  · rw [List.find?_cons_of_neg (by simpa using h), if_neg h]

/-- Reading after writing. -/
theorem find_setField (fs : List (Str × Json)) (k x : Str) (v : Json) :
    find (setField fs k v) x = if k = x then some v else find fs x := by
  induction fs with
  | nil => simp [setField, find_cons]
  | cons f fs ih =>
    obtain ⟨k', v'⟩ := f
    unfold setField
    by_cases h1 : k = k'
    · subst h1
      by_cases hx : k = x <;> simp [find_cons, hx]
    · rw [if_neg h1]
      cases keyLt k k'
      · simp only [Bool.false_eq_true, if_false, find_cons, ih]
        by_cases hx : k = x
        · subst hx; simp [Ne.symm h1]
        · simp [hx]
      · simp [find_cons]

theorem mem_setField {fs : List (Str × Json)} {k : Str} {v : Json} {f : Str × Json}
    (h : f ∈ setField fs k v) : f = (k, v) ∨ f ∈ fs := by
  induction fs with
  | nil => simpa [setField] using h
  | cons g fs ih =>
    unfold setField at h
    split_ifs at h
    · rcases List.mem_cons.1 h with h | h
      · exact Or.inl h
      · exact Or.inr (List.mem_cons_of_mem _ h)
    · exact List.mem_cons.1 h
    · rcases List.mem_cons.1 h with h | h
      · exact Or.inr (by simp [h])
      · exact (ih h).imp id (List.mem_cons_of_mem _)

theorem sortedKeys_setField {fs : List (Str × Json)} (h : SortedKeys fs) (k : Str) (v : Json) :
    SortedKeys (setField fs k v) := by
  induction fs with
  | nil => exact List.pairwise_singleton _ _
  | cons f fs ih =>
    obtain ⟨k', v'⟩ := f
    obtain ⟨hk, hfs⟩ := List.pairwise_cons.1 h
    unfold setField
    split_ifs with h1 h2
    · exact List.pairwise_cons.2 ⟨fun g hg => h1 ▸ hk g hg, hfs⟩
    · refine List.pairwise_cons.2 ⟨fun g hg => ?_, h⟩
      rcases List.mem_cons.1 hg with rfl | hg
      · exact h2
      · exact keyLt_trans h2 (hk g hg)
    · refine List.pairwise_cons.2 ⟨fun g hg => ?_, ih hfs⟩
      rcases mem_setField hg with rfl | hg
      · exact keyLt_total h1 (by simpa using h2)
      · exact hk g hg

/-- Writing fields in the order of their keys builds the list of them. -/
theorem foldl_setField {fs gs : List (Str × Json)} (h : SortedKeys (gs ++ fs)) :
    fs.foldl (fun gs f => setField gs f.1 f.2) gs = gs ++ fs := by
  have hlast : ∀ (gs : List (Str × Json)) (f : Str × Json),
      (∀ g ∈ gs, keyLt g.1 f.1 = true) → setField gs f.1 f.2 = gs ++ [f] := by
    intro gs f hgs
    induction gs with
    | nil => rfl
    | cons g gs ih =>
      have hg := hgs g (by simp)
      obtain ⟨k', v'⟩ := g
      rw [setField, if_neg, if_neg, ih fun g hg => hgs g (by simp [hg])]
      · rfl
      · simp [keyLt_asymm hg]
      · rintro rfl; simp [keyLt_irrefl] at hg
  induction fs generalizing gs with
  | nil => simp
  | cons f fs ih =>
    obtain ⟨-, -, hcross⟩ := List.pairwise_append.1 h
    rw [List.foldl_cons, hlast gs f fun g hg => hcross g hg f (by simp), ih (by simpa using h)]
    simp

/-! ## Strings -/

/-- A continuation byte of UTF-8. -/
def isCont (b : UInt8) : Bool := 0x80 ≤ b && b ≤ 0xBF

/-- The text is UTF-8: shortest forms only, and no surrogates. -/
def validUtf8 : Str → Bool
  | [] => true
  | a :: s =>
    if a < 0x80 then validUtf8 s
    else
      match s with
      | b :: s =>
        if 0xC2 ≤ a && a ≤ 0xDF then isCont b && validUtf8 s
        else
          match s with
          | c :: s =>
            if 0xE0 ≤ a && a ≤ 0xEF then
              isCont b && isCont c && (a != 0xE0 || 0xA0 ≤ b) && (a != 0xED || b ≤ 0x9F) &&
                validUtf8 s
            else
              match s with
              | d :: s =>
                0xF0 ≤ a && a ≤ 0xF4 && isCont b && isCont c && isCont d &&
                  (a != 0xF0 || 0x90 ≤ b) && (a != 0xF4 || b ≤ 0x8F) && validUtf8 s
              | [] => false
          | [] => false
      | [] => false

section
variable {a b c d : UInt8}

theorem validUtf8_ascii (ha : a < 0x80) (t : Str) : validUtf8 (a :: t) = validUtf8 t := by
  rw [validUtf8.eq_def]
  simp only [ha, if_true]

theorem validUtf8_two (ha : ¬ a < 0x80) (hb : (0xC2 ≤ a && a ≤ 0xDF) = true) (t : Str) :
    validUtf8 (a :: b :: t) = (isCont b && validUtf8 t) := by
  rw [validUtf8.eq_def]
  simp only [ha, hb, if_false, if_true]

theorem validUtf8_three (ha : ¬ a < 0x80) (hb : ¬ (0xC2 ≤ a && a ≤ 0xDF) = true)
    (hc : (0xE0 ≤ a && a ≤ 0xEF) = true) (t : Str) :
    validUtf8 (a :: b :: c :: t) = (isCont b && isCont c && (a != 0xE0 || 0xA0 ≤ b) &&
      (a != 0xED || b ≤ 0x9F) && validUtf8 t) := by
  rw [validUtf8.eq_def]
  simp only [ha, hb, hc, if_false, if_true, Bool.false_eq_true]

theorem validUtf8_four (ha : ¬ a < 0x80) (hb : ¬ (0xC2 ≤ a && a ≤ 0xDF) = true)
    (hc : ¬ (0xE0 ≤ a && a ≤ 0xEF) = true) (t : Str) :
    validUtf8 (a :: b :: c :: d :: t) = (0xF0 ≤ a && a ≤ 0xF4 && isCont b && isCont c && isCont d &&
      (a != 0xF0 || 0x90 ≤ b) && (a != 0xF4 || b ≤ 0x8F) && validUtf8 t) := by
  rw [validUtf8.eq_def]
  simp only [ha, hb, hc, if_false, Bool.false_eq_true]

/-- **A UTF-8 text begins with a character**: one ASCII byte, or several others. -/
theorem validUtf8_char {s : Str} (h : validUtf8 (a :: s) = true) :
    ∃ ch r, a :: s = ch ++ r ∧ ch ≠ [] ∧ (ch = [a] ∧ a < 0x80 ∨ ∀ b ∈ ch, ¬ b < 0x80) ∧
      ∀ t, validUtf8 (ch ++ t) = validUtf8 t := by
  have hcont : ∀ {b : UInt8}, isCont b = true → ¬ b < 0x80 := by
    intro b hb
    simp only [isCont, Bool.and_eq_true, decide_eq_true_eq] at hb
    exact UInt8.not_lt.2 hb.1
  by_cases ha : a < 0x80
  · exact ⟨[a], s, rfl, by simp, .inl ⟨rfl, ha⟩, fun t => validUtf8_ascii ha t⟩
  rcases s with _ | ⟨b, s⟩
  · rw [validUtf8.eq_def] at h
    simp [ha] at h
  by_cases hb : (0xC2 ≤ a && a ≤ 0xDF) = true
  · rw [validUtf8_two ha hb, Bool.and_eq_true] at h
    refine ⟨[a, b], s, rfl, by simp, .inr ?_, fun t => ?_⟩
    · simp only [List.mem_cons, List.not_mem_nil, or_false, forall_eq_or_imp, forall_eq]
      exact ⟨ha, hcont h.1⟩
    · rw [List.cons_append, List.singleton_append, validUtf8_two ha hb, h.1, Bool.true_and]
  rcases s with _ | ⟨c, s⟩
  · rw [validUtf8.eq_def] at h
    simp only [ha, hb, if_false, Bool.false_eq_true] at h
  by_cases hc : (0xE0 ≤ a && a ≤ 0xEF) = true
  · rw [validUtf8_three ha hb hc] at h
    simp only [Bool.and_eq_true] at h
    obtain ⟨⟨⟨⟨h₁, h₂⟩, h₃⟩, h₄⟩, -⟩ := h
    refine ⟨[a, b, c], s, rfl, by simp, .inr ?_, fun t => ?_⟩
    · simp only [List.mem_cons, List.not_mem_nil, or_false, forall_eq_or_imp, forall_eq]
      exact ⟨ha, hcont h₁, hcont h₂⟩
    · simp only [List.cons_append, List.nil_append, validUtf8_three ha hb hc, h₁, h₂, h₃, h₄,
        Bool.true_and]
  rcases s with _ | ⟨d, s⟩
  · rw [validUtf8.eq_def] at h
    simp only [ha, hb, hc, if_false, Bool.false_eq_true] at h
  · rw [validUtf8_four ha hb hc] at h
    simp only [Bool.and_eq_true] at h
    obtain ⟨⟨⟨⟨⟨⟨⟨h₁, h₂⟩, h₃⟩, h₄⟩, h₅⟩, h₆⟩, h₇⟩, -⟩ := h
    refine ⟨[a, b, c, d], s, rfl, by simp, .inr ?_, fun t => ?_⟩
    · simp only [List.mem_cons, List.not_mem_nil, or_false, forall_eq_or_imp, forall_eq]
      exact ⟨ha, hcont h₃, hcont h₄, hcont h₅⟩
    · simp only [List.cons_append, List.nil_append, validUtf8_four ha hb hc, h₁, h₂, h₃, h₄, h₅, h₆,
        h₇, Bool.true_and]

end

/-- Texts made of UTF-8 texts are UTF-8, and so is what comes of rewriting the ASCII
    bytes of one. -/
theorem validUtf8_flatMap {f : UInt8 → Str} (hascii : ∀ c < 0x80, ∀ t, validUtf8 (f c ++ t) = validUtf8 t)
    (hother : ∀ c, ¬ c < 0x80 → f c = [c]) {s t : Str} (hs : validUtf8 s = true)
    (ht : validUtf8 t = true) : validUtf8 (s.flatMap f ++ t) = true := by
  induction hn : s.length using Nat.strong_induction_on generalizing s with
  | _ n ih =>
    rcases s with _ | ⟨a, s⟩
    · exact ht
    · obtain ⟨ch, r, hch, hne, hkind, hskip⟩ := validUtf8_char hs
      have hr : validUtf8 r = true := by rw [← hskip, ← hch, hs]
      have hlen : r.length < n := by
        have := congrArg List.length hch
        have := List.length_pos_iff.2 hne
        simp only [List.length_append] at *
        omega
      rw [hch, List.flatMap_append, List.append_assoc]
      have ih := ih r.length hlen hr rfl
      rcases hkind with ⟨rfl, ha⟩ | hall
      · rw [List.flatMap_singleton, hascii a ha, ih]
      · have hsame : ch.flatMap f = ch := by
          rw [List.flatMap_congr fun b hb => hother b (hall b hb)]
          exact List.flatMap_pure_eq_map id ch |>.trans (List.map_id ch)
        rw [hsame, hskip, ih]

theorem validUtf8_ascii_append {s : Str} (hs : ∀ c ∈ s, c < 0x80) (t : Str) :
    validUtf8 (s ++ t) = validUtf8 t := by
  induction s with
  | nil => rfl
  | cons c s ih =>
    obtain ⟨hc, hs⟩ := List.forall_mem_cons.1 hs
    rw [List.cons_append, validUtf8_ascii hc, ih hs]

mutual

/-- A bound on the strings among the values: one more than the bytes of each. -/
def size : Json → ℕ
  | .str s => s.length + 1
  | .arr js => sizeItems js
  | .obj fs => sizeFields fs
  | _ => 0

def sizeItems : List Json → ℕ
  | [] => 0
  | j :: js => size j + sizeItems js

def sizeFields : List (Str × Json) → ℕ
  | [] => 0
  | (_, j) :: fs => size j + sizeFields fs

end

theorem size_le_of_mem {js : List Json} {j : Json} (h : j ∈ js) : j.size ≤ sizeItems js := by
  induction js with
  | nil => simp at h
  | cons i js ih =>
    rw [sizeItems]
    rcases List.mem_cons.1 h with rfl | h
    · omega
    · have := ih h; omega

theorem size_le_of_find {fs : List (Str × Json)} {k : Str} {j : Json} (h : find fs k = some j) :
    j.size ≤ sizeFields fs := by
  induction fs with
  | nil => simp at h
  | cons f fs ih =>
    obtain ⟨k', v⟩ := f
    rw [find_cons] at h
    rw [sizeFields]
    split_ifs at h
    · cases h; omega
    · have := ih h; omega

mutual

/-- No fractions, integers of 64 bits, objects in the order of their keys. -/
def Plain : Json → Prop
  | .int n => -2 ^ 63 ≤ n ∧ n < 2 ^ 64
  | .float _ => False
  | .arr js => PlainItems js
  | .obj fs => SortedKeys fs ∧ PlainFields fs
  | _ => True

def PlainItems : List Json → Prop
  | [] => True
  | j :: js => Plain j ∧ PlainItems js

def PlainFields : List (Str × Json) → Prop
  | [] => True
  | (_, j) :: fs => Plain j ∧ PlainFields fs

end

mutual

/-- All strings and keys are UTF-8. -/
def Utf8 : Json → Bool
  | .str s => validUtf8 s
  | .arr js => Utf8Items js
  | .obj fs => Utf8Fields fs
  | _ => true

def Utf8Items : List Json → Bool
  | [] => true
  | j :: js => Utf8 j && Utf8Items js

def Utf8Fields : List (Str × Json) → Bool
  | [] => true
  | (k, j) :: fs => validUtf8 k && Utf8 j && Utf8Fields fs

end

theorem plainFields_iff {fs : List (Str × Json)} : PlainFields fs ↔ ∀ f ∈ fs, Plain f.2 := by
  induction fs with
  | nil => simp [PlainFields]
  | cons f fs ih => obtain ⟨k, j⟩ := f; simp [PlainFields, ih]

theorem plainItems_iff {js : List Json} : PlainItems js ↔ ∀ j ∈ js, Plain j := by
  induction js with
  | nil => simp [PlainItems]
  | cons j js ih => simp [PlainItems, ih]

theorem utf8Fields_iff {fs : List (Str × Json)} :
    Utf8Fields fs = true ↔ ∀ f ∈ fs, validUtf8 f.1 = true ∧ Utf8 f.2 = true := by
  induction fs with
  | nil => simp [Utf8Fields]
  | cons f fs ih => obtain ⟨k, j⟩ := f; simp [Utf8Fields, ih, and_assoc]

theorem plain_setField {fs : List (Str × Json)} {k : Str} {v : Json} (h : Plain (.obj fs))
    (hv : Plain v) : Plain (.obj (setField fs k v)) := by
  simp only [Plain, plainFields_iff] at h ⊢
  refine ⟨sortedKeys_setField h.1 k v, fun f hf => ?_⟩
  rcases mem_setField hf with rfl | hf
  · exact hv
  · exact h.2 f hf

theorem utf8_setField {fs : List (Str × Json)} {k : Str} {v : Json} (h : Utf8 (.obj fs) = true)
    (hk : validUtf8 k = true) (hv : Utf8 v = true) : Utf8 (.obj (setField fs k v)) = true := by
  simp only [Utf8, utf8Fields_iff] at h ⊢
  intro f hf
  rcases mem_setField hf with rfl | hf
  · exact ⟨hk, hv⟩
  · exact h f hf

end Json

/-- A JSON library: `none` stands for the exception that the call throws. -/
structure JsonLib where
  parse : Str → Option Json
  dump : Json → Option Str
  parse_dump : ∀ {j t}, j.Plain → dump j = some t → parse t = some j
  dump_utf8 : ∀ {j}, j.Plain → j.Utf8 = true → (dump j).isSome
  parse_size : ∀ {t j}, parse t = some j → j.size ≤ t.length

/-- `dump` throws on strings that are not UTF-8, and writes UTF-8. -/
structure JsonLib.Strict (J : JsonLib) : Prop where
  throws : ∀ {j t}, J.dump j = some t → j.Utf8 = true
  utf8 : ∀ {j t}, J.dump j = some t → Json.validUtf8 t = true

end Lib
