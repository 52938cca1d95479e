/-
  Byte texts, and decimal numbers in them.

  A text is the list of its bytes.  `natText` and `intText` write a number in
  decimal; `readNat` is the positional value of a list of digits, and `stoInt`
  reads an optionally signed number off the front of a text, as the C library
  does: leading blanks are skipped, the digits end at the first other byte, and
  a number outside the given bounds is refused.
-/
import Mathlib

namespace Lib

/-- A text: the list of its bytes. -/
abbrev Str := List UInt8

/-- The bytes of an ASCII literal. -/
def lit (s : String) : Str := s.toList.map Char.toUInt8

/-- A literal by its characters; the kernel reads them off at once. -/
theorem lit_ofList {s : String} {cs : List Char} (h : String.ofList cs = s) :
    lit s = cs.map Char.toUInt8 := by
  rw [lit, ← h, String.toList_ofList]

/-- The ASCII digits. -/
def isDigit (b : UInt8) : Bool := 48 ≤ b && b ≤ 57

/-- The ASCII blanks of `isspace`. -/
def isSpace (b : UInt8) : Bool := b == 32 || (9 ≤ b && b ≤ 13)

/-! ## Writing numbers -/

/-- The decimal text of a natural number. -/
def natText (n : ℕ) : Str :=
  if n = 0 then [48] else (Nat.digits 10 n).reverse.map fun d => UInt8.ofNat (48 + d)

/-- The decimal text of an integer. -/
def intText (z : ℤ) : Str :=
  if z < 0 then 45 :: natText z.natAbs else natText z.natAbs

/-! ## Reading numbers -/

/-- The positional value of a list of digits. -/
def readNat (s : Str) : ℕ := s.foldl (fun a c => a * 10 + (c.toNat - 48)) 0

/-- The sign of a number text, and what follows it. -/
def readSign : Str → Bool × Str
  | 45 :: s => (true, s)
  | 43 :: s => (false, s)
  | s => (false, s)

/-- Read a number between `lo` and `hi` off the front of a text. -/
def stoInt (lo hi : ℤ) (s : Str) : Option ℤ :=
  let (neg, s) := readSign (s.dropWhile isSpace)
  let ds := s.takeWhile isDigit
  if ds = [] then none
  else
    let v : ℤ := if neg then -(readNat ds) else readNat ds
    if lo ≤ v ∧ v ≤ hi then some v else none

/-- `std::stoi`. -/
def stoi (s : Str) : Option ℤ := stoInt (-2 ^ 31) (2 ^ 31 - 1) s

/-- `std::stoll`. -/
def stoll (s : Str) : Option ℤ := stoInt (-2 ^ 63) (2 ^ 63 - 1) s

/-! ## Digits of a number text -/

theorem digit_toNat {d : ℕ} (h : d < 10) : (UInt8.ofNat (48 + d)).toNat = 48 + d := by
  rw [UInt8.toNat_ofNat']; omega

theorem isDigit_ofNat {d : ℕ} (h : d < 10) : isDigit (UInt8.ofNat (48 + d)) = true := by
  have := digit_toNat h
  simp only [isDigit, Bool.and_eq_true, decide_eq_true_eq, UInt8.le_iff_toNat_le, this]
  exact ⟨by simp, by simp; omega⟩

theorem natText_digits (n : ℕ) : ∀ c ∈ natText n, isDigit c = true := by
  intro c hc
  unfold natText at hc
  split_ifs at hc with h
  · simp at hc; subst hc; rfl
  · simp only [List.mem_map, List.mem_reverse] at hc
    obtain ⟨d, hd, rfl⟩ := hc
    exact isDigit_ofNat (Nat.digits_lt_base (by norm_num) hd)

theorem natText_ne_nil (n : ℕ) : natText n ≠ [] := by
  unfold natText
  split_ifs with h
  · simp
  · simpa using Nat.digits_ne_nil_iff_ne_zero.2 h

/-- Reading digits from the left is evaluating them, least digit first. -/
theorem foldl_digits (l : List ℕ) (hl : ∀ d ∈ l, d < 10) (a : ℕ) :
    (l.map fun d => UInt8.ofNat (48 + d)).foldl (fun a c => a * 10 + (c.toNat - 48)) a =
      Nat.ofDigits 10 l.reverse + 10 ^ l.length * a := by
  induction l generalizing a with
  | nil => simp
  | cons d l ih =>
    have hd := digit_toNat (hl d (by simp))
    simp only [List.map_cons, List.foldl_cons, hd]
    rw [ih fun x hx => hl x (by simp [hx])]
    simp only [List.reverse_cons, Nat.ofDigits_append, Nat.ofDigits_singleton, List.length_reverse,
      List.length_cons, pow_succ]
    rw [show 48 + d - 48 = d by omega]
    ring

theorem readNat_natText (n : ℕ) : readNat (natText n) = n := by
  unfold natText readNat
  split_ifs with h
  · subst h; rfl
  · rw [foldl_digits _ fun d hd => Nat.digits_lt_base (by norm_num) (by simpa using hd)]
    simp [Nat.ofDigits_digits]

/-- A number text does not begin with a sign or a blank. -/
theorem isDigit_not_sign {c : UInt8} (h : isDigit c = true) :
    c ≠ 45 ∧ c ≠ 43 ∧ isSpace c = false := by
  simp only [isDigit, Bool.and_eq_true, decide_eq_true_eq, UInt8.le_iff_toNat_le] at h
  refine ⟨?_, ?_, ?_⟩
  · rintro rfl; simp at h
  · rintro rfl; simp at h
  · simp only [isSpace, Bool.or_eq_false_iff, beq_eq_false_iff_ne, Bool.and_eq_false_iff,
      decide_eq_false_iff_not, UInt8.le_iff_toNat_le]
    refine ⟨?_, Or.inr ?_⟩
    · rintro rfl; simp at h
    · simp at h ⊢; omega

theorem readSign_digit {c : UInt8} {s : Str} (h : isDigit c = true) :
    readSign (c :: s) = (false, c :: s) := by
  obtain ⟨h1, h2, -⟩ := isDigit_not_sign h
  unfold readSign
  split <;> simp_all

theorem takeWhile_digits {ds s : Str} (hd : ∀ c ∈ ds, isDigit c = true)
    (hs : ∀ c, s.head? = some c → isDigit c = false) : (ds ++ s).takeWhile isDigit = ds := by
  rw [List.takeWhile_append_of_pos hd]
  cases s with
  | nil => simp
  | cons c s => simp [hs c rfl]

theorem exists_natText_cons (n : ℕ) : ∃ c s, natText n = c :: s ∧ isDigit c = true := by
  obtain ⟨c, s, h⟩ := List.exists_cons_of_ne_nil (natText_ne_nil n)
  exact ⟨c, s, h, natText_digits n c (by simp [h])⟩

/-- A number text followed by a byte that is no digit is read back, if the number is
    within the bounds. -/
theorem stoInt_natText_eq (lo hi : ℤ) (n : ℕ) {s : Str}
    (hs : ∀ c, s.head? = some c → isDigit c = false) :
    stoInt lo hi (natText n ++ s) = if lo ≤ n ∧ n ≤ hi then some (n : ℤ) else none := by
  obtain ⟨c, t, hc, hd⟩ := exists_natText_cons n
  have hds := natText_digits n
  have hsp := (isDigit_not_sign hd).2.2
  have hstart : readSign ((natText n ++ s).dropWhile isSpace) = (false, natText n ++ s) := by
    rw [hc, List.cons_append, List.dropWhile_cons_of_neg (by simp [hsp]), readSign_digit hd]
  simp only [stoInt, hstart, takeWhile_digits hds hs, natText_ne_nil, if_false,
    Bool.false_eq_true, readNat_natText]

theorem stoInt_natText (lo hi : ℤ) (n : ℕ) {s : Str} (hs : ∀ c, s.head? = some c → isDigit c = false)
    (hlo : lo ≤ n) (hhi : n ≤ hi) : stoInt lo hi (natText n ++ s) = some (n : ℤ) := by
  rw [stoInt_natText_eq lo hi n hs, if_pos ⟨hlo, hhi⟩]

theorem stoi_natText (n : ℕ) : stoi (natText n) = if (n : ℤ) ≤ 2 ^ 31 - 1 then some (n : ℤ) else none := by
  have h := stoInt_natText_eq (-2 ^ 31) (2 ^ 31 - 1) n (s := []) (by simp)
  rw [List.append_nil] at h
  rw [stoi, h]
  refine if_congr ⟨And.right, fun hn => ⟨?_, hn⟩⟩ rfl rfl
  omega

theorem stoInt_intText {lo hi : ℤ} (z : ℤ) (hlo : lo ≤ z) (hhi : z ≤ hi) :
    stoInt lo hi (intText z) = some z := by
  unfold intText
  split_ifs with h
  · have hds := natText_digits z.natAbs
    have hstart : readSign ((45 :: natText z.natAbs).dropWhile isSpace) =
        (true, natText z.natAbs) := rfl
    have htw := takeWhile_digits (s := []) hds (by simp)
    rw [List.append_nil] at htw
    simp only [stoInt, hstart, htw, natText_ne_nil, if_false, if_true, readNat_natText]
    rw [show -((z.natAbs : ℕ) : ℤ) = z by omega]
    simp [hlo, hhi]
  · have hz : ((z.natAbs : ℕ) : ℤ) = z := by omega
    have := stoInt_natText lo hi z.natAbs (s := []) (by simp) (by omega) (by omega)
    rwa [List.append_nil, hz] at this

theorem intText_inj {y z : ℤ} (h : intText y = intText z) : y = z := by
  have key : ∀ w : ℤ, stoInt (min y z) (max y z) (intText w) = some w ∨ ¬ (w = y ∨ w = z) := by
    intro w
    by_cases hw : w = y ∨ w = z
    · exact Or.inl (stoInt_intText w (by omega) (by omega))
    · exact Or.inr hw
  rcases key y with hy | hy
  · rcases key z with hz | hz
    · rw [h, hz] at hy; exact (Option.some.inj hy).symm
    · exact absurd (Or.inr rfl) hz
  · exact absurd (Or.inl rfl) hy

end Lib
