/-
  `QString`: texts of UTF-16 code units, and the numbers in them.

  * `number`, `toLongLong`: an integer as a text, and back; a text that is no
    integer, or none of 64 bits, is read as 0;
  * `Denotes`: the integer that a text stands for; `toLongLong_eq`: which is what is
    read;
  * `Utf8Codec`: the conversions from and to UTF-8.
-/
import SimpleChat.Lib.Json

namespace Lib

/-- A `QString`: its UTF-16 code units. -/
abbrev QString := List UInt16

/-- The conversions `fromStdString` and `toStdString`: what is UTF-8 comes back, and only
    the empty text becomes empty. -/
structure Utf8Codec where
  fromStdString : Str → QString
  toStdString : QString → Str
  round_trip : ∀ s, Json.validUtf8 s = true → toStdString (fromStdString s) = s
  empty_iff : ∀ s, fromStdString s = [] ↔ s = []

namespace QString

/-- A text of ASCII characters. -/
def ofAscii (s : Str) : QString := s.map UInt8.toUInt16

/-- `QString::number` -/
def number (z : Int64) : QString := ofAscii (intText z.toInt)

/-- `QChar::isSpace` -/
def isSpace (c : UInt16) : Bool :=
  c == 0x20 || (0x09 ≤ c && c ≤ 0x0D) || c == 0x85 || c == 0xA0 || c == 0x1680 ||
    (0x2000 ≤ c && c ≤ 0x200A) || c == 0x2028 || c == 0x2029 || c == 0x202F || c == 0x205F || c == 0x3000

/-- The text without the blanks around it. -/
def trimmed (s : QString) : QString := (s.dropWhile isSpace).rdropWhile isSpace

/-- The bytes of a text of ASCII characters. -/
def toAscii (s : QString) : Option Str :=
  if s.all (· < 128) then some (s.map UInt16.toUInt8) else none

/-- The integer that a text consists of: digits, behind a sign or not. -/
def parseInt (s : QString) : Option ℤ :=
  (toAscii s).bind fun s =>
    let (neg, ds) := readSign s
    if ds = [] ∨ ds.all isDigit = false then none else some (if neg then -(readNat ds) else readNat ds)

/-- The integer of 64 bits in a text, blanks around it or not. -/
def longLong? (s : QString) : Option Int64 :=
  (parseInt (trimmed s)).bind fun z =>
    if -2 ^ 63 ≤ z ∧ z ≤ 2 ^ 63 - 1 then some (Int64.ofInt z) else none

/-- `toLongLong`: 0 where there is no such integer. -/
def toLongLong (s : QString) : Int64 := (longLong? s).getD 0

/-- The integer that a text stands for: its digits, behind a sign or not. -/
inductive Denotes : QString → ℤ → Prop
  | digits {ds : Str} : ds ≠ [] → (∀ d ∈ ds, isDigit d = true) → Denotes (ofAscii ds) (readNat ds)
  | plus {ds : Str} : ds ≠ [] → (∀ d ∈ ds, isDigit d = true) → Denotes (ofAscii (43 :: ds)) (readNat ds)
  | minus {ds : Str} : ds ≠ [] → (∀ d ∈ ds, isDigit d = true) → Denotes (ofAscii (45 :: ds)) (-(readNat ds))

section
variable {s : Str} {ds : Str} {txt : QString} {z z' : ℤ}

theorem denotes_number (z : Int64) : Denotes (number z) z.toInt := by
  have hds := natText_digits z.toInt.natAbs
  have hne := natText_ne_nil z.toInt.natAbs
  have hread := readNat_natText z.toInt.natAbs
  unfold number intText
  split_ifs with hneg
  · have h := Denotes.minus hne hds
    rw [hread] at h
    rwa [show -((z.toInt.natAbs : ℕ) : ℤ) = z.toInt by omega] at h
  · have h := Denotes.digits hne hds
    rw [hread] at h
    rwa [show ((z.toInt.natAbs : ℕ) : ℤ) = z.toInt by omega] at h

/-! ## Reading a number -/

/-- Digits and signs are ASCII characters and no blanks. -/
theorem ascii_of_digit {c : UInt8} (h : isDigit c = true ∨ c = 43 ∨ c = 45) :
    c.toUInt16 < 128 ∧ isSpace c.toUInt16 = false := by
  have hc : 43 ≤ c.toNat ∧ c.toNat ≤ 57 := by
    rcases h with h | rfl | rfl
    · simp only [isDigit, Bool.and_eq_true, decide_eq_true_eq, UInt8.le_iff_toNat_le] at h
      exact ⟨le_trans (by decide) h.1, h.2⟩
    · decide
    · decide
  have h16 : c.toUInt16.toNat = c.toNat := UInt8.toNat_toUInt16 c
  refine ⟨?_, ?_⟩
  · rw [UInt16.lt_iff_toNat_lt, h16]
    exact lt_of_le_of_lt hc.2 (by decide)
  · simp only [isSpace, Bool.or_eq_false_iff, Bool.and_eq_false_iff, beq_eq_false_iff_ne,
      decide_eq_false_iff_not, UInt16.le_iff_toNat_le, ne_eq, ← UInt16.toNat_inj, h16]
    simp
    omega

theorem toUInt16_toUInt8 {c : UInt16} (h : c < 128) : c.toUInt8.toUInt16 = c := by
  rw [UInt16.lt_iff_toNat_lt] at h
  rw [← UInt16.toNat_inj, UInt8.toNat_toUInt16, UInt16.toNat_toUInt8]
  exact Nat.mod_eq_of_lt (lt_trans h (by decide))

/-- The bytes of an ASCII text are what it was made of. -/
theorem toAscii_ofAscii (h : ∀ c ∈ s, c.toUInt16 < 128) : toAscii (ofAscii s) = some s := by
  have hall : (ofAscii s).all (· < 128) = true := by
    simpa [ofAscii] using h
  rw [toAscii, if_pos hall, ofAscii, List.map_map]
  simp [Function.comp_def]

theorem ofAscii_toAscii (h : toAscii txt = some s) : ofAscii s = txt := by
  unfold toAscii at h
  split_ifs at h with hall
  obtain rfl : txt.map UInt16.toUInt8 = s := Option.some.inj h
  rw [ofAscii, List.map_map]
  refine (List.map_congr_left fun c hc => ?_).trans (List.map_id txt)
  exact toUInt16_toUInt8 (by simpa using List.all_eq_true.1 hall c hc)

theorem readSign_cases (s : Str) : (∃ ds, s = 45 :: ds ∧ readSign s = (true, ds)) ∨
    (∃ ds, s = 43 :: ds ∧ readSign s = (false, ds)) ∨ readSign s = (false, s) := by
  unfold readSign
  split
  · exact Or.inl ⟨_, rfl, rfl⟩
  · exact Or.inr (Or.inl ⟨_, rfl, rfl⟩)
  · exact Or.inr (Or.inr rfl)

/-- The texts that stand for an integer, by their bytes. -/
theorem denotes_iff : Denotes txt z ↔ ∃ s, txt = ofAscii s ∧ (readSign s).2 ≠ [] ∧
    (∀ d ∈ (readSign s).2, isDigit d = true) ∧
    z = if (readSign s).1 then -(readNat (readSign s).2 : ℤ) else readNat (readSign s).2 := by
  constructor
  · intro h
    cases h with
    | @digits ds hne hds =>
      obtain ⟨d, ds, rfl⟩ := List.exists_cons_of_ne_nil hne
      have hsign := readSign_digit (s := ds) (hds d (List.mem_cons_self ..))
      exact ⟨_, rfl, by rw [hsign]; exact ⟨hne, hds, rfl⟩⟩
    | plus hne hds => exact ⟨_, rfl, hne, hds, rfl⟩
    | minus hne hds => exact ⟨_, rfl, hne, hds, rfl⟩
  · rintro ⟨s, rfl, hne, hds, rfl⟩
    rcases readSign_cases s with ⟨ds, rfl, hsign⟩ | ⟨ds, rfl, hsign⟩ | hsign
    all_goals rw [hsign] at hne hds ⊢
    · exact Denotes.minus hne hds
    · exact Denotes.plus hne hds
    · exact Denotes.digits hne hds

theorem Denotes.ascii (h : Denotes txt z) :
    ∃ s, txt = ofAscii s ∧ ∀ c ∈ s, isDigit c = true ∨ c = 43 ∨ c = 45 := by
  cases h with
  | digits _ hds => exact ⟨_, rfl, fun c hc => Or.inl (hds c hc)⟩
  | plus _ hds =>
    refine ⟨_, rfl, fun c hc => ?_⟩
    rcases List.mem_cons.1 hc with rfl | hc
    · exact Or.inr (Or.inl rfl)
    · exact Or.inl (hds c hc)
  | minus _ hds =>
    refine ⟨_, rfl, fun c hc => ?_⟩
    rcases List.mem_cons.1 hc with rfl | hc
    · exact Or.inr (Or.inr rfl)
    · exact Or.inl (hds c hc)

/-- **Reading an integer**: what is read of a text is what it stands for. -/
theorem parseInt_iff : parseInt txt = some z ↔ Denotes txt z := by
  constructor
  · intro h
    obtain ⟨s, hs, h⟩ := Option.bind_eq_some_iff.1 h
    dsimp only at h
    split_ifs at h with hbad hneg
    all_goals
      rw [not_or, Bool.not_eq_false, List.all_eq_true] at hbad
      exact denotes_iff.2 ⟨s, (ofAscii_toAscii hs).symm, hbad.1, hbad.2, by simpa [hneg] using h.symm⟩
  · intro h
    obtain ⟨s, rfl, hs⟩ := h.ascii
    have hto : toAscii (ofAscii s) = some s := toAscii_ofAscii fun c hc => (ascii_of_digit (hs c hc)).1
    obtain ⟨s', hss, hne, hds, rfl⟩ := denotes_iff.1 h
    obtain rfl : s = s' := by
      have hinj : Function.Injective UInt8.toUInt16 := fun a b hab => by
        rw [← a.toUInt8_toUInt16, hab, b.toUInt8_toUInt16]
      exact hinj.list_map hss
    have hgood : ¬ ((readSign s).2 = [] ∨ (readSign s).2.all isDigit = false) := by
      rw [not_or, Bool.not_eq_false, List.all_eq_true]
      exact ⟨hne, hds⟩
    rw [parseInt, hto, Option.bind_some]
    dsimp only
    rw [if_neg hgood]

/-- Nothing is trimmed off a number. -/
theorem Denotes.trimmed_eq (h : Denotes txt z) : trimmed txt = txt := by
  obtain ⟨s, rfl, hs⟩ := h.ascii
  have hno : ∀ c ∈ ofAscii s, isSpace c = false := by
    intro c hc
    obtain ⟨b, hb, rfl⟩ := List.mem_map.1 hc
    exact (ascii_of_digit (hs b hb)).2
  have hleft : (ofAscii s).dropWhile isSpace = ofAscii s := by
    cases s with
    | nil => rfl
    | cons b s => exact List.dropWhile_cons_of_neg (by rw [hno _ (List.mem_cons_self ..)]; exact Bool.false_ne_true)
  rw [trimmed, hleft, List.rdropWhile_eq_self_iff]
  intro hne
  simp [hno _ (List.getLast_mem hne)]

/-- **`toLongLong`** reads the integer that the text, trimmed, stands for, if it has 64
    bits. -/
theorem longLong?_iff {n : Int64} : longLong? txt = some n ↔ Denotes (trimmed txt) n.toInt := by
  constructor
  · intro h
    obtain ⟨z, hz, h⟩ := Option.bind_eq_some_iff.1 h
    split_ifs at h with hrange
    obtain rfl := Option.some.inj h
    rw [Int64.toInt_ofInt_of_le hrange.1 (by omega)]
    exact parseInt_iff.1 hz
  · intro h
    rw [longLong?, parseInt_iff.2 h, Option.bind_some,
      if_pos ⟨n.le_toInt, by have := n.toInt_lt; omega⟩, Int64.ofInt_toInt]

theorem denotes_toLongLong : Denotes (trimmed txt) (toLongLong txt).toInt ↔ (longLong? txt).isSome := by
  rw [← longLong?_iff, toLongLong]
  cases longLong? txt <;> simp

theorem longLong?_number (n : Int64) : longLong? (number n) = some n := by
  rw [longLong?_iff, (denotes_number n).trimmed_eq]
  exact denotes_number n

theorem toLongLong_number (n : Int64) : toLongLong (number n) = n := by
  rw [toLongLong, longLong?_number, Option.getD_some]

theorem number_inj {m n : Int64} (h : number m = number n) : m = n := by
  rw [← toLongLong_number m, h, toLongLong_number]

theorem number_ne_nil (n : Int64) : number n ≠ [] := by
  obtain ⟨s, hs, hne, -⟩ := denotes_iff.1 (denotes_number n)
  rw [hs]
  rintro hnil
  rw [ofAscii, List.map_eq_nil_iff] at hnil
  exact hne (by rw [hnil]; rfl)

end

end QString

/-- The conversions of ASCII texts. -/
def Utf8Codec.ascii : Utf8Codec where
  fromStdString := QString.ofAscii
  toStdString s := s.map UInt16.toUInt8
  round_trip s _ := by
    rw [QString.ofAscii, List.map_map]
    simp [Function.comp_def]
  empty_iff _ := List.map_eq_nil_iff

end Lib
