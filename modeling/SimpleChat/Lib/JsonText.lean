/-
  A JSON library: compact texts.

  * `dumpText`: a document without blanks, its strings escaped where JSON asks
    for it;
  * `parseValue`: reads such a text, with `fuel` for the nesting; blanks, numbers
    that are not integers of 64 bits, and escapes beyond ASCII are refused;
  * `parseValue_dumpText`: what has been written is read back;
  * `jsonText`: together they are a `JsonLib`.
-/
import SimpleChat.Lib.Json

namespace Lib.Json

/-! ## Strings -/

/-- The hexadecimal digit of a number below 16. -/
def hexDigit (n : ℕ) : UInt8 := UInt8.ofNat (if n < 10 then 48 + n else 87 + n)

def hexValue (b : UInt8) : Option ℕ :=
  if 48 ≤ b && b ≤ 57 then some (b.toNat - 48)
  else if 97 ≤ b && b ≤ 102 then some (b.toNat - 87)
  else if 65 ≤ b && b ≤ 70 then some (b.toNat - 55)
  else none

/-- A byte of a string, escaped if it has to be. -/
def escapeByte (c : UInt8) : Str :=
  if c = 34 then [92, 34]
  else if c = 92 then [92, 92]
  else if c = 8 then [92, 98]
  else if c = 9 then [92, 116]
  else if c = 10 then [92, 110]
  else if c = 12 then [92, 102]
  else if c = 13 then [92, 114]
  else if c < 32 then [92, 117, 48, 48, hexDigit (c.toNat / 16), hexDigit (c.toNat % 16)]
  else [c]

def quoteText (s : Str) : Str := 34 :: (s.flatMap escapeByte ++ [34])

/-- The byte that a letter after a backslash stands for. -/
def unescape (c : UInt8) : Option UInt8 :=
  if c = 34 ∨ c = 92 ∨ c = 47 then some c
  else if c = 98 then some 8
  else if c = 116 then some 9
  else if c = 110 then some 10
  else if c = 102 then some 12
  else if c = 114 then some 13
  else none

/-- The byte that the digits after `\u` stand for, below 128. -/
def unicode (a b c d : UInt8) : Option UInt8 :=
  if a = 48 ∧ b = 48 then
    (hexValue c).bind fun h => (hexValue d).bind fun l =>
      if 16 * h + l < 128 then some (UInt8.ofNat (16 * h + l)) else none
  else none

/-- What an escape stands for, from after its backslash, and what follows it. -/
def readEscape : Str → Option (UInt8 × Str)
  | [] => none
  | e :: s =>
    if e = 117 then
      match s with
      | a :: b :: x :: y :: s => (unicode a b x y).map fun v => (v, s)
      | _ => none
    else (unescape e).map fun v => (v, s)

/-- The next byte of a string, `none` for its closing quote, and what follows it. -/
def readByte : Str → Option (Option UInt8 × Str)
  | [] => none
  | c :: s =>
    if c = 34 then some (none, s)
    else if c = 92 then (readEscape s).map fun q => (some q.1, q.2)
    else if c < 32 then none
    else some (some c, s)

theorem readEscape_length {s r : Str} {v : UInt8} (h : readEscape s = some (v, r)) :
    r.length < s.length := by
  unfold readEscape at h
  split at h
  · simp at h
  · split_ifs at h
    · split at h
      · simp only [Option.map_eq_some_iff, Prod.mk.injEq] at h
        obtain ⟨_, _, _, rfl⟩ := h
        simp; omega
      · simp at h
    · simp only [Option.map_eq_some_iff, Prod.mk.injEq] at h
      obtain ⟨_, _, _, rfl⟩ := h
      simp

theorem readByte_length {s r : Str} {v : Option UInt8} (h : readByte s = some (v, r)) :
    r.length < s.length := by
  unfold readByte at h
  split at h
  · simp at h
  · split_ifs at h
    · simp only [Option.some.injEq, Prod.mk.injEq] at h
      simp [← h.2]
    · simp only [Option.map_eq_some_iff, Prod.mk.injEq] at h
      obtain ⟨⟨u, t⟩, hu, _, rfl⟩ := h
      have := readEscape_length hu
      simp only [List.length_cons]; omega
    · simp only [Option.some.injEq, Prod.mk.injEq] at h
      simp [← h.2]

/-- The value of a string from after its opening quote, and what follows it. -/
def readString (s : Str) : Option (Str × Str) :=
  match _h : readByte s with
  | none => none
  | some (none, r) => some ([], r)
  | some (some c, r) => (readString r).map fun q => (c :: q.1, q.2)
termination_by s.length
decreasing_by exact readByte_length _h

theorem readString_close {s r : Str} (h : readByte s = some (none, r)) :
    readString s = some ([], r) := by
  rw [readString]; split <;> simp_all

theorem readString_byte {s r : Str} {c : UInt8} (h : readByte s = some (some c, r)) :
    readString s = (readString r).map fun q => (c :: q.1, q.2) := by
  rw [readString]; split <;> simp_all

theorem readString_none {s : Str} (h : readByte s = none) : readString s = none := by
  rw [readString]; split <;> simp_all

theorem unicode_control {c : UInt8} (h : c < 32) :
    unicode 48 48 (hexDigit (c.toNat / 16)) (hexDigit (c.toNat % 16)) = some c := by
  have key : ∀ n : Fin 32, unicode 48 48 (hexDigit (n / 16 : ℕ)) (hexDigit (n % 16 : ℕ)) =
      some (UInt8.ofNat n) := by decide
  have := key ⟨c.toNat, h⟩
  simpa using this

/-- An escaped byte is read back. -/
theorem readByte_escapeByte (c : UInt8) (s : Str) :
    readByte (escapeByte c ++ s) = some (some c, s) := by
  unfold escapeByte
  split_ifs with h1 h2 h3 h4 h5 h6 h7 h8
  · subst h1; rfl
  · subst h2; rfl
  · subst h3; rfl
  · subst h4; rfl
  · subst h5; rfl
  · subst h6; rfl
  · subst h7; rfl
  · simp [readByte, readEscape, unicode_control h8]
  · simp [readByte, h1, h2, h8]

theorem readString_quoteText (s r : Str) :
    readString (s.flatMap escapeByte ++ 34 :: r) = some (s, r) := by
  induction s with
  | nil => exact readString_close rfl
  | cons c s ih =>
    rw [List.flatMap_cons, List.append_assoc, readString_byte (readByte_escapeByte _ _), ih]
    rfl

theorem readString_length {s : Str} : ∀ {v r : Str}, readString s = some (v, r) →
    v.length + r.length < s.length := by
  induction hn : s.length using Nat.strong_induction_on generalizing s with
  | _ n ih =>
  intro v r h
  rcases hb : readByte s with _ | ⟨_ | c, t⟩
  · simp [readString_none hb] at h
  · rw [readString_close hb] at h
    simp only [Option.some.injEq, Prod.mk.injEq] at h
    have := readByte_length hb
    simp only [← h.1, ← h.2, List.length_nil]; omega
  · rw [readString_byte hb] at h
    simp only [Option.map_eq_some_iff, Prod.mk.injEq] at h
    obtain ⟨⟨v', r'⟩, hv, rfl, rfl⟩ := h
    have hlt := readByte_length hb
    have := ih t.length (by omega) rfl hv
    simp only [List.length_cons]; omega

/-! ## Documents -/

mutual

def dumpText : Json → Str
  | .null => lit "null"
  | .bool true => lit "true"
  | .bool false => lit "false"
  | .int n => intText n
  | .float n => intText n ++ lit ".0"
  | .str s => quoteText s
  | .arr [] => lit "[]"
  | .arr (j :: js) => 91 :: (dumpText j ++ dumpItems js)
  | .obj [] => [123, 125]
  | .obj ((k, v) :: fs) => 123 :: (quoteText k ++ 58 :: (dumpText v ++ dumpFields fs))

/-- The rest of an array: its other items and the closing bracket. -/
def dumpItems : List Json → Str
  | [] => [93]
  | j :: js => 44 :: (dumpText j ++ dumpItems js)

/-- The rest of an object. -/
def dumpFields : List (Str × Json) → Str
  | [] => [125]
  | (k, v) :: fs => 44 :: (quoteText k ++ 58 :: (dumpText v ++ dumpFields fs))

end

/-- An integer of 64 bits that no fraction or exponent follows. -/
def readNumber (s : Str) : Option (Json × Str) :=
  let (neg, s) := match s with
    | 45 :: s => (true, s)
    | s => (false, s)
  let ds := s.takeWhile isDigit
  let r := s.dropWhile isDigit
  let n : ℤ := if neg then -(readNat ds) else readNat ds
  if ds = [] ∨ n < -2 ^ 63 ∨ 2 ^ 64 ≤ n ∨ r.head?.any (fun c => c == 46 || c == 69 || c == 101) then none
  else some (.int n, r)

/-- What follows a word, if the text begins with it. -/
def readWord (w s : Str) : Option Str := if w <+: s then some (s.drop w.length) else none

mutual

def parseValue : ℕ → Str → Option (Json × Str)
  | 0, _ => none
  | _ + 1, [] => none
  | fuel + 1, c :: s =>
    if c = 34 then (readString s).map fun q => (.str q.1, q.2)
    else if c = 91 then
      if s.head? = some 93 then some (.arr [], s.tail)
      else
        match parseValue fuel s with
        | some (j, s) => (parseItems fuel s).map fun q => (.arr (j :: q.1), q.2)
        | none => none
    else if c = 123 then
      if s.head? = some 125 then some (.obj [], s.tail)
      else
        (parseField fuel s).bind fun (f, s) => (parseFields fuel s).map fun q =>
          (.obj ((f :: q.1).foldl (fun fs f => setField fs f.1 f.2) []), q.2)
    else if c = 110 then (readWord (lit "ull") s).map fun s => (.null, s)
    else if c = 116 then (readWord (lit "rue") s).map fun s => (.bool true, s)
    else if c = 102 then (readWord (lit "alse") s).map fun s => (.bool false, s)
    else readNumber (c :: s)

def parseItems : ℕ → Str → Option (List Json × Str)
  | 0, _ => none
  | _ + 1, [] => none
  | fuel + 1, c :: s =>
    if c = 93 then some ([], s)
    else if c = 44 then
      match parseValue fuel s with
      | some (j, s) => (parseItems fuel s).map fun q => (j :: q.1, q.2)
      | none => none
    else none

/-- A key, a colon and a value. -/
def parseField : ℕ → Str → Option ((Str × Json) × Str)
  | 0, _ => none
  | fuel + 1, s =>
    if s.head? = some 34 then
      (readString s.tail).bind fun (k, s) =>
        if s.head? = some 58 then (parseValue fuel s.tail).map fun q => ((k, q.1), q.2) else none
    else none

def parseFields : ℕ → Str → Option (List (Str × Json) × Str)
  | 0, _ => none
  | _ + 1, [] => none
  | fuel + 1, c :: s =>
    if c = 125 then some ([], s)
    else if c = 44 then
      (parseField fuel s).bind fun (f, s) => (parseFields fuel s).map fun q => (f :: q.1, q.2)
    else none

end

/-! ## What is written is read back -/

theorem lit_words : lit "null" = [110, 117, 108, 108] ∧ lit "true" = [116, 114, 117, 101] ∧
    lit "false" = [102, 97, 108, 115, 101] ∧ lit "[]" = [91, 93] ∧ lit "ull" = [117, 108, 108] ∧
    lit "rue" = [114, 117, 101] ∧ lit "alse" = [97, 108, 115, 101] := by decide

/-- The text does not continue a number. -/
def NumEnd (r : Str) : Prop :=
  ∀ c, r.head? = some c → isDigit c = false ∧ c ≠ 46 ∧ c ≠ 69 ∧ c ≠ 101

theorem numEnd_cons {c : UInt8} {r : Str} (h : isDigit c = false ∧ c ≠ 46 ∧ c ≠ 69 ∧ c ≠ 101) :
    NumEnd (c :: r) := fun d hd => by cases hd; exact h

theorem numEnd_dumpItems (js : List Json) (r : Str) : NumEnd (dumpItems js ++ r) := by
  cases js <;> exact numEnd_cons (by decide)

theorem numEnd_dumpFields (fs : List (Str × Json)) (r : Str) : NumEnd (dumpFields fs ++ r) := by
  rcases fs with _ | ⟨⟨k, v⟩, fs⟩ <;> exact numEnd_cons (by decide)

theorem readNumber_intText {n : ℤ} {r : Str} (hn : -2 ^ 63 ≤ n ∧ n < 2 ^ 64) (hr : NumEnd r) :
    readNumber (intText n ++ r) = some (.int n, r) := by
  have hds := natText_digits n.natAbs
  have htake : (natText n.natAbs ++ r).takeWhile isDigit = natText n.natAbs :=
    takeWhile_digits hds fun c hc => (hr c hc).1
  have hdrop : (natText n.natAbs ++ r).dropWhile isDigit = r := by
    rw [List.dropWhile_append_of_pos hds]
    cases r with
    | nil => rfl
    | cons c r => simp [(hr c rfl).1]
  have hany : r.head?.any (fun c => c == 46 || c == 69 || c == 101) = false := by
    cases r with
    | nil => rfl
    | cons c r => obtain ⟨-, h1, h2, h3⟩ := hr c rfl; simp [h1, h2, h3]
  by_cases hneg : n < 0
  · have hval : -((n.natAbs : ℕ) : ℤ) = n := by omega
    rw [intText, if_pos hneg]
    simp only [readNumber, List.cons_append, htake, hdrop, natText_ne_nil, readNat_natText, if_true,
      hval, hany]
    rw [if_neg (by simp; omega)]
  · have hval : ((n.natAbs : ℕ) : ℤ) = n := by omega
    obtain ⟨c, t, hc, hd⟩ := exists_natText_cons n.natAbs
    have hne : c ≠ 45 := (isDigit_not_sign hd).1
    have hsign : (match natText n.natAbs ++ r with
        | 45 :: s => (true, s)
        | s => (false, s)) = (false, natText n.natAbs ++ r) := by
      rw [hc]; split <;> simp_all
    rw [intText, if_neg hneg]
    simp only [readNumber, hsign, htake, hdrop, natText_ne_nil, readNat_natText,
      Bool.false_eq_true, if_false, hval, hany]
    rw [if_neg (by simp; omega)]

theorem parseValue_number {fuel : ℕ} {n : ℤ} {r : Str} (hn : -2 ^ 63 ≤ n ∧ n < 2 ^ 64)
    (hr : NumEnd r) : parseValue (fuel + 1) (intText n ++ r) = some (.int n, r) := by
  have hnum := readNumber_intText hn hr
  have hhead : ∃ c t, intText n = c :: t ∧ (isDigit c = true ∨ c = 45) := by
    unfold intText
    split_ifs
    · exact ⟨_, _, rfl, Or.inr rfl⟩
    · obtain ⟨c, t, hc, hd⟩ := exists_natText_cons n.natAbs
      exact ⟨c, t, hc, Or.inl hd⟩
  obtain ⟨c, t, hc, hd⟩ := hhead
  have hne : ∀ d : UInt8, isDigit d = false → d ≠ 45 → c ≠ d := by
    rintro d h1 h2 rfl
    rcases hd with hd | hd
    · simp [h1] at hd
    · exact h2 hd
  rw [hc, List.cons_append] at hnum ⊢
  rw [parseValue, if_neg (hne 34 rfl (by decide)), if_neg (hne 91 rfl (by decide)),
    if_neg (hne 123 rfl (by decide)), if_neg (hne 110 rfl (by decide)),
    if_neg (hne 116 rfl (by decide)), if_neg (hne 102 rfl (by decide)), hnum]

/-- No value begins with a closing bracket. -/
theorem dumpText_head (j : Json) (r : Str) : (dumpText j ++ r).head? ≠ some 93 := by
  have hint : ∀ n r, (intText n ++ r).head? ≠ some 93 := by
    intro n r
    unfold intText
    split_ifs
    · simp
    · obtain ⟨c, t, hc, hd⟩ := exists_natText_cons n.natAbs
      rw [hc]
      simp only [List.cons_append, List.head?_cons, ne_eq, Option.some.injEq]
      rintro rfl
      exact absurd hd (by decide)
  unfold dumpText
  split
  case h_5 n => rw [List.append_assoc]; exact hint n _
  case h_4 n => exact hint n r
  all_goals simp [lit_words, quoteText]

theorem quoteText_append (k r : Str) :
    quoteText k ++ r = 34 :: (k.flatMap escapeByte ++ 34 :: r) := by simp [quoteText]

theorem parseField_dumpText {fuel : ℕ} {k r : Str} {v : Json}
    (h : parseValue fuel (dumpText v ++ r) = some (v, r)) :
    parseField (fuel + 1) (quoteText k ++ 58 :: (dumpText v ++ r)) = some ((k, v), r) := by
  rw [parseField, quoteText_append]
  simp [readString_quoteText, h]

mutual

/-- **What is written is read back**, and nothing after it. -/
theorem parseValue_dumpText : ∀ {j : Json} {fuel : ℕ} {r : Str}, j.Plain → NumEnd r →
    (dumpText j).length ≤ fuel → parseValue fuel (dumpText j ++ r) = some (j, r)
  | .null, fuel + 1, r, _, _, _ => by simp [dumpText, lit_words, parseValue, readWord]
  | .bool true, fuel + 1, r, _, _, _ => by simp [dumpText, lit_words, parseValue, readWord]
  | .bool false, fuel + 1, r, _, _, _ => by simp [dumpText, lit_words, parseValue, readWord]
  | .int n, fuel + 1, r, hp, hr, _ => by rw [dumpText]; exact parseValue_number hp hr
  | .float n, _, _, hp, _, _ => by simp [Plain] at hp
  | .str s, fuel + 1, r, _, _, _ => by
    rw [dumpText, quoteText_append, parseValue, if_pos rfl, readString_quoteText]
    rfl
  | .arr [], fuel + 1, r, _, _, _ => by simp [dumpText, lit_words, parseValue]
  | .arr (j :: js), fuel + 1, r, hp, _, hf => by
    simp only [Plain, PlainItems] at hp
    simp only [dumpText, List.length_cons, List.length_append] at hf
    have hj := parseValue_dumpText (r := dumpItems js ++ r) hp.1 (numEnd_dumpItems js r)
      (show (dumpText j).length ≤ fuel by omega)
    have hjs := parseItems_dumpItems (r := r) hp.2 (show (dumpItems js).length ≤ fuel by omega)
    rw [dumpText, List.cons_append, List.append_assoc, parseValue, if_neg (by decide), if_pos rfl,
      if_neg (dumpText_head _ _), hj]
    simp only [hjs, Option.map_some]
  | .obj [], fuel + 1, r, _, _, _ => by simp [dumpText, parseValue]
  | .obj ((k, v) :: fs), fuel + 1, r, hp, _, hf => by
    have hsorted := hp
    simp only [Plain, PlainFields] at hp
    simp only [dumpText, List.length_cons, List.length_append] at hf
    obtain ⟨fuel, rfl⟩ : ∃ n, fuel = n + 1 := Nat.exists_eq_succ_of_ne_zero (by omega)
    have hv := parseValue_dumpText (r := dumpFields fs ++ r) hp.2.1 (numEnd_dumpFields fs r)
      (show (dumpText v).length ≤ fuel by omega)
    have hfs := parseFields_dumpFields (r := r) hp.2.2
      (show (dumpFields fs).length ≤ fuel + 1 by omega)
    have hhead : (quoteText k ++ 58 :: (dumpText v ++ (dumpFields fs ++ r))).head? ≠ some 125 := by
      simp [quoteText]
    rw [dumpText, List.cons_append, List.append_assoc, List.cons_append, List.append_assoc,
      parseValue, if_neg (by decide), if_neg (by decide), if_pos rfl, if_neg hhead,
      parseField_dumpText hv]
    simp only [Option.bind_some, hfs, Option.map_some]
    rw [foldl_setField (by simpa using hsorted.1)]
    rfl
  | .null, 0, _, _, _, hf | .bool true, 0, _, _, _, hf | .bool false, 0, _, _, _, hf => by
    simp [dumpText, lit] at hf
  | .int n, 0, _, _, _, hf => by
    have hne : intText n ≠ [] := by unfold intText; split_ifs <;> simp [natText_ne_nil]
    simp [dumpText, hne] at hf
  | .str _, 0, _, _, _, hf => by simp [dumpText, quoteText] at hf
  | .arr [], 0, _, _, _, hf | .arr (_ :: _), 0, _, _, _, hf => by simp [dumpText, lit] at hf
  | .obj [], 0, _, _, _, hf | .obj (_ :: _), 0, _, _, _, hf => by simp [dumpText] at hf

theorem parseItems_dumpItems : ∀ {js : List Json} {fuel : ℕ} {r : Str}, PlainItems js →
    (dumpItems js).length ≤ fuel → parseItems fuel (dumpItems js ++ r) = some (js, r)
  | [], fuel + 1, r, _, _ => by simp [dumpItems, parseItems]
  | j :: js, fuel + 1, r, hp, hf => by
    simp only [PlainItems] at hp
    simp only [dumpItems, List.length_cons, List.length_append] at hf
    have hj := parseValue_dumpText (r := dumpItems js ++ r) hp.1 (numEnd_dumpItems js r)
      (show (dumpText j).length ≤ fuel by omega)
    have hjs := parseItems_dumpItems (r := r) hp.2 (show (dumpItems js).length ≤ fuel by omega)
    rw [dumpItems, List.cons_append, List.append_assoc, parseItems, if_neg (by decide), if_pos rfl,
      hj]
    simp only [hjs, Option.map_some]
  | [], 0, _, _, hf | _ :: _, 0, _, _, hf => by simp [dumpItems] at hf

theorem parseFields_dumpFields : ∀ {fs : List (Str × Json)} {fuel : ℕ} {r : Str}, PlainFields fs →
    (dumpFields fs).length ≤ fuel → parseFields fuel (dumpFields fs ++ r) = some (fs, r)
  | [], fuel + 1, r, _, _ => by simp [dumpFields, parseFields]
  | (k, v) :: fs, fuel + 1, r, hp, hf => by
    simp only [PlainFields] at hp
    simp only [dumpFields, List.length_cons, List.length_append] at hf
    obtain ⟨fuel, rfl⟩ : ∃ n, fuel = n + 1 := Nat.exists_eq_succ_of_ne_zero (by omega)
    have hv := parseValue_dumpText (r := dumpFields fs ++ r) hp.1 (numEnd_dumpFields fs r)
      (show (dumpText v).length ≤ fuel by omega)
    have hfs := parseFields_dumpFields (r := r) hp.2
      (show (dumpFields fs).length ≤ fuel + 1 by omega)
    rw [dumpFields, List.cons_append, List.append_assoc, List.cons_append, List.append_assoc,
      parseFields, if_neg (by decide), if_pos rfl, parseField_dumpText hv]
    simp only [Option.bind_some, hfs, Option.map_some]
  | [], 0, _, _, hf | _ :: _, 0, _, _, hf => by simp [dumpFields] at hf

end

/-! ## The strings of a document are shorter than its text -/

theorem sizeFields_setField (fs : List (Str × Json)) (k : Str) (v : Json) :
    sizeFields (setField fs k v) ≤ sizeFields fs + v.size := by
  induction fs with
  | nil => simp [setField, sizeFields]
  | cons f fs ih =>
    obtain ⟨k', v'⟩ := f
    unfold setField
    split_ifs <;> simp only [sizeFields] <;> omega

theorem sizeFields_foldl (fs gs : List (Str × Json)) :
    sizeFields (fs.foldl (fun gs f => setField gs f.1 f.2) gs) ≤ sizeFields gs + sizeFields fs := by
  induction fs generalizing gs with
  | nil => simp [sizeFields]
  | cons f fs ih =>
    have h1 := ih (setField gs f.1 f.2)
    have h2 := sizeFields_setField gs f.1 f.2
    simp only [List.foldl_cons, sizeFields]
    omega

theorem readNumber_size {s r : Str} {j : Json} (h : readNumber s = some (j, r)) :
    j.size + r.length ≤ s.length := by
  unfold readNumber at h
  have hsplit : ∀ t : Str, (t.dropWhile isDigit).length ≤ t.length := fun t =>
    (List.dropWhile_suffix isDigit).length_le
  split at h
  rename_i neg t hm
  have ht : t.length ≤ s.length := by
    split at hm <;> simp only [Prod.mk.injEq] at hm <;> simp [← hm.2]
  simp only at h
  have := hsplit t
  split_ifs at h <;>
  · simp only [Option.some.injEq, Prod.mk.injEq] at h
    obtain ⟨rfl, rfl⟩ := h
    simp only [size]
    omega

theorem readWord_length {w s r : Str} (h : readWord w s = some r) : r.length ≤ s.length := by
  unfold readWord at h
  split_ifs at h
  cases h
  simp

theorem parse_size_aux (fuel : ℕ) :
    (∀ s j r, parseValue fuel s = some (j, r) → j.size + r.length ≤ s.length) ∧
    (∀ s js r, parseItems fuel s = some (js, r) → sizeItems js + r.length ≤ s.length) ∧
    (∀ s f r, parseField fuel s = some (f, r) → f.2.size + r.length ≤ s.length) ∧
    (∀ s fs r, parseFields fuel s = some (fs, r) → sizeFields fs + r.length ≤ s.length) := by
  induction fuel with
  | zero => simp [parseValue, parseItems, parseField, parseFields]
  | succ fuel ih =>
    obtain ⟨ihv, ihi, ihf, ihs⟩ := ih
    refine ⟨?value, ?items, ?field, ?fields⟩
    case value =>
      intro s j r h
      rcases s with _ | ⟨c, s⟩
      · simp [parseValue] at h
      · simp only [parseValue] at h
        split_ifs at h with h1 h2 h3 h4 h5 h6 h7 h8
        · simp only [Option.map_eq_some_iff, Prod.mk.injEq] at h
          obtain ⟨⟨v, t⟩, hv, rfl, rfl⟩ := h
          have := readString_length hv
          simp only [size, List.length_cons]; omega
        · simp only [Option.some.injEq, Prod.mk.injEq] at h
          obtain ⟨rfl, rfl⟩ := h
          simp [size, sizeItems]; omega
        · split at h
          · rename_i j' t hj
            simp only [Option.map_eq_some_iff, Prod.mk.injEq] at h
            obtain ⟨⟨js, u⟩, hi, rfl, rfl⟩ := h
            have := ihv _ _ _ hj
            have := ihi _ _ _ hi
            simp only [size, sizeItems, List.length_cons]; omega
          · simp at h
        · simp only [Option.some.injEq, Prod.mk.injEq] at h
          obtain ⟨rfl, rfl⟩ := h
          simp [size, sizeFields]; omega
        · simp only [Option.bind_eq_some_iff, Option.map_eq_some_iff, Prod.mk.injEq] at h
          obtain ⟨⟨f, t⟩, hf, ⟨fs, u⟩, hs, rfl, rfl⟩ := h
          simp only at hs
          have := ihf _ _ _ hf
          have := ihs _ _ _ hs
          have := sizeFields_foldl (f :: fs) []
          simp only [size, sizeFields, List.length_cons] at this ⊢; omega
        all_goals first
          | exact readNumber_size h
          | (simp only [Option.map_eq_some_iff, Prod.mk.injEq] at h
             obtain ⟨t, ht, rfl, rfl⟩ := h
             have := readWord_length ht
             simp only [size, List.length_cons]; omega)
    case items =>
      intro s js r h
      rcases s with _ | ⟨c, s⟩
      · simp [parseItems] at h
      · simp only [parseItems] at h
        split_ifs at h
        · simp only [Option.some.injEq, Prod.mk.injEq] at h
          obtain ⟨rfl, rfl⟩ := h
          simp [sizeItems]
        · split at h
          · rename_i j' t hj
            simp only [Option.map_eq_some_iff, Prod.mk.injEq] at h
            obtain ⟨⟨js, u⟩, hi, rfl, rfl⟩ := h
            have := ihv _ _ _ hj
            have := ihi _ _ _ hi
            simp only [sizeItems, List.length_cons]; omega
          · simp at h
    case field =>
      intro s f r h
      simp only [parseField] at h
      split_ifs at h
      simp only [Option.bind_eq_some_iff] at h
      obtain ⟨⟨k, t⟩, hk, h⟩ := h
      simp only at h
      split_ifs at h
      simp only [Option.map_eq_some_iff, Prod.mk.injEq] at h
      obtain ⟨⟨v, u⟩, hv, rfl, rfl⟩ := h
      have := readString_length hk
      have := ihv _ _ _ hv
      simp only [List.length_tail] at *
      omega
    case fields =>
      intro s fs r h
      rcases s with _ | ⟨c, s⟩
      · simp [parseFields] at h
      · simp only [parseFields] at h
        split_ifs at h
        · simp only [Option.some.injEq, Prod.mk.injEq] at h
          obtain ⟨rfl, rfl⟩ := h
          simp [sizeFields]
        · simp only [Option.bind_eq_some_iff, Option.map_eq_some_iff, Prod.mk.injEq] at h
          obtain ⟨⟨f, t⟩, hf, ⟨fs, u⟩, hs, rfl, rfl⟩ := h
          simp only at hs
          have := ihf _ _ _ hf
          have := ihs _ _ _ hs
          simp only [sizeFields, List.length_cons]; omega

/-! ## The library -/

/-- The document that a text spells, if nothing follows it and its strings are UTF-8. -/
def parseText (t : Str) : Option Json :=
  match parseValue (t.length + 1) t with
  | some (j, []) => if j.Utf8 then some j else none
  | _ => none

/-- **Compact texts are a JSON library.** -/
def jsonText : JsonLib where
  parse := parseText
  dump j := if j.Utf8 then some (dumpText j) else none
  parse_dump := by
    intro j t hp h
    split_ifs at h with hu
    cases h
    have := parseValue_dumpText (r := []) hp (fun c hc => by cases hc)
      (Nat.le_succ (dumpText j).length)
    rw [List.append_nil] at this
    simp [parseText, this, hu]
  dump_utf8 := by intro j _ hu; simp [hu]
  parse_size := by
    intro t j h
    unfold parseText at h
    split at h
    · rename_i j' hv
      split_ifs at h
      cases h
      simpa using (parse_size_aux _).1 _ _ _ hv
    · cases h

/-! ## What is written is UTF-8 -/

theorem ascii_natText (n : ℕ) : ∀ c ∈ natText n, c < 0x80 := by
  have key : ∀ n : Fin 256, isDigit (UInt8.ofNat n) = true → UInt8.ofNat n < 0x80 := by decide +kernel
  intro c hc
  have := key ⟨c.toNat, c.toNat_lt⟩
  simp only [UInt8.ofNat_toNat] at this
  exact this (natText_digits n c hc)

theorem ascii_intText (n : ℤ) : ∀ c ∈ intText n, c < 0x80 := by
  intro c hc
  unfold intText at hc
  split_ifs at hc
  · rcases List.mem_cons.1 hc with rfl | hc
    · decide
    · exact ascii_natText _ c hc
  · exact ascii_natText _ c hc

theorem ascii_escapeByte {c : UInt8} (hc : c < 0x80) : ∀ b ∈ escapeByte c, b < 0x80 := by
  have key : ∀ n : Fin 128, (escapeByte (UInt8.ofNat n)).all (· < 0x80) = true := by decide +kernel
  have hall := key ⟨c.toNat, hc⟩
  rw [UInt8.ofNat_toNat, List.all_eq_true] at hall
  exact fun b hb => of_decide_eq_true (hall b hb)

theorem escapeByte_other {c : UInt8} (hc : ¬ c < 0x80) : escapeByte c = [c] := by
  have key : ∀ n : Fin 256, ¬ UInt8.ofNat n < 0x80 → escapeByte (UInt8.ofNat n) = [UInt8.ofNat n] := by
    decide +kernel
  have := key ⟨c.toNat, c.toNat_lt⟩
  simp only [UInt8.ofNat_toNat] at this
  exact this hc

theorem utf8_quoteText {s t : Str} (hs : validUtf8 s = true) (ht : validUtf8 t = true) :
    validUtf8 (quoteText s ++ t) = true := by
  have hend : validUtf8 (34 :: t) = true := (validUtf8_ascii (by decide) t).trans ht
  have hbody := validUtf8_flatMap (fun c hc => validUtf8_ascii_append (ascii_escapeByte hc))
    (fun c hc => escapeByte_other hc) hs hend
  rw [quoteText, List.cons_append, validUtf8_ascii (by decide), List.append_assoc]
  exact hbody

mutual

/-- What follows a value decides. -/
theorem utf8_dumpText {t : Str} (ht : validUtf8 t = true) : ∀ {j : Json}, j.Utf8 = true →
    validUtf8 (dumpText j ++ t) = true
  | .null, _ | .bool true, _ | .bool false, _ | .arr [], _ => by
    rw [dumpText, validUtf8_ascii_append (by decide +kernel), ht]
  | .obj [], _ => by rw [dumpText, validUtf8_ascii_append (by decide +kernel), ht]
  | .int n, _ => by rw [dumpText, validUtf8_ascii_append (ascii_intText n), ht]
  | .float n, _ => by
    rw [dumpText, List.append_assoc, validUtf8_ascii_append (ascii_intText n),
      validUtf8_ascii_append (by decide +kernel), ht]
  | .str s, h => by
    rw [dumpText]
    exact utf8_quoteText h ht
  | .arr (j :: js), h => by
    simp only [Utf8, Utf8Items, Bool.and_eq_true] at h
    rw [dumpText, List.cons_append, validUtf8_ascii (by decide), List.append_assoc]
    exact utf8_dumpText (utf8_dumpItems ht h.2) h.1
  | .obj ((k, v) :: fs), h => by
    simp only [Utf8, Utf8Fields, Bool.and_eq_true] at h
    rw [dumpText, List.cons_append, validUtf8_ascii (by decide), List.append_assoc, List.cons_append]
    refine utf8_quoteText h.1.1 ?_
    rw [validUtf8_ascii (by decide), List.append_assoc]
    exact utf8_dumpText (utf8_dumpFields ht h.2) h.1.2

theorem utf8_dumpItems {t : Str} (ht : validUtf8 t = true) : ∀ {js : List Json},
    Utf8Items js = true → validUtf8 (dumpItems js ++ t) = true
  | [], _ => by rw [dumpItems, validUtf8_ascii_append (by decide +kernel), ht]
  | j :: js, h => by
    simp only [Utf8Items, Bool.and_eq_true] at h
    rw [dumpItems, List.cons_append, validUtf8_ascii (by decide), List.append_assoc]
    exact utf8_dumpText (utf8_dumpItems ht h.2) h.1

theorem utf8_dumpFields {t : Str} (ht : validUtf8 t = true) : ∀ {fs : List (Str × Json)},
    Utf8Fields fs = true → validUtf8 (dumpFields fs ++ t) = true
  | [], _ => by rw [dumpFields, validUtf8_ascii_append (by decide +kernel), ht]
  | (k, v) :: fs, h => by
    simp only [Utf8Fields, Bool.and_eq_true] at h
    rw [dumpFields, List.cons_append, validUtf8_ascii (by decide), List.append_assoc, List.cons_append]
    refine utf8_quoteText h.1.1 ?_
    rw [validUtf8_ascii (by decide), List.append_assoc]
    exact utf8_dumpText (utf8_dumpFields ht h.2) h.1.2

end

/-- **Compact texts are UTF-8**, and are written of nothing else. -/
theorem jsonText_strict : jsonText.Strict where
  throws := by
    intro j t h
    have hdump : (if j.Utf8 then some (dumpText j) else none) = some t := h
    split_ifs at hdump with hu
    exact hu
  utf8 := by
    intro j t h
    have hdump : (if j.Utf8 then some (dumpText j) else none) = some t := h
    split_ifs at hdump with hu
    obtain rfl := Option.some.inj hdump
    have hnil : validUtf8 [] = true := rfl
    have := utf8_dumpText hnil hu
    rwa [List.append_nil] at this

end Lib.Json
