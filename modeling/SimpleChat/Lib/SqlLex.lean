/-
  The tokens of SQL texts.

  * `lex`: by SQLite's rules: blanks separate tokens, words are folded to lower
    case, a string literal runs from a quote to the next quote that is not
    doubled, and a doubled quote in it stands for one quote.  Comments, blobs,
    quoted names, numbers that are not plain decimal integers and operators that
    no statement here uses are outside the fragment (`none`);
  * `lex_append`: a text that ends in a blank or a separator is lexed on its own,
    whatever follows it: the compositional form in which generated statements
    are lexed;
  * `lex_word`, `lex_int`, `lex_str`: the parts of a statement that vary.
-/
import SimpleChat.Lib.Text

namespace Lib.Sql

/-! ## Tokens -/

inductive Tok where
  | word (s : Str)
  | num (n : ℕ)
  | str (s : Str)
  | sym (c : UInt8)
  | le
  | ge
  deriving DecidableEq, Repr

/-- The single quote. -/
def quote : UInt8 := 39

def isIdStart (b : UInt8) : Bool :=
  (65 ≤ b && b ≤ 90) || (97 ≤ b && b ≤ 122) || b == 95 || 128 ≤ b

def isIdChar (b : UInt8) : Bool := isIdStart b || isDigit b || b == 36

/-- `( ) , ; = *` -/
def isSym (b : UInt8) : Bool := b == 40 || b == 41 || b == 44 || b == 59 || b == 61 || b == 42

def lower (b : UInt8) : UInt8 := if 65 ≤ b && b ≤ 90 then b + 32 else b

/-- The value of a string literal from after its opening quote, and what
    follows its closing one. -/
def readStr : Str → Option (Str × Str)
  | [] => none
  | [c] => if c = quote then some ([], []) else none
  | c :: d :: s =>
    if c = quote then
      if d = quote then (readStr s).map fun q => (quote :: q.1, q.2) else some ([], d :: s)
    else (readStr (d :: s)).map fun q => (c :: q.1, q.2)

/-- The first token of a text (none for a blank), and what follows it. -/
def lexStep : Str → Option (List Tok × Str)
  | [] => none
  | c :: s =>
    if isSpace c then some ([], s)
    else if c = quote then (readStr s).map fun q => ([.str q.1], q.2)
    else if isIdStart c then
      let w := (c :: s).takeWhile isIdChar
      let r := (c :: s).dropWhile isIdChar
      if r.head? = some quote ∧ w.map lower = [120] then none else some ([.word (w.map lower)], r)
    else if isDigit c then
      let w := (c :: s).takeWhile isDigit
      let r := (c :: s).dropWhile isDigit
      if r.head?.any fun d => isIdChar d || d == 46 then none else some ([.num (readNat w)], r)
    else if c = 45 then if s.head? = some 45 then none else some ([.sym c], s)
    else if c = 60 ∧ s.head? = some 61 then some ([.le], s.tail)
    else if c = 62 ∧ s.head? = some 61 then some ([.ge], s.tail)
    else if isSym c then some ([.sym c], s)
    else none

/-- A string literal ends with its closing quote. -/
theorem readStr_eq : ∀ {s v r : Str}, readStr s = some (v, r) → ∃ u, s = u ++ quote :: r
  | [], _, _, h => by simp [readStr] at h
  | [c], v, r, h => by
    simp only [readStr] at h
    split_ifs at h with hc
    simp only [Option.some.injEq, Prod.mk.injEq] at h
    exact ⟨[], by rw [hc, ← h.2]; rfl⟩
  | c :: d :: s, v, r, h => by
    simp only [readStr] at h
    split_ifs at h with hc hd
    · obtain ⟨⟨v', t⟩, hu, he⟩ := Option.map_eq_some_iff.1 h
      obtain ⟨u, hs⟩ := readStr_eq hu
      simp only [Prod.mk.injEq] at he
      exact ⟨c :: d :: u, by rw [hs, ← he.2]; rfl⟩
    · simp only [Option.some.injEq, Prod.mk.injEq] at h
      exact ⟨[], by rw [hc, ← h.2]; rfl⟩
    · obtain ⟨⟨v', t⟩, hu, he⟩ := Option.map_eq_some_iff.1 h
      obtain ⟨u, hs⟩ := readStr_eq hu
      simp only [Prod.mk.injEq] at he
      exact ⟨c :: u, by rw [hs, ← he.2]; rfl⟩

theorem readStr_append : ∀ {s v r : Str}, readStr s = some (v, r) → r ≠ [] → ∀ t,
    readStr (s ++ t) = some (v, r ++ t)
  | [], _, _, h, _, _ => by simp [readStr] at h
  | [c], v, r, h, hr, t => by
    simp only [readStr] at h
    split_ifs at h
    simp only [Option.some.injEq, Prod.mk.injEq] at h
    exact absurd h.2.symm hr
  | c :: d :: s, v, r, h, hr, t => by
    simp only [readStr] at h
    simp only [List.cons_append, readStr]
    split_ifs at h ⊢
    · obtain ⟨⟨v', r'⟩, hu, he⟩ := Option.map_eq_some_iff.1 h
      simp only [Prod.mk.injEq] at he
      rw [readStr_append hu (he.2 ▸ hr) t, ← he.1, ← he.2]; rfl
    · simp only [Option.some.injEq, Prod.mk.injEq] at h
      simp [← h.1, ← h.2]
    · obtain ⟨⟨v', r'⟩, hu, he⟩ := Option.map_eq_some_iff.1 h
      simp only [Prod.mk.injEq] at he
      have := readStr_append hu (he.2 ▸ hr) t
      rw [List.cons_append] at this
      rw [this, ← he.1, ← he.2]; rfl

/-- What follows the first token, and that something is consumed. -/
theorem lexStep_eq {s r : Str} {ts : List Tok} (h : lexStep s = some (ts, r)) :
    ∃ u, s = u ++ r ∧ u ≠ [] := by
  rcases s with _ | ⟨c, s⟩
  · simp [lexStep] at h
  · have hwhile : ∀ p : UInt8 → Bool, p c = true → ∃ u, c :: s = u ++ (c :: s).dropWhile p ∧ u ≠ [] :=
      fun p hp => ⟨(c :: s).takeWhile p, List.takeWhile_append_dropWhile.symm, by
        rw [List.takeWhile_cons_of_pos hp]; simp⟩
    have hone : s = r → ∃ u, c :: s = u ++ r ∧ u ≠ [] := fun hs => ⟨[c], by rw [hs]; rfl, by simp⟩
    simp only [lexStep] at h
    split_ifs at h with h1 h2 h3 h4 h5 h6 h7 h8 h9 h10 h11
    · simp only [Option.some.injEq, Prod.mk.injEq] at h
      exact hone h.2
    · obtain ⟨⟨v, t⟩, hu, he⟩ := Option.map_eq_some_iff.1 h
      obtain ⟨u, hs⟩ := readStr_eq hu
      simp only [Prod.mk.injEq] at he
      exact ⟨c :: u ++ [quote], by rw [hs, ← he.2]; simp, by simp⟩
    · simp only [Option.some.injEq, Prod.mk.injEq] at h
      rw [← h.2]; exact hwhile _ (by simp [isIdChar, h3])
    · simp only [Option.some.injEq, Prod.mk.injEq] at h
      rw [← h.2]; exact hwhile _ h5
    · simp only [Option.some.injEq, Prod.mk.injEq] at h
      exact hone h.2
    · simp only [Option.some.injEq, Prod.mk.injEq] at h
      obtain ⟨t, ht⟩ := List.head?_eq_some_iff.1 h9.2
      exact ⟨[c, 61], by rw [← h.2, ht]; rfl, by simp⟩
    · simp only [Option.some.injEq, Prod.mk.injEq] at h
      obtain ⟨t, ht⟩ := List.head?_eq_some_iff.1 h10.2
      exact ⟨[c, 61], by rw [← h.2, ht]; rfl, by simp⟩
    · simp only [Option.some.injEq, Prod.mk.injEq] at h
      exact hone h.2

theorem lexStep_length {s r : Str} {ts : List Tok} (h : lexStep s = some (ts, r)) :
    r.length < s.length := by
  obtain ⟨u, rfl, hu⟩ := lexStep_eq h
  have := List.length_pos_iff.2 hu
  simp only [List.length_append]; omega

/-- The tokens of a text. -/
def lex (s : Str) : Option (List Tok) :=
  if s = [] then some []
  else
    match _h : lexStep s with
    | none => none
    | some (ts, r) => (lex r).map (ts ++ ·)
termination_by s.length
decreasing_by exact lexStep_length _h

theorem lex_nil : lex [] = some [] := by rw [lex]; simp

theorem lex_step {s r : Str} {ts : List Tok} (h : lexStep s = some (ts, r)) :
    lex s = (lex r).map (ts ++ ·) := by
  have hne : s ≠ [] := by rintro rfl; simp [lexStep] at h
  rw [lex, if_neg hne]
  split <;> simp_all

theorem lex_none {s : Str} (hne : s ≠ []) (h : lexStep s = none) : lex s = none := by
  rw [lex, if_neg hne]
  split <;> simp_all

/-- `lex` in at most `n` steps, for texts that are given. -/
def lexN : ℕ → Str → Option (List Tok)
  | _, [] => some []
  | 0, _ :: _ => none
  | n + 1, c :: s =>
    match lexStep (c :: s) with
    | some (ts, r) => (lexN n r).map (ts ++ ·)
    | none => none

theorem lex_of_lexN : ∀ (n : ℕ) {s : Str} {ts : List Tok}, lexN n s = some ts → lex s = some ts
  | 0, [], _, h => by rw [lex_nil, ← h, lexN]
  | n + 1, [], _, h => by rw [lex_nil, ← h, lexN]
  | 0, _ :: _, _, h => by cases h
  | n + 1, c :: s, ts, h => by
    rw [lexN] at h
    cases hstep : lexStep (c :: s) with
    | none => rw [hstep] at h; cases h
    | some q =>
      obtain ⟨us, r⟩ := q
      rw [hstep] at h
      obtain ⟨ts', hts', rfl⟩ := Option.map_eq_some_iff.1 h
      rw [lex_step hstep, lex_of_lexN n hts']
      rfl

/-! ## Texts lexed part by part -/

/-- The text ends in a blank or a separator. -/
def Closed (t : Str) : Prop := ∀ c ∈ t.getLast?, isSpace c = true ∨ isSym c = true

instance (t : Str) : Decidable (Closed t) :=
  inferInstanceAs (Decidable (∀ c ∈ t.getLast?, isSpace c = true ∨ isSym c = true))

theorem idChar_open {c : UInt8} (h : isIdChar c = true ∨ c = quote ∨ c = 45) :
    ¬ (isSpace c = true ∨ isSym c = true) := by
  have key : ∀ n : Fin 256, (isIdChar (UInt8.ofNat n) = true ∨ UInt8.ofNat n = quote ∨
      UInt8.ofNat n = 45) → ¬ (isSpace (UInt8.ofNat n) = true ∨ isSym (UInt8.ofNat n) = true) := by
    decide +kernel
  have := key ⟨c.toNat, c.toNat_lt⟩
  simp only [UInt8.ofNat_toNat] at this
  exact this h

theorem dropWhile_append_of_ne {p : UInt8 → Bool} {s : Str} (h : s.dropWhile p ≠ []) (t : Str) :
    (s ++ t).dropWhile p = s.dropWhile p ++ t ∧ (s ++ t).takeWhile p = s.takeWhile p := by
  induction s with
  | nil => simp at h
  | cons c s ih =>
    by_cases hc : p c
    · rw [List.dropWhile_cons_of_pos hc] at h
      simp [hc, ih h]
    · simp [hc]

/-- What is lexed as a whole ends in a byte of its last token. -/
theorem dropWhile_eq_nil {p : UInt8 → Bool} {c : UInt8} {s : Str} (h : (c :: s).dropWhile p = []) :
    ∃ d ∈ (c :: s).getLast?, p d = true := by
  rw [List.dropWhile_eq_nil_iff] at h
  obtain ⟨d, hd⟩ := Option.isSome_iff_exists.1 (List.getLast?_isSome.2 (List.cons_ne_nil c s))
  exact ⟨d, hd, h d (List.mem_of_getLast? hd)⟩

theorem lexStep_append {t r : Str} {ts : List Tok} (h : lexStep t = some (ts, r))
    (hr : r ≠ [] ∨ Closed t) (s : Str) : lexStep (t ++ s) = some (ts, r ++ s) := by
  rcases t with _ | ⟨c, t⟩
  · simp [lexStep] at h
  · have hopen : ∀ {d : UInt8}, d ∈ (c :: t).getLast? → (isIdChar d = true ∨ d = quote ∨ d = 45) →
        ¬ Closed (c :: t) := fun hd hd' hclosed => idChar_open hd' (hclosed _ hd)
    -- a word or a number that does not fill the text is not changed by what follows
    have hrun : ∀ p : UInt8 → Bool, (∀ d, p d = true → isIdChar d = true) →
        (c :: t).dropWhile p = r → r ≠ [] := by
      rintro p hp rfl hnil
      obtain ⟨d, hd, hpd⟩ := dropWhile_eq_nil hnil
      exact hopen hd (Or.inl (hp d hpd)) (hr.resolve_left (not_not.2 hnil))
    have hone : t = r → lexStep (c :: t) = some (ts, r) → c = 45 → t ≠ [] := by
      rintro rfl - hc rfl
      exact hopen (by simp) (Or.inr (Or.inr hc)) (hr.resolve_left (by simp))
    have h' := h
    simp only [lexStep] at h
    simp only [List.cons_append, lexStep]
    by_cases h1 : isSpace c
    · simp only [h1, if_true, Option.some.injEq, Prod.mk.injEq] at h ⊢
      simp [← h.1, ← h.2]
    by_cases h2 : c = quote
    · rw [if_neg h1, if_pos h2] at h ⊢
      obtain ⟨⟨v, r'⟩, hu, he⟩ := Option.map_eq_some_iff.1 h
      simp only [Prod.mk.injEq] at he
      have hne : r' ≠ [] := by
        rintro rfl
        obtain ⟨u, hu'⟩ := readStr_eq hu
        have hlast : quote ∈ (c :: t).getLast? := by
          rw [hu', ← List.cons_append]; exact List.getLast?_concat
        exact hopen hlast (Or.inr (Or.inl rfl)) (hr.resolve_left (by simp [← he.2]))
      rw [readStr_append hu hne s, ← he.1, ← he.2]; rfl
    by_cases h3 : isIdStart c
    · simp only [h1, h2, h3, if_true, if_false, Bool.false_eq_true] at h ⊢
      split_ifs at h with h4
      simp only [Option.some.injEq, Prod.mk.injEq] at h
      have hne := hrun _ (fun _ hd => hd) h.2
      rw [← h.2] at hne
      obtain ⟨hd, ht⟩ := dropWhile_append_of_ne hne s
      rw [← List.cons_append, hd, ht, List.head?_append_of_ne_nil _ hne, if_neg h4, h.1, h.2]
    by_cases h5 : isDigit c
    · simp only [h1, h2, h3, h5, if_true, if_false, Bool.false_eq_true] at h ⊢
      split_ifs at h with h4
      simp only [Option.some.injEq, Prod.mk.injEq] at h
      have hne := hrun isDigit (fun d hd => by simp [isIdChar, hd]) h.2
      rw [← h.2] at hne
      obtain ⟨hd, ht⟩ := dropWhile_append_of_ne hne s
      rw [← List.cons_append, hd, ht, List.head?_append_of_ne_nil _ hne, if_neg h4, h.1, h.2]
    simp only [h1, h2, h3, h5, if_false, Bool.false_eq_true] at h ⊢
    by_cases h6 : c = 45
    · simp only [h6, if_true] at h ⊢
      split_ifs at h with h7
      simp only [Option.some.injEq, Prod.mk.injEq] at h
      have hne := hone h.2 h' h6
      rw [List.head?_append_of_ne_nil _ hne, if_neg h7, h.1, h.2]
    simp only [h6, if_false] at h ⊢
    by_cases h9 : c = 60 ∧ t.head? = some 61
    · obtain ⟨u, rfl⟩ := List.head?_eq_some_iff.1 h9.2
      simp only [h9.1, List.head?_cons, List.tail_cons, and_self, if_true, Option.some.injEq,
        Prod.mk.injEq, List.cons_append] at h ⊢
      rw [h.1, h.2]; simp
    by_cases h10 : c = 62 ∧ t.head? = some 61
    · have h60 : ∀ u : Str, ¬ (c = 60 ∧ u.head? = some 61) := by
        rintro u ⟨hc, -⟩
        rw [h10.1] at hc
        exact absurd hc (by decide)
      obtain ⟨u, rfl⟩ := List.head?_eq_some_iff.1 h10.2
      rw [if_neg (h60 _), if_pos h10, Option.some.injEq, Prod.mk.injEq] at h
      rw [if_neg (h60 _), if_pos ⟨h10.1, rfl⟩, h.1, ← h.2]; rfl
    rw [if_neg h9, if_neg h10] at h
    split_ifs at h with h11
    simp only [Option.some.injEq, Prod.mk.injEq] at h
    have h60 : c ≠ 60 ∧ c ≠ 62 := by
      constructor <;> rintro rfl <;> exact absurd h11 (by decide)
    rw [if_neg (fun hc => h60.1 hc.1), if_neg (fun hc => h60.2 hc.1), if_pos h11, h.1, h.2]

/-- **A closed text is lexed on its own.** -/
theorem lex_append {t : Str} {ts : List Tok} (h : lex t = some ts) (hc : Closed t) (s : Str) :
    lex (t ++ s) = (lex s).map (ts ++ ·) := by
  induction hn : t.length using Nat.strong_induction_on generalizing t ts with
  | _ n ih =>
  rcases hstep : lexStep t with _ | ⟨us, r⟩
  · rcases t with _ | ⟨c, t⟩
    · rw [lex_nil, Option.some.injEq] at h
      subst h
      cases hs : lex s <;> simp [hs]
    · rw [lex_none (List.cons_ne_nil c t) hstep] at h
      cases h
  · rw [lex_step hstep] at h
    obtain ⟨vs, hvs, rfl⟩ := Option.map_eq_some_iff.1 h
    obtain ⟨u, rfl, hu⟩ := lexStep_eq hstep
    rw [lex_step (lexStep_append hstep (Or.inr hc) s)]
    rcases hr : r with _ | ⟨d, r'⟩
    · subst hr
      rw [lex_nil, Option.some.injEq] at hvs
      subst hvs
      simp
    · rw [← hr]
      have hclosed : Closed r := by
        intro d hd
        refine hc d ?_
        rw [List.getLast?_append_of_ne_nil _ (by simp [hr])]
        exact hd
      rw [ih r.length (by rw [← hn]; exact lexStep_length hstep) hvs hclosed rfl, Option.map_map]
      cases lex s <;> simp

/-! ## Words, numbers and strings -/

theorem closed_singleton {d : UInt8} (h : isSpace d = true ∨ isSym d = true) : Closed [d] := by
  intro c hc
  simp only [List.getLast?_singleton, Option.mem_def, Option.some.injEq] at hc
  rwa [← hc]

/-- A blank or a separator ends a word and a number. -/
theorem run_append {p : UInt8 → Bool} (hp : ∀ d, p d = true → isIdChar d = true) {w : Str}
    (hw : ∀ c ∈ w, p c = true) {d : UInt8} (hd : isSpace d = true ∨ isSym d = true) (s : Str) :
    (w ++ d :: s).takeWhile p = w ∧ (w ++ d :: s).dropWhile p = d :: s := by
  have hpd : ¬ p d = true := fun h => idChar_open (Or.inl (hp d h)) hd
  constructor
  · rw [List.takeWhile_append_of_pos hw, List.takeWhile_cons_of_neg hpd, List.append_nil]
  · rw [List.dropWhile_append_of_pos hw, List.dropWhile_cons_of_neg hpd]

/-- A word ends at a byte that cannot be part of one. -/
theorem lex_name {c : UInt8} {w : Str} (hc : isIdStart c = true) (hw : ∀ b ∈ w, isIdChar b = true)
    {d : UInt8} (hd : isIdChar d = false) (hdq : d ≠ quote) (s : Str) :
    lex (c :: w ++ d :: s) = (lex (d :: s)).map ([.word ((c :: w).map lower)] ++ ·) := by
  refine lex_step ?_
  have hcw : ∀ b ∈ c :: w, isIdChar b = true := by
    intro b hb
    rcases List.mem_cons.1 hb with rfl | hb
    · simp [isIdChar, hc]
    · exact hw b hb
  have hspace : ¬ isSpace c = true := fun h => idChar_open (Or.inl (hcw c (by simp))) (Or.inl h)
  have hquote : c ≠ quote := by rintro rfl; exact absurd hc (by decide)
  have htake : (c :: (w ++ d :: s)).takeWhile isIdChar = c :: w := by
    rw [← List.cons_append, List.takeWhile_append_of_pos hcw, List.takeWhile_cons_of_neg (by simp [hd]),
      List.append_nil]
  have hdrop : (c :: (w ++ d :: s)).dropWhile isIdChar = d :: s := by
    rw [← List.cons_append, List.dropWhile_append_of_pos hcw, List.dropWhile_cons_of_neg (by simp [hd])]
  rw [List.cons_append]
  simp only [lexStep, hspace, hquote, hc, htake, hdrop, Bool.false_eq_true, if_false, if_true,
    List.head?_cons, Option.some.injEq, hdq, false_and]

/-- A separator ends a word. -/
theorem idChar_of_sep {d : UInt8} (hd : isSpace d = true ∨ isSym d = true) :
    isIdChar d = false ∧ d ≠ quote := by
  constructor
  · exact Bool.eq_false_iff.2 fun h => idChar_open (Or.inl h) hd
  · rintro rfl
    exact absurd hd (by decide)

theorem lex_nat (n : ℕ) {d : UInt8} (hd : isSpace d = true ∨ isSym d = true) (s : Str) :
    lex (natText n ++ d :: s) = (lex (d :: s)).map ([.num n] ++ ·) := by
  refine lex_step ?_
  obtain ⟨htake, hdrop⟩ := run_append (p := isDigit) (fun d h => by simp [isIdChar, h])
    (natText_digits n) hd s
  obtain ⟨c, w, hw, hc⟩ := exists_natText_cons n
  have hother : ¬ isSpace c = true ∧ c ≠ quote ∧ ¬ isIdStart c = true := by
    have key : ∀ n : Fin 256, isDigit (UInt8.ofNat n) = true → ¬ isSpace (UInt8.ofNat n) = true ∧
        UInt8.ofNat n ≠ quote ∧ ¬ isIdStart (UInt8.ofNat n) = true := by decide +kernel
    have := key ⟨c.toNat, c.toNat_lt⟩
    simp only [UInt8.ofNat_toNat] at this
    exact this hc
  have hdot : ¬ (isIdChar d || d == 46) = true := by
    rw [Bool.or_eq_true, not_or]
    exact ⟨fun h => idChar_open (Or.inl h) hd, fun h => by
      rw [beq_iff_eq] at h; rw [h] at hd; exact absurd hd (by decide)⟩
  have hnat := readNat_natText n
  rw [hw] at htake hdrop hnat ⊢
  simp only [List.cons_append] at htake hdrop ⊢
  simp only [lexStep, hother, hc, htake, hdrop, Bool.false_eq_true, if_false, if_true,
    List.head?_cons, Option.any_some, hdot, hnat]

/-- The tokens of a number. -/
def intToks (z : ℤ) : List Tok :=
  if z < 0 then [.sym 45, .num z.natAbs] else [.num z.natAbs]

theorem lex_int (z : ℤ) {d : UInt8} (hd : isSpace d = true ∨ isSym d = true) (s : Str) :
    lex (intText z ++ d :: s) = (lex (d :: s)).map (intToks z ++ ·) := by
  unfold intText intToks
  split_ifs with hz
  · obtain ⟨c, w, hw, hc⟩ := exists_natText_cons z.natAbs
    have hminus : lexStep (45 :: (natText z.natAbs ++ d :: s)) =
        some ([.sym 45], natText z.natAbs ++ d :: s) := by
      have hc45 : c ≠ 45 := (isDigit_not_sign hc).1
      rw [hw]
      simp only [lexStep, List.cons_append, List.head?_cons, Option.some.injEq, hc45, if_false]
      rfl
    rw [List.cons_append, lex_step hminus, lex_nat _ hd, Option.map_map]
    rfl
  · exact lex_nat _ hd s

/-- A string literal. -/
theorem lex_quote {t v r : Str} (h : readStr t = some (v, r)) :
    lex (quote :: t) = (lex r).map ([.str v] ++ ·) := by
  refine lex_step ?_
  rw [lexStep, if_neg (by decide), if_pos rfl, h]
  rfl

/-- A text without quotes is read up to the quote behind it. -/
theorem readStr_plain {a : Str} (ha : quote ∉ a) {d : UInt8} (hd : d ≠ quote) (s : Str) :
    readStr (a ++ quote :: d :: s) = some (a, d :: s) := by
  induction a with
  | nil => simp [readStr, hd]
  | cons c a ih =>
    simp only [List.mem_cons, not_or] at ha
    have ih := ih ha.2
    rcases hat : a ++ quote :: d :: s with _ | ⟨e, t⟩
    · simp at hat
    · rw [List.cons_append, hat]
      rw [hat] at ih
      simp [readStr, Ne.symm ha.1, ih]

theorem lex_str {a : Str} (ha : quote ∉ a) {d : UInt8} (hd : d ≠ quote) (s : Str) :
    lex (quote :: a ++ quote :: d :: s) = (lex (d :: s)).map ([.str a] ++ ·) :=
  lex_quote (readStr_plain ha hd s)

/-- Quotes that are not doubled come out differently: the induction is on what
    follows `n` quotes that have been read already. -/
theorem readStr_quotes : ∀ (a : Str) (n : ℕ) {r v r' : Str}, r.head? ≠ some quote →
    readStr (a ++ quote :: r) = some (v, r') → v = List.replicate (n + 1) quote ++ a → False
  | [], n, r, v, r', hr, h, hv => by
    rcases r with _ | ⟨d, r⟩
    · simp [readStr] at h
      rw [hv] at h; simp at h
    · have hd : d ≠ quote := fun hd => hr (by rw [hd]; rfl)
      simp [readStr, hd] at h
      rw [hv] at h; simp at h
  | [c], n, r, v, r', hr, h, hv => by
    simp only [List.cons_append, List.nil_append, readStr, if_true] at h
    split_ifs at h with hc
    · obtain ⟨⟨u, t⟩, hu, he⟩ := Option.map_eq_some_iff.1 h
      simp only [Prod.mk.injEq] at he
      -- what follows would have to begin with a quote
      rcases r with _ | ⟨d, r⟩
      · simp [readStr] at hu
      · have hd : d ≠ quote := fun hd => hr (by rw [hd]; rfl)
        have huv : u = List.replicate n quote ++ [c] := by
          rw [hv, List.replicate_succ, List.cons_append, List.cons.injEq] at he
          exact he.1.2
        have hhead : u.head? = some quote := by
          rw [huv, hc]; cases n <;> simp [List.replicate_succ]
        rcases r with _ | ⟨e, r⟩
        · simp [readStr, hd] at hu
        · simp only [readStr, hd, if_false] at hu
          obtain ⟨⟨u', t'⟩, -, he'⟩ := Option.map_eq_some_iff.1 hu
          simp only [Prod.mk.injEq] at he'
          rw [← he'.1] at hhead
          simp [hd] at hhead
    · obtain ⟨⟨u, t⟩, hu, he⟩ := Option.map_eq_some_iff.1 h
      simp only [Prod.mk.injEq] at he
      rw [hv, List.replicate_succ, List.cons_append, List.cons.injEq] at he
      exact hc he.1.1
  | c :: d :: a, n, r, v, r', hr, h, hv => by
    simp only [List.cons_append, readStr] at h
    split_ifs at h with hc hd
    · obtain ⟨⟨u, t⟩, hu, he⟩ := Option.map_eq_some_iff.1 h
      simp only [Prod.mk.injEq] at he
      refine readStr_quotes a (n + 1) hr hu ?_
      rw [hv, List.replicate_succ, List.cons_append, List.cons.injEq] at he
      rw [he.1.2, hc, hd, List.replicate_succ', List.replicate_succ']
      simp
    · simp only [Option.some.injEq, Prod.mk.injEq] at h
      rw [hv] at h
      simp at h
    · obtain ⟨⟨u, t⟩, hu, he⟩ := Option.map_eq_some_iff.1 h
      simp only [Prod.mk.injEq] at he
      rw [hv, List.replicate_succ, List.cons_append, List.cons.injEq] at he
      exact hc he.1.1

/-- **A literal decodes to what was put between its quotes only if that has no
    quotes.** -/
theorem readStr_self : ∀ {a r r' : Str}, r.head? ≠ some quote →
    readStr (a ++ quote :: r) = some (a, r') → quote ∉ a
  | [], _, _, _, _ => by simp
  | c :: a, r, r', hr, h => by
    rcases hat : a ++ quote :: r with _ | ⟨d, t⟩
    · simp at hat
    rw [List.cons_append, hat] at h
    simp only [readStr] at h
    split_ifs at h with hc hd
    · obtain ⟨⟨u, t'⟩, hu, he⟩ := Option.map_eq_some_iff.1 h
      simp only [Prod.mk.injEq, List.cons.injEq] at he
      rcases a with _ | ⟨e, a⟩
      · -- the closing quote is read as the second of a pair
        simp only [List.nil_append, List.cons.injEq] at hat
        rw [← hat.2] at hu
        rcases r with _ | ⟨f, r⟩
        · simp [readStr] at hu
        · have hf : f ≠ quote := fun hf => hr (by rw [hf]; rfl)
          rcases r with _ | ⟨g, r⟩
          · simp [readStr, hf] at hu
          · simp only [readStr, hf, if_false] at hu
            obtain ⟨⟨u', t''⟩, -, he'⟩ := Option.map_eq_some_iff.1 hu
            simp only [Prod.mk.injEq] at he'
            rw [he.1.2] at he'
            simp at he'
      · simp only [List.cons_append, List.cons.injEq] at hat
        rw [← hat.2] at hu
        refine absurd ?_ (readStr_quotes a 0 hr hu)
        rw [he.1.2, hat.1, hd]
        rfl
    · simp at h
    · obtain ⟨⟨u, t'⟩, hu, he⟩ := Option.map_eq_some_iff.1 h
      simp only [Prod.mk.injEq, List.cons.injEq] at he
      rw [← hat, he.1.2] at hu
      simp only [List.mem_cons, not_or]
      exact ⟨Ne.symm hc, readStr_self hr hu⟩

/-! ## Texts put together -/

/-- The text begins with a blank or a separator. -/
def Separates (s : Str) : Prop := ∃ d ∈ s.head?, isSpace d = true ∨ isSym d = true

/-- The text gives the tokens, whatever follows it. -/
def Lexes (s : Str) (ts : List Tok) : Prop := ∀ r, lex (s ++ r) = (lex r).map (ts ++ ·)

/-- The text gives the tokens if a separator follows it. -/
def LexesBefore (s : Str) (ts : List Tok) : Prop :=
  ∀ r, Separates r → lex (s ++ r) = (lex r).map (ts ++ ·)

section
variable {s t : Str} {ts us : List Tok}

instance : Decidable (Separates s) :=
  inferInstanceAs (Decidable (∃ d ∈ s.head?, isSpace d = true ∨ isSym d = true))

theorem Separates.append (h : Separates s) (t : Str) : Separates (s ++ t) := by
  obtain ⟨d, hd, hsep⟩ := h
  refine ⟨d, ?_, hsep⟩
  cases s with
  | nil => cases hd
  | cons c s => exact hd

/-- A closed text. -/
theorem lexes_of_lexN {n : ℕ} (h : lexN n s = some ts) (hc : Closed s) : Lexes s ts :=
  lex_append (lex_of_lexN n h) hc

theorem Lexes.append_before (h : Lexes s ts) (h' : LexesBefore t us) : LexesBefore (s ++ t) (ts ++ us) := by
  intro r hr
  rw [List.append_assoc, h, h' r hr, Option.map_map]
  congr 1
  funext vs
  exact (List.append_assoc ts us vs).symm

theorem LexesBefore.append (h : LexesBefore s ts) (h' : Lexes t us) (hsep : Separates t) :
    Lexes (s ++ t) (ts ++ us) := by
  intro r
  rw [List.append_assoc, h _ (hsep.append r), h' r, Option.map_map]
  congr 1
  funext vs
  exact (List.append_assoc ts us vs).symm

theorem Lexes.lex_eq (h : Lexes s ts) : lex s = some ts := by
  have hnil := h []
  rwa [List.append_nil, lex_nil, Option.map_some, List.append_nil] at hnil

theorem lexesBefore_int (z : ℤ) : LexesBefore (intText z) (intToks z) := by
  rintro (_ | ⟨d, r⟩) ⟨d', hd, hsep⟩
  · cases hd
  · obtain rfl := Option.some.inj hd
    exact lex_int z hsep r

theorem lexesBefore_str {a : Str} (ha : quote ∉ a) : LexesBefore (quote :: (a ++ [quote])) [.str a] := by
  rintro (_ | ⟨d, r⟩) ⟨d', hd, hsep⟩
  · cases hd
  · obtain rfl := Option.some.inj hd
    have hstr := lex_str ha (idChar_of_sep hsep).2 r
    rwa [List.cons_append, List.append_assoc]

end

end Lib.Sql
