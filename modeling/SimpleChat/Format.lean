/-
  format.h: `sformat`, the formatter that builds every SQL statement and path.

  A template holds markers `{n}`; `sformat(str)(arg...)` collects the arguments
  in `_vec` and replaces the markers in place, one after the other
  (`sformatLoop`).  Positions are those of the edited string, as in the source:
  after a marker ending at `flgEnd` the search goes on at `flgEnd` plus the
  length of the argument.  They are natural numbers here, which is what the source's
  `int` holds as long as the texts are shorter than `2 ^ 31` bytes (`FormatInt`).

  * `findFlg`, `toNum`, `replaceString`, `sformat`: the members of the class;
  * `scan`: the same computation on the part of the string that is still to be
    searched, and `sformatLoop_eq`: they agree;
  * `NoFlg`, `splitFlg_spec`: texts without brace groups, and the first group of a
    text;
  * `scan_template`: what it does on a template whose markers are far enough apart;
  * `Fills`: what the statements need of a formatter.
-/
import SimpleChat.Lib.Text
import SimpleChat.Lib.Run

namespace SimpleChat

open Lib

/-- An opening brace. -/
def lbrace : UInt8 := 0x7b

/-- A closing brace. -/
def rbrace : UInt8 := 0x7d

/-! ## The class -/

/-- The loop of `findFlg` from index `i`, with the last opening brace seen. -/
def findFlgFrom : Str → ℕ → Option ℕ → Option (ℕ × ℕ)
  | [], _, _ => none
  | c :: s, i, begin_ =>
    if c = lbrace then findFlgFrom s (i + 1) (some i)
    else if c = rbrace then
      match begin_ with
      | some b => some (b, i)
      | none => findFlgFrom s (i + 1) none
    else findFlgFrom s (i + 1) begin_

/-- `find_flg`: the positions of the braces of the first group at or after
    `inBegin`, the opening one being the last before the closing one. -/
def findFlg (str : Str) (inBegin : ℕ) : Option (ℕ × ℕ) :=
  findFlgFrom (str.drop inBegin) inBegin none

/-- `to_num`: the number between the braces. -/
def toNum (str : Str) (begin_ end_ : ℕ) : Option ℤ := stoi ((str.take end_).drop (begin_ + 1))

/-- `replace_string`. -/
def replaceString (str flg : Str) (begin_ end_ : ℕ) : Str :=
  str.take begin_ ++ flg ++ str.drop (end_ + 1)

/-- `_vec.at(val)`; a negative `val` is a huge index. -/
def vecAt (vec : List Str) (val : ℤ) : Option Str := if 0 ≤ val then vec[val.toNat]? else none

theorem findFlgFrom_bounds {s : Str} {i : ℕ} {o : Option ℕ} {b e : ℕ}
    (h : findFlgFrom s i o = some (b, e)) (ho : ∀ j ∈ o, j < i) :
    b < e ∧ i ≤ e ∧ e < i + s.length ∧ (b ∈ o ∨ i ≤ b) := by
  induction s generalizing i o with
  | nil => simp [findFlgFrom] at h
  | cons c s ih =>
    unfold findFlgFrom at h
    simp only [List.length_cons]
    split_ifs at h with h1 h2
    · obtain ⟨h3, h4, h5, h6⟩ := ih h (by simp)
      refine ⟨h3, by omega, by omega, ?_⟩
      rcases h6 with h6 | h6
      · simp at h6; omega
      · omega
    · rcases o with _ | j
      · obtain ⟨h3, h4, h5, h6⟩ := ih h (by simp)
        exact ⟨h3, by omega, by omega, Or.inr (by simp at h6; omega)⟩
      · simp only [Option.some.injEq, Prod.mk.injEq] at h
        obtain ⟨rfl, rfl⟩ := h
        exact ⟨ho _ rfl, le_rfl, by omega, Or.inl rfl⟩
    · obtain ⟨h3, h4, h5, h6⟩ := ih h fun j hj => by have := ho j hj; omega
      exact ⟨h3, by omega, by omega, h6.imp id (by omega)⟩

theorem findFlg_bounds {str : Str} {n b e : ℕ} (h : findFlg str n = some (b, e)) :
    n ≤ b ∧ b < e ∧ e < str.length := by
  obtain ⟨h1, h2, h3, h4⟩ := findFlgFrom_bounds h (by simp)
  rw [List.length_drop] at h3
  simp at h4
  omega

/-- The loop of `sformat_t`, with its `_str`, `val` and `end`.  A marker that
    names no argument is skipped inside the `try`, and the `_vec.at(val)` after
    it throws. -/
def sformatLoop (vec : List Str) (str : Str) (val : ℤ) (end_ : ℕ) : Outcome Str :=
  match _h : findFlg str end_ with
  | none => .ok str
  | some (flgBegin, flgEnd) =>
    match toNum str flgBegin flgEnd with
    | some v =>
      match vecAt vec v with
      | some a => sformatLoop vec (replaceString str a flgBegin flgEnd) v (flgEnd + a.length)
      | none => .error (.thrown .outOfRange)
    | none =>
      match vecAt vec val with
      | some a => sformatLoop vec str val (flgEnd + a.length)
      | none => .error (.thrown .outOfRange)
termination_by str.length - end_
decreasing_by
  · have := findFlg_bounds _h
    simp only [replaceString, List.length_append, List.length_take, List.length_drop]
    omega
  · have := findFlg_bounds _h
    omega

/-- `sformat(str)(vec...)`. -/
def sformat (str : Str) (vec : List Str) : Outcome Str := sformatLoop vec str (-1) 0

/-! ## Scanning from the left -/

/-- After an opening brace: the text up to the closing one and what follows,
    if no other opening brace comes first. -/
def innerTo : Str → Option (Str × Str)
  | [] => none
  | c :: s =>
    if c = rbrace then some ([], s)
    else if c = lbrace then none
    else (innerTo s).map fun q => (c :: q.1, q.2)

/-- The first brace group of a text: what stands before it, in it and after it. -/
def splitFlg : Str → Option (Str × Str × Str)
  | [] => none
  | c :: s =>
    if c = lbrace then
      match innerTo s with
      | some (x, r) => some ([], x, r)
      | none => (splitFlg s).map fun q => (c :: q.1, q.2)
    else (splitFlg s).map fun q => (c :: q.1, q.2)

theorem innerTo_eq {s x r : Str} (h : innerTo s = some (x, r)) : s = x ++ rbrace :: r := by
  induction s generalizing x with
  | nil => simp [innerTo] at h
  | cons c s ih =>
    unfold innerTo at h
    split_ifs at h with h1 h2
    · simp only [Option.some.injEq, Prod.mk.injEq] at h
      obtain ⟨rfl, rfl⟩ := h
      simp [h1]
    · simp only [Option.map_eq_some_iff] at h
      obtain ⟨⟨y, t⟩, hy, he⟩ := h
      simp only [Prod.mk.injEq] at he
      obtain ⟨rfl, rfl⟩ := he
      simp [ih hy]

theorem splitFlg_eq {s p x r : Str} (h : splitFlg s = some (p, x, r)) :
    s = p ++ lbrace :: x ++ rbrace :: r := by
  induction s generalizing p with
  | nil => simp [splitFlg] at h
  | cons c s ih =>
    have hcons : (splitFlg s).map (fun q => (c :: q.1, q.2)) = some (p, x, r) →
        c :: s = p ++ lbrace :: x ++ rbrace :: r := by
      intro h
      simp only [Option.map_eq_some_iff] at h
      obtain ⟨⟨y, t⟩, hy, he⟩ := h
      simp only [Prod.mk.injEq] at he
      obtain ⟨rfl, rfl⟩ := he
      simp [ih hy]
    unfold splitFlg at h
    split_ifs at h with h1
    · rcases hi : innerTo s with _ | ⟨y, t⟩
      · rw [hi] at h; exact hcons h
      · rw [hi] at h
        simp only [Option.some.injEq, Prod.mk.injEq] at h
        obtain ⟨rfl, rfl, rfl⟩ := h
        simp [h1, innerTo_eq hi]
    · exact hcons h

theorem splitFlg_length {s p x r : Str} (h : splitFlg s = some (p, x, r)) :
    r.length < s.length := by
  rw [splitFlg_eq h]; simp; omega

/-- The index form of a split. -/
def flgAt (i : ℕ) (q : Str × Str × Str) : ℕ × ℕ := (i + q.1.length, i + q.1.length + 1 + q.2.1.length)

theorem findFlgFrom_eq (s : Str) : ∀ i,
    findFlgFrom s i none = (splitFlg s).map (flgAt i) ∧
    ∀ b, findFlgFrom s i (some b) = match innerTo s with
      | some (x, _) => some (b, i + x.length)
      | none => (splitFlg s).map (flgAt i) := by
  induction s with
  | nil => intro i; exact ⟨rfl, fun b => rfl⟩
  | cons c s ih =>
    intro i
    have hcons : ∀ o : Option (Str × Str × Str),
        (o.map fun q => (c :: q.1, q.2)).map (flgAt i) = o.map (flgAt (i + 1)) := by
      intro o
      rcases o with _ | ⟨p, x, r⟩
      · rfl
      · simp [flgAt]; omega
    obtain ⟨ih₀, ih₁⟩ := ih (i + 1)
    by_cases h1 : c = lbrace
    · have hne : lbrace ≠ rbrace := by decide
      have hopen : ∀ o, findFlgFrom (c :: s) i o = (splitFlg (c :: s)).map (flgAt i) := by
        intro o
        simp only [findFlgFrom, h1, if_true, splitFlg, ih₁ i]
        rcases hi : innerTo s with _ | ⟨y, t⟩
        · simp only [← h1, hcons]
        · simp [flgAt]
      exact ⟨hopen none, fun b => by rw [hopen]; simp [innerTo, h1, hne]⟩
    · by_cases h2 : c = rbrace
      · have hne : rbrace ≠ lbrace := by decide
        simp only [h2] at hcons
        refine ⟨?_, fun b => ?_⟩
        · simp [findFlgFrom, h2, hne, splitFlg, ih₀, hcons]
        · simp [findFlgFrom, h2, hne, innerTo]
      · refine ⟨?_, fun b => ?_⟩
        · simp [findFlgFrom, h1, h2, splitFlg, ih₀, hcons]
        · simp only [findFlgFrom, h1, h2, if_false, ih₁ b, innerTo, splitFlg, hcons]
          rcases innerTo s with _ | ⟨y, t⟩
          · rfl
          · simp; omega

theorem findFlg_eq (str : Str) (n : ℕ) :
    findFlg str n = (splitFlg (str.drop n)).map (flgAt n) := (findFlgFrom_eq _ _).1

/-- `sformatLoop` on the text `t` that is still to be searched. -/
def scan (vec : List Str) (val : ℤ) (t : Str) : Outcome Str :=
  match _h : splitFlg t with
  | none => .ok t
  | some (p, x, r) =>
    match stoi x with
    | some v =>
      match vecAt vec v with
      | some a =>
        (scan vec v (r.drop (x.length + 1))).map fun u => p ++ a ++ r.take (x.length + 1) ++ u
      | none => .error (.thrown .outOfRange)
    | none =>
      match vecAt vec val with
      | some a =>
        (scan vec val (r.drop (a.length - 1))).map fun u =>
          p ++ lbrace :: x ++ rbrace :: r.take (a.length - 1) ++ u
      | none => .error (.thrown .outOfRange)
termination_by t.length
decreasing_by
  all_goals
    have := splitFlg_length _h
    simp only [List.length_drop]
    omega

section
variable {vec : List Str} {val : ℤ} {str t p x r : Str} {n b e : ℕ}

theorem sformatLoop_none (h : findFlg str n = none) : sformatLoop vec str val n = .ok str := by
  rw [sformatLoop]; split <;> simp_all

theorem sformatLoop_some (h : findFlg str n = some (b, e)) :
    sformatLoop vec str val n = match toNum str b e with
      | some v => match vecAt vec v with
        | some a => sformatLoop vec (replaceString str a b e) v (e + a.length)
        | none => .error (.thrown .outOfRange)
      | none => match vecAt vec val with
        | some a => sformatLoop vec str val (e + a.length)
        | none => .error (.thrown .outOfRange) := by
  rw [sformatLoop]; split <;> simp_all

theorem scan_none (h : splitFlg t = none) : scan vec val t = .ok t := by
  rw [scan]; split <;> simp_all

theorem scan_some (h : splitFlg t = some (p, x, r)) :
    scan vec val t = match stoi x with
      | some v => match vecAt vec v with
        | some a =>
          (scan vec v (r.drop (x.length + 1))).map fun u => p ++ a ++ r.take (x.length + 1) ++ u
        | none => .error (.thrown .outOfRange)
      | none => match vecAt vec val with
        | some a =>
          (scan vec val (r.drop (a.length - 1))).map fun u =>
            p ++ lbrace :: x ++ rbrace :: r.take (a.length - 1) ++ u
        | none => .error (.thrown .outOfRange) := by
  rw [scan]; split <;> simp_all

end

/-- A byte that opens no group is passed over. -/
theorem scan_cons {vec : List Str} {val : ℤ} {c : UInt8} (hc : c ≠ lbrace) (t : Str) :
    scan vec val (c :: t) = (scan vec val t).map (c :: ·) := by
  have hsplit : splitFlg (c :: t) = (splitFlg t).map fun q => (c :: q.1, q.2) := by
    simp [splitFlg, hc]
  rcases hs : splitFlg t with _ | ⟨p, x, r⟩
  · rw [hs] at hsplit
    rw [scan_none hs, scan_none hsplit]; rfl
  · rw [hs] at hsplit
    rw [scan_some hs, scan_some hsplit]
    cases hx : stoi x with
    | none =>
      cases hv : vecAt vec val with
      | none => rfl
      | some a => cases hu : scan vec val (r.drop (a.length - 1)) <;> simp [Except.map, hu]
    | some v =>
      cases hv : vecAt vec v with
      | none => simp [Except.map, hv]
      | some a => cases hu : scan vec v (r.drop (x.length + 1)) <;> simp [Except.map, hv, hu]

/-- What is read between the braces of a group. -/
theorem toNum_flgAt (d p x r : Str) :
    toNum (d ++ (p ++ lbrace :: x ++ rbrace :: r)) (d.length + p.length)
      (d.length + p.length + 1 + x.length) = stoi x := by
  have htake : (d ++ (p ++ lbrace :: x ++ rbrace :: r)).take (d.length + p.length + 1 + x.length) =
      d ++ p ++ [lbrace] ++ x := by
    rw [show d ++ (p ++ lbrace :: x ++ rbrace :: r) = (d ++ p ++ [lbrace] ++ x) ++ rbrace :: r by simp]
    exact List.take_left' (by simp; omega)
  rw [toNum, htake]
  exact congrArg stoi (List.drop_left' (by simp; omega))

/-- The text with an argument in place of the group. -/
theorem replaceString_flgAt (d p x r a : Str) :
    replaceString (d ++ (p ++ lbrace :: x ++ rbrace :: r)) a (d.length + p.length)
      (d.length + p.length + 1 + x.length) = (d ++ p ++ a) ++ r := by
  have hafter : (d ++ (p ++ lbrace :: x ++ rbrace :: r)).drop
      (d.length + p.length + 1 + x.length + 1) = r := by
    rw [show d ++ (p ++ lbrace :: x ++ rbrace :: r) = (d ++ p ++ [lbrace] ++ x ++ [rbrace]) ++ r by simp]
    exact List.drop_left' (by simp; omega)
  rw [replaceString, hafter]
  simp [List.take_append]

/-- **The formatter is the scan**: editing in place from index `n` on rewrites
    the text from there and keeps what is before. -/
theorem sformatLoop_eq (vec : List Str) (str : Str) (val : ℤ) (n : ℕ) :
    sformatLoop vec str val n = (scan vec val (str.drop n)).map (str.take n ++ ·) := by
  induction hm : str.length - n using Nat.strong_induction_on generalizing str val n with
  | _ m ih =>
  have hf := findFlg_eq str n
  rcases hs : splitFlg (str.drop n) with _ | ⟨p, x, r⟩
  · rw [hs] at hf
    rw [sformatLoop_none hf, scan_none hs]
    simp [Except.map]
  · rw [hs] at hf
    simp only [Option.map_some, flgAt] at hf
    have hb := findFlg_bounds hf
    have hd : (str.take n).length = n := by rw [List.length_take]; omega
    have hstr : str = str.take n ++ (p ++ lbrace :: x ++ rbrace :: r) := by
      rw [← splitFlg_eq hs, List.take_append_drop]
    generalize str.take n = d at hd hstr ⊢
    generalize str.drop n = t at hs
    subst hd
    subst hstr
    rw [sformatLoop_some hf, scan_some hs]
    rw [toNum_flgAt]
    rcases stoi x with _ | v
    · simp only
      rcases hv : vecAt vec val with _ | a
      · rfl
      · simp only
        rw [ih _ (by simp at hm hb ⊢; omega) _ _ _ rfl]
        -- an empty argument leaves the search at the closing brace
        rcases a with _ | ⟨c, a⟩
        · have hw : (d ++ (p ++ lbrace :: x)).length = d.length + p.length + 1 + x.length := by
            simp; omega
          have hcat : d ++ (p ++ lbrace :: x ++ rbrace :: r) = (d ++ (p ++ lbrace :: x)) ++ rbrace :: r := by
            simp
          rw [List.length_nil, Nat.add_zero, hcat, List.drop_left' hw, List.take_left' hw,
            scan_cons (by decide)]
          cases hu : scan vec val r <;> simp [Except.map, hu]
        · have hw : (d ++ (p ++ lbrace :: x ++ [rbrace])).length = d.length + p.length + 1 + x.length + 1 := by
            simp; omega
          have hcat : d ++ (p ++ lbrace :: x ++ rbrace :: r) =
              (d ++ (p ++ lbrace :: x ++ [rbrace])) ++ r := by simp
          have hpos : d.length + p.length + 1 + x.length + (c :: a).length =
              (d ++ (p ++ lbrace :: x ++ [rbrace])).length + a.length := by
            rw [hw, List.length_cons]; omega
          rw [hcat, hpos, List.drop_length_add_append, List.take_length_add_append]
          simp only [List.length_cons, Nat.add_sub_cancel]
          cases scan vec val (r.drop a.length) <;> simp [Except.map]
    · simp only
      rcases hv : vecAt vec v with _ | a
      · rfl
      · simp only
        rw [ih _ (by simp [replaceString] at hm hb ⊢; omega) _ _ _ rfl]
        have hpos : d.length + p.length + 1 + x.length + a.length =
            (d ++ p ++ a).length + (x.length + 1) := by
          simp; omega
        rw [replaceString_flgAt, hpos, List.drop_length_add_append, List.take_length_add_append]
        cases scan vec v (r.drop (x.length + 1)) <;> simp [Except.map]

/-! ## Texts without brace groups -/

/-- No opening brace of the text is followed by a closing one. -/
def NoFlg (s : Str) : Prop := splitFlg s = none

instance (s : Str) : Decidable (NoFlg s) := inferInstanceAs (Decidable (splitFlg s = none))

theorem innerTo_none {s : Str} : innerTo s = none ↔
    ∀ a b, s = a ++ rbrace :: b → lbrace ∈ a := by
  induction s with
  | nil => simp [innerTo]
  | cons c s ih =>
    unfold innerTo
    split_ifs with h1 h2
    · simp only [false_iff, not_forall]
      exact ⟨[], s, by simp [h1], by simp⟩
    · simp only [true_iff]
      rintro (_ | ⟨d, a⟩) b h
      · simp at h; exact absurd h.1 h1
      · simp at h; simp [← h.1, h2]
    · simp only [Option.map_eq_none_iff, ih]
      constructor
      · rintro h (_ | ⟨d, a⟩) b he
        · simp at he; exact absurd he.1 h1
        · simp at he; exact List.mem_cons_of_mem _ (h a b he.2)
      · intro h a b he
        have := h (c :: a) b (by simp [he])
        simpa [Ne.symm h2] using this

theorem noFlg_iff {s : Str} : NoFlg s ↔ ∀ a b, s = a ++ rbrace :: b → lbrace ∉ a := by
  unfold NoFlg
  induction s with
  | nil => simp [splitFlg]
  | cons c s ih =>
    have hne : (lbrace : UInt8) ≠ rbrace := by decide
    have htail : (∀ a b, c :: s = a ++ rbrace :: b → lbrace ∉ a) →
        ∀ a b, s = a ++ rbrace :: b → lbrace ∉ a := fun h a b he hm =>
      h (c :: a) b (by simp [he]) (List.mem_cons_of_mem _ hm)
    unfold splitFlg
    split_ifs with h1
    · rcases hi : innerTo s with _ | ⟨x, r⟩
      · simp only [Option.map_eq_none_iff, ih]
        refine ⟨?_, htail⟩
        rintro h (_ | ⟨d, a⟩) b he
        · simp
        · simp at he
          exact absurd (innerTo_none.1 hi a b he.2) (h a b he.2)
      · simp only [reduceCtorEq, false_iff, not_forall]
        exact ⟨lbrace :: x, r, by simp [h1, innerTo_eq hi], by simp⟩
    · simp only [Option.map_eq_none_iff, ih]
      refine ⟨?_, htail⟩
      rintro h (_ | ⟨d, a⟩) b he
      · simp
      · simp only [List.cons_append, List.cons.injEq] at he
        have := h a b he.2
        simp only [List.mem_cons, not_or]
        exact ⟨fun hd => h1 (he.1.trans hd.symm), this⟩

theorem noFlg_of_notMem {s : Str} (h : lbrace ∉ s) : NoFlg s :=
  noFlg_iff.2 fun a b he hm => h (by simp [he, hm])

theorem noFlg_append {a b : Str} (ha : lbrace ∉ a) (hb : NoFlg b) : NoFlg (a ++ b) := by
  induction a with
  | nil => exact hb
  | cons c a ih =>
    simp only [List.mem_cons, not_or] at ha
    have := ih ha.2
    unfold NoFlg at this ⊢
    simp [splitFlg, Ne.symm ha.1, this]

/-- The braces of a text. -/
def braces (s : Str) : Str := s.filter fun c => c == lbrace || c == rbrace

@[simp] theorem braces_append (a b : Str) : braces (a ++ b) = braces a ++ braces b :=
  List.filter_append ..

theorem braces_eq_nil {s : Str} (hl : lbrace ∉ s) (hr : rbrace ∉ s) : braces s = [] := by
  rw [braces, List.filter_eq_nil_iff]
  intro c hc h
  simp only [Bool.or_eq_true, beq_iff_eq] at h
  rcases h with rfl | rfl
  · exact hl hc
  · exact hr hc

theorem noFlg_iff_pairwise {s : Str} :
    NoFlg s ↔ s.Pairwise fun x y => ¬ (x = lbrace ∧ y = rbrace) := by
  rw [noFlg_iff]
  induction s with
  | nil => simp
  | cons c s ih =>
    rw [List.pairwise_cons, ← ih]
    constructor
    · intro h
      refine ⟨?_, fun a b hs hm => h (c :: a) b (by rw [hs]; rfl) (List.mem_cons_of_mem c hm)⟩
      rintro _ hy ⟨rfl, rfl⟩
      obtain ⟨a, b, rfl⟩ := List.append_of_mem hy
      exact h (lbrace :: a) b rfl (by simp)
    · rintro ⟨hc, hs⟩ (_ | ⟨d, a⟩) b he
      · simp
      · simp only [List.cons_append, List.cons.injEq] at he
        simp only [List.mem_cons, not_or]
        refine ⟨fun hd => hc rbrace (by simp [he.2]) ⟨he.1.trans hd.symm, rfl⟩, hs a b he.2⟩

/-- Groups are a matter of the braces alone. -/
theorem noFlg_braces {s : Str} : NoFlg (braces s) ↔ NoFlg s := by
  rw [noFlg_iff_pairwise, noFlg_iff_pairwise, braces, List.pairwise_filter]
  refine Iff.of_eq (congrArg (fun R => List.Pairwise R s) ?_)
  funext x y
  refine propext ⟨fun h hxy => ?_, fun h _ _ => h⟩
  exact h (by simp [hxy.1]) (by simp [hxy.2]) hxy

theorem noFlg_of_prefix {a b : Str} (h : NoFlg (a ++ b)) : NoFlg a := by
  rw [noFlg_iff_pairwise] at h ⊢
  exact (List.pairwise_append.1 h).1

theorem noFlg_of_suffix {a b : Str} (h : NoFlg (a ++ b)) : NoFlg b := by
  rw [noFlg_iff_pairwise] at h ⊢
  exact (List.pairwise_append.1 h).2.1

/-- A group after a text without groups is the first one. -/
theorem splitFlg_append {p x : Str} (hp : NoFlg p) (hl : lbrace ∉ x) (hr : rbrace ∉ x) (r : Str) :
    splitFlg (p ++ lbrace :: x ++ rbrace :: r) = some (p, x, r) := by
  have hin : innerTo (x ++ rbrace :: r) = some (x, r) := by
    induction x with
    | nil => simp [innerTo]
    | cons c x ih =>
      simp only [List.mem_cons, not_or] at hl hr
      simp [innerTo, Ne.symm hl.1, Ne.symm hr.1, ih hl.2 hr.2]
  induction p with
  | nil => simp [splitFlg, hin]
  | cons c p ih =>
    rw [noFlg_iff] at hp ih
    have ih := ih fun a b he hm => hp (c :: a) b (by simp [he]) (List.mem_cons_of_mem _ hm)
    simp only [List.cons_append] at ih ⊢
    unfold splitFlg
    split_ifs with hc
    · have hnone : innerTo (p ++ lbrace :: x ++ rbrace :: r) = none := by
        rw [innerTo_none]
        intro a b he
        by_contra hm
        rcases List.append_eq_append_iff.1 (he.symm.trans (List.append_assoc _ _ _)) with
          ⟨w, rfl, h⟩ | ⟨w, rfl, h⟩
        · rcases w with _ | ⟨d, w⟩
          · simp at h; exact absurd h.1 (by decide)
          · simp only [List.cons_append, List.cons.injEq] at h
            exact hp (c :: a) w (by simp [← h.1]) (by simp [hc])
        · rcases w with _ | ⟨d, w⟩
          · simp at h; exact absurd h.1 (by decide)
          · simp only [List.cons_append, List.cons.injEq] at h
            exact hm (by simp [h.1])
      simp only [List.append_assoc, List.cons_append] at hnone ih ⊢
      rw [hnone]; simp [ih]
    · simp only [List.append_assoc, List.cons_append] at ih ⊢
      rw [ih]; rfl

theorem innerTo_notMem {s x r : Str} (h : innerTo s = some (x, r)) : lbrace ∉ x ∧ rbrace ∉ x := by
  induction s generalizing x with
  | nil => simp [innerTo] at h
  | cons c s ih =>
    unfold innerTo at h
    split_ifs at h with h₁ h₂
    · obtain rfl := (Prod.mk.inj (Option.some.inj h)).1
      simp
    · obtain ⟨⟨y, t⟩, hy, he⟩ := Option.map_eq_some_iff.1 h
      obtain ⟨rfl, rfl⟩ := Prod.mk.inj he
      obtain ⟨hl, hr⟩ := ih hy
      simp only [List.mem_cons, not_or]
      exact ⟨⟨Ne.symm h₂, hl⟩, Ne.symm h₁, hr⟩

/-- **The first group**: no group before it, and no braces in it. -/
theorem splitFlg_spec {t p x r : Str} (h : splitFlg t = some (p, x, r)) :
    NoFlg p ∧ lbrace ∉ x ∧ rbrace ∉ x := by
  induction t generalizing p with
  | nil => simp [splitFlg] at h
  | cons c t ih =>
    have hcons : (c = lbrace → innerTo t = none) →
        (splitFlg t).map (fun q => (c :: q.1, q.2)) = some (p, x, r) →
        NoFlg p ∧ lbrace ∉ x ∧ rbrace ∉ x := by
      intro hin h
      obtain ⟨⟨y, q⟩, hy, he⟩ := Option.map_eq_some_iff.1 h
      obtain ⟨rfl, rfl⟩ := Prod.mk.inj he
      obtain ⟨hno, hx⟩ := ih hy
      refine ⟨noFlg_iff.2 ?_, hx⟩
      rintro (_ | ⟨d, a⟩) b hab
      · simp
      · obtain ⟨hd, hy'⟩ : c = d ∧ y = a ++ rbrace :: b := List.cons.inj hab
        have ha := noFlg_iff.1 hno a b hy'
        have ht : t = a ++ rbrace :: (b ++ lbrace :: x ++ rbrace :: r) := by
          rw [splitFlg_eq hy, hy']
          simp
        rw [List.mem_cons, not_or]
        exact ⟨fun hc => ha (innerTo_none.1 (hin (hd.trans hc.symm)) a _ ht), ha⟩
    unfold splitFlg at h
    split_ifs at h with hc
    · cases hi : innerTo t with
      | none =>
        rw [hi] at h
        exact hcons (fun _ => hi) h
      | some q =>
        obtain ⟨y, s⟩ := q
        simp only [hi, Option.some.injEq, Prod.mk.injEq] at h
        obtain ⟨rfl, rfl, rfl⟩ := h
        exact ⟨rfl, innerTo_notMem hi⟩
    · exact hcons (fun h => absurd h hc) h

/-! ## Templates -/

/-- The marker `{n}`. -/
def marker (n : ℕ) : Str := lbrace :: natText n ++ [rbrace]

/-- A template: a text, and markers each followed by a text. -/
def template (p : Str) (ms : List (ℕ × Str)) : Str := p ++ ms.flatMap fun m => marker m.1 ++ m.2

/-- The template with every marker replaced by its argument. -/
def filled (vec : List Str) (p : Str) (ms : List (ℕ × Str)) : Str :=
  p ++ ms.flatMap fun m => vec.getD m.1 [] ++ m.2

/-- The search skips as many bytes after a marker as the marker has before its
    closing brace: every text between two markers has at least that length. -/
def Spaced : List (ℕ × Str) → Prop
  | [] | [_] => True
  | m :: m' :: ms => (natText m.1).length + 1 ≤ m.2.length ∧ Spaced (m' :: ms)

instance : ∀ ms, Decidable (Spaced ms)
  | [] | [_] => .isTrue trivial
  | _ :: m' :: ms =>
    have := instDecidableSpaced (m' :: ms)
    inferInstanceAs (Decidable (_ ∧ _))

theorem brace_notMem_digits {s : Str} (h : ∀ c ∈ s, isDigit c = true) :
    lbrace ∉ s ∧ rbrace ∉ s :=
  ⟨fun hm => absurd (h _ hm) (by decide), fun hm => absurd (h _ hm) (by decide)⟩

theorem brace_notMem_intText (z : ℤ) : lbrace ∉ intText z ∧ rbrace ∉ intText z := by
  obtain ⟨hl, hr⟩ := brace_notMem_digits (natText_digits z.natAbs)
  unfold intText
  split_ifs
  · simp only [List.mem_cons, not_or]
    exact ⟨⟨by decide, hl⟩, by decide, hr⟩
  · exact ⟨hl, hr⟩

theorem vecAt_natCast {vec : List Str} {n : ℕ} (h : n < vec.length) :
    vecAt vec n = some (vec.getD n []) := by
  simp [vecAt, List.getD, h]

/-- **The formatter fills a spaced template.** -/
theorem scan_template {vec : List Str} {ms : List (ℕ × Str)}
    (hms : ∀ m ∈ ms, lbrace ∉ m.2 ∧ m.1 < vec.length ∧ (m.1 : ℤ) ≤ 2 ^ 31 - 1) (hs : Spaced ms) :
    ∀ {p : Str} (val : ℤ), NoFlg p → scan vec val (template p ms) = .ok (filled vec p ms) := by
  induction ms with
  | nil => intro p val hp; simpa [template, filled] using scan_none hp
  | cons m ms ih =>
    obtain ⟨n, g⟩ := m
    intro p val hp
    obtain ⟨hg, hn, hb⟩ := hms (n, g) (by simp)
    obtain ⟨hl, hr⟩ := brace_notMem_digits (natText_digits n)
    have hsplit : splitFlg (template p ((n, g) :: ms)) =
        some (p, natText n, template g ms) := by
      have := splitFlg_append hp hl hr (template g ms)
      simpa [template, marker] using this
    have hnum : stoi (natText n) = some (n : ℤ) := by
      have := stoInt_natText (-2 ^ 31) (2 ^ 31 - 1) n (s := []) (by simp) (by omega) hb
      rwa [List.append_nil] at this
    rw [scan_some hsplit]
    simp only [hnum, vecAt_natCast hn]
    set k := (natText n).length + 1
    have hgk : NoFlg (g.drop k) := noFlg_of_notMem fun h => hg (List.mem_of_mem_drop h)
    have hdrop : (template g ms).drop k = template (g.drop k) ms ∧
        (template g ms).take k ++ filled vec (g.drop k) ms = filled vec g ms := by
      rcases ms with _ | ⟨m', ms⟩
      · simp [template, filled]
      · have hk : k ≤ g.length := hs.1
        simp only [template, filled, List.drop_append_of_le_length hk,
          List.take_append_of_le_length hk, true_and]
        rw [← List.append_assoc, List.take_append_drop]
    have hs' : Spaced ms := by
      rcases ms with _ | ⟨m', ms⟩
      · trivial
      · exact hs.2
    rw [hdrop.1, ih (fun m hm => hms m (by simp [hm])) hs' _ hgk]
    simp only [Except.map, List.append_assoc, hdrop.2]
    simp [filled]

theorem sformat_eq_scan (str : Str) (vec : List Str) : sformat str vec = scan vec (-1) str := by
  rw [sformat, sformatLoop_eq]
  simp only [List.drop_zero, List.take_zero, List.nil_append]
  cases scan vec (-1) str <;> rfl

theorem sformat_template {vec : List Str} {p : Str} {ms : List (ℕ × Str)} (hp : NoFlg p)
    (hms : ∀ m ∈ ms, lbrace ∉ m.2 ∧ m.1 < vec.length ∧ (m.1 : ℤ) ≤ 2 ^ 31 - 1) (hs : Spaced ms) :
    sformat (template p ms) vec = .ok (filled vec p ms) := by
  rw [sformat_eq_scan, scan_template hms hs _ hp]

/-- A text without brace groups is its own result. -/
theorem sformat_noFlg {s : Str} (h : NoFlg s) (vec : List Str) : sformat s vec = .ok s := by
  rw [sformat_eq_scan, scan_none h]

/-! ## Formatters -/

/-- The lengths of the arguments that the markers name. -/
def argLength (vec : List Str) (ms : List (ℕ × Str)) : ℕ :=
  (ms.map fun m => (vec.getD m.1 []).length).sum

/-- `format` fills the spaced templates with at most five markers (a statement has no more)
    that are shorter than `bound`, together with their arguments. -/
def Fills (format : Str → List Str → Outcome Str) (bound : ℕ∞) : Prop :=
  ∀ {vec : List Str} {p : Str} {ms : List (ℕ × Str)}, NoFlg p →
    (∀ m ∈ ms, lbrace ∉ m.2 ∧ m.1 < vec.length ∧ (m.1 : ℤ) ≤ 2 ^ 31 - 1) → Spaced ms → ms.length ≤ 5 →
      (((template p ms).length + argLength vec ms : ℕ) : ℕ∞) < bound →
        format (template p ms) vec = .ok (filled vec p ms)

theorem fills_sformat : Fills sformat ⊤ := fun hp hms hs _ _ => sformat_template hp hms hs

end SimpleChat
