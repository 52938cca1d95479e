/-
  What `sformat` does to a template, and to any text.

  * `spaced_of_scan`: a template is filled only if the texts between its markers are
    long enough;
  * `Round`: one round of the loop of `sformat_t`, on its `_str`, `val` and `end`;
  * `sformat_rounds`: the loop ends, after at most one round for each closing brace,
    and what has been put in is not searched again;
  * `reached`, `Replaced`, `sformat_tolerates_iff`: when the call returns, and what
    it leaves as it was.
-/
import SimpleChat.Format

namespace SimpleChat

open Lib

/-! ## Templates -/

section
variable {vec : List Str} {n : ℕ} {p : Str} {ms : List (ℕ × Str)}

theorem template_cons (p : Str) (m : ℕ × Str) (ms : List (ℕ × Str)) :
    template p (m :: ms) = p ++ lbrace :: natText m.1 ++ rbrace :: template m.2 ms := by
  simp [template, marker]

/-- **A template of which no opening brace is left is spaced.** -/
theorem spaced_of_scan (hms : ∀ m ∈ ms, lbrace ∉ m.2) :
    ∀ {p u : Str} {val : ℤ}, lbrace ∉ p → scan vec val (template p ms) = .ok u → lbrace ∉ u →
      Spaced ms ∧ ∀ m ∈ ms, (m.1 : ℤ) ≤ 2 ^ 31 - 1 := by
  induction ms with
  | nil => exact fun _ _ _ => ⟨trivial, by simp⟩
  | cons m ms ih =>
    obtain ⟨n, g⟩ := m
    intro p u val hp hscan hu
    have hg : lbrace ∉ g := hms (n, g) (by simp)
    obtain ⟨hl, hr⟩ := brace_notMem_digits (natText_digits n)
    have hsplit : splitFlg (template p ((n, g) :: ms)) = some (p, natText n, template g ms) := by
      rw [template_cons]
      exact splitFlg_append (noFlg_of_notMem hp) hl hr _
    rw [scan_some hsplit, stoi_natText] at hscan
    split_ifs at hscan with hn
    · simp only at hscan
      cases hv : vecAt vec n with
      | none => rw [hv] at hscan; cases hscan
      | some a =>
        rw [hv] at hscan
        obtain ⟨u', hu', rfl⟩ := map_eq_ok.1 hscan
        simp only [List.mem_append, not_or] at hu
        obtain ⟨⟨-, hskip⟩, hrest⟩ := hu
        rcases ms with _ | ⟨m', ms⟩
        · exact ⟨trivial, by simpa using hn⟩
        · -- the bytes passed over hold no brace, so they end before the next marker
          have hk : (natText n).length + 1 ≤ g.length := by
            by_contra hlt
            refine hskip ?_
            rw [template_cons, List.append_assoc, List.take_append]
            refine List.mem_append_right _ ?_
            obtain ⟨k, hk⟩ : ∃ k, (natText n).length + 1 - g.length = k + 1 :=
              ⟨(natText n).length - g.length, by omega⟩
            rw [hk]
            exact List.mem_cons_self
          have hdrop : (template g (m' :: ms)).drop ((natText n).length + 1) =
              template (g.drop ((natText n).length + 1)) (m' :: ms) := by
            simp only [template, List.drop_append_of_le_length hk]
          rw [hdrop] at hu'
          obtain ⟨hspaced, hbound⟩ := ih (fun m hm => hms m (List.mem_cons_of_mem _ hm))
            (fun hm => hg (List.mem_of_mem_drop hm)) hu' hrest
          refine ⟨⟨hk, hspaced⟩, ?_⟩
          rintro m hm
          rcases List.mem_cons.1 hm with rfl | hm
          · exact hn
          · exact hbound m hm
    · -- a number that is too large leaves its marker in place
      simp only at hscan
      cases hv : vecAt vec val with
      | none => rw [hv] at hscan; cases hscan
      | some a =>
        rw [hv] at hscan
        obtain ⟨u', -, rfl⟩ := map_eq_ok.1 hscan
        exact absurd (by simp) hu

end

/-! ## The rounds of the loop -/

/-- `_str`, `val` and `end` between two rounds.  `find_flg` looks at the text from `end`
    on only (`findFlg`). -/
structure LoopState where
  str : Str
  val : ℤ
  end_ : ℕ

/-- A group that the loop has found, and the argument put in for it, if there is one. -/
structure Found where
  flgBegin : ℕ
  flgEnd : ℕ
  put : Option Str

section
variable (vec : List Str)

/-- A round that goes on. -/
inductive Round (s : LoopState) : Found → LoopState → Prop
  | put {b e : ℕ} {v : ℤ} {a : Str} : findFlg s.str s.end_ = some (b, e) →
      toNum s.str b e = some v → vecAt vec v = some a →
      Round s ⟨b, e, some a⟩ ⟨replaceString s.str a b e, v, e + a.length⟩
  | skip {b e : ℕ} {a : Str} : findFlg s.str s.end_ = some (b, e) → toNum s.str b e = none →
      vecAt vec s.val = some a → Round s ⟨b, e, none⟩ ⟨s.str, s.val, e + a.length⟩

/-- The `_vec.at(val)` of the next round throws. -/
def Throws (s : LoopState) : Prop :=
  ∃ b e, findFlg s.str s.end_ = some (b, e) ∧ vecAt vec ((toNum s.str b e).getD s.val) = none

/-- The closing braces that can still end a group. -/
def closers (t : Str) : ℕ := (t.dropWhile (· != lbrace)).count rbrace

variable {vec}

theorem closers_le (t : Str) : closers t ≤ t.count rbrace :=
  (List.dropWhile_sublist _).count_le _

theorem closers_split {t p x r : Str} (h : splitFlg t = some (p, x, r)) :
    r.count rbrace + 1 ≤ closers t := by
  obtain rfl := splitFlg_eq h
  clear h
  have hsuffix : rbrace :: r <:+ (p ++ lbrace :: x ++ rbrace :: r).dropWhile (· != lbrace) := by
    induction p with
    | nil =>
      rw [List.nil_append, List.cons_append, List.dropWhile_cons_of_neg (by simp)]
      exact ⟨lbrace :: x, by simp⟩
    | cons c p ih =>
      by_cases hc : c = lbrace
      · rw [List.cons_append, List.cons_append, List.dropWhile_cons_of_neg (by simp [hc])]
        exact ⟨c :: p ++ lbrace :: x, by simp⟩
      · rw [List.cons_append, List.cons_append, List.dropWhile_cons_of_pos (by simpa using hc)]
        exact ih
  have hle := hsuffix.sublist.count_le rbrace
  rw [List.count_cons_self] at hle
  exact hle

/-- What a round does to the text, and where the search goes on. -/
theorem Round.spec {s s' : LoopState} {f : Found} (h : Round vec s f s') :
    s.end_ ≤ f.flgBegin ∧ f.flgBegin < f.flgEnd ∧ s'.str.take f.flgBegin = s.str.take f.flgBegin ∧
      f.flgBegin < s'.end_ ∧ closers (s'.str.drop s'.end_) + 1 ≤ closers (s.str.drop s.end_) ∧
      ∀ a, f.put = some a → f.flgBegin + a.length < s'.end_ ∧
        (s'.str.drop f.flgBegin).take a.length = a := by
  cases h with
  | @put b e v a hf hn hv =>
    obtain ⟨hb, hbe, he⟩ := findFlg_bounds hf
    obtain ⟨⟨p, x, r⟩, hs, hpos⟩ := Option.map_eq_some_iff.1 ((findFlg_eq _ _).symm.trans hf)
    have hlen : (s.str.take b).length = b := List.length_take_of_le (by omega)
    have hafter : (replaceString s.str a b e).drop (e + a.length) =
        (s.str.drop (e + 1)).drop (e - b) := by
      have hpre : (s.str.take b ++ a).length = b + a.length := by rw [List.length_append, hlen]
      rw [replaceString, show e + a.length = (s.str.take b ++ a).length + (e - b) by omega,
        List.drop_length_add_append]
    have hr : s.str.drop (e + 1) = r := by
      simp only [flgAt, Prod.mk.injEq] at hpos
      have hdrop : s.str.drop (e + 1) = (s.str.drop s.end_).drop (e + 1 - s.end_) := by
        rw [List.drop_drop, Nat.add_sub_cancel' (by omega)]
      rw [hdrop, splitFlg_eq hs, show p ++ lbrace :: x ++ rbrace :: r = (p ++ lbrace :: x ++ [rbrace]) ++ r
        by simp]
      exact List.drop_left' (by simp; omega)
    refine ⟨hb, hbe, ?_, ?_, ?_, ?_⟩
    · simp only [replaceString, List.append_assoc]
      rw [List.take_append_of_le_length (by omega), List.take_of_length_le (by omega)]
    · show b < e + a.length
      omega
    · show closers ((replaceString s.str a b e).drop (e + a.length)) + 1 ≤ _
      rw [hafter, hr]
      have hsub : (r.drop (e - b)).count rbrace ≤ r.count rbrace := (List.drop_sublist _ _).count_le _
      have hle := closers_le (r.drop (e - b))
      have hsplit := closers_split hs
      omega
    · rintro a' ha'
      obtain rfl := Option.some.inj ha'
      refine ⟨by show b + a.length < e + a.length; omega, ?_⟩
      simp only [replaceString, List.append_assoc]
      rw [List.drop_left' hlen, List.take_left' rfl]
  | @skip b e a hf hn hv =>
    obtain ⟨hb, hbe, he⟩ := findFlg_bounds hf
    obtain ⟨⟨p, x, r⟩, hs, hpos⟩ := Option.map_eq_some_iff.1 ((findFlg_eq _ _).symm.trans hf)
    refine ⟨hb, hbe, rfl, by show b < e + a.length; omega, ?_, fun a' ha' => by cases ha'⟩
    have hdrop : s.str.drop e = rbrace :: r := by
      simp only [flgAt, Prod.mk.injEq] at hpos
      have hdrop : s.str.drop e = (s.str.drop s.end_).drop (e - s.end_) := by
        rw [List.drop_drop, Nat.add_sub_cancel' (by omega)]
      rw [hdrop, splitFlg_eq hs]
      exact List.drop_left' (by simp; omega)
    have hsplit := closers_split hs
    -- the brace that ends the group opens none
    have hle : closers ((s.str.drop e).drop a.length) ≤ r.count rbrace := by
      rw [hdrop]
      cases a with
      | nil => exact closers_le r
      | cons c a =>
        show closers (r.drop a.length) ≤ r.count rbrace
        exact (closers_le _).trans ((List.drop_sublist _ _).count_le _)
    show closers (s.str.drop (e + a.length)) + 1 ≤ _
    rw [← List.drop_drop]
    omega

/-- What is before `end` stays, and `end` only grows. -/
theorem rounds_prefix {s s' : LoopState} {fs : List Found} (h : Run (Round vec) s fs s') :
    s.end_ ≤ s'.end_ ∧ s'.str.take s.end_ = s.str.take s.end_ := by
  induction h with
  | start => exact ⟨le_rfl, rfl⟩
  | @next fs s₁ s₂ f _ hr ih =>
    obtain ⟨hb, -, htake, hend, -⟩ := hr.spec
    refine ⟨by omega, ?_⟩
    rw [← ih.2, ← min_eq_left (ih.1.trans hb), ← List.take_take, ← List.take_take, htake]

/-- The rounds use up the closing braces. -/
theorem rounds_length {s s' : LoopState} {fs : List Found} (h : Run (Round vec) s fs s') :
    closers (s'.str.drop s'.end_) + fs.length ≤ closers (s.str.drop s.end_) := by
  induction h with
  | start => simp
  | next _ hr ih =>
    have hlt := hr.spec.2.2.2.2.1
    rw [List.length_append, List.length_singleton]
    omega

/-- The loop goes through its rounds to the end: no group is left, or `at` throws. -/
theorem exists_rounds (vec : List Str) (s : LoopState) : ∃ fs s', Run (Round vec) s fs s' ∧
    ((findFlg s'.str s'.end_ = none ∧ sformatLoop vec s.str s.val s.end_ = .ok s'.str) ∨
      (Throws vec s' ∧ sformatLoop vec s.str s.val s.end_ = .error (.thrown .outOfRange))) := by
  induction hm : closers (s.str.drop s.end_) using Nat.strong_induction_on generalizing s with
  | _ m ih =>
    have hround : ∀ f s', Round vec s f s' →
        sformatLoop vec s.str s.val s.end_ = sformatLoop vec s'.str s'.val s'.end_ →
        ∃ fs s', Run (Round vec) s fs s' ∧
          ((findFlg s'.str s'.end_ = none ∧ sformatLoop vec s.str s.val s.end_ = .ok s'.str) ∨
            (Throws vec s' ∧ sformatLoop vec s.str s.val s.end_ = .error (.thrown .outOfRange))) := by
      intro f s' hr heq
      have hlt := hr.spec.2.2.2.2.1
      obtain ⟨fs, s'', hrun, hend⟩ := ih _ (by omega) s' rfl
      refine ⟨[f] ++ fs, s'', Run.trans (.next .start hr) hrun, ?_⟩
      rw [heq]
      exact hend
    rcases hf : findFlg s.str s.end_ with _ | ⟨b, e⟩
    · exact ⟨[], s, .start, .inl ⟨hf, sformatLoop_none hf⟩⟩
    · have heq : sformatLoop vec s.str s.val s.end_ = _ := sformatLoop_some hf
      cases hn : toNum s.str b e with
      | some v =>
        simp only [hn] at heq
        cases hv : vecAt vec v with
        | some a =>
          simp only [hv] at heq
          exact hround _ _ (.put hf hn hv) heq
        | none =>
          simp only [hv] at heq
          exact ⟨[], s, .start, .inr ⟨⟨b, e, hf, by rw [hn]; exact hv⟩, heq⟩⟩
      | none =>
        simp only [hn] at heq
        cases hv : vecAt vec s.val with
        | some a =>
          simp only [hv] at heq
          exact hround _ _ (.skip hf hn hv) heq
        | none =>
          simp only [hv] at heq
          exact ⟨[], s, .start, .inr ⟨⟨b, e, hf, by rw [hn]; exact hv⟩, heq⟩⟩

/-- **The loop of `sformat` ends and searches nothing that it has put in.**  It finds at
    most as many groups as the template has closing braces; after an argument has been
    put in, all searches begin beyond it, and it stays in the text as it is. -/
theorem sformat_rounds (vec : List Str) (str : Str) :
    (∃ fs s, Run (Round vec) ⟨str, -1, 0⟩ fs s ∧
      ((findFlg s.str s.end_ = none ∧ sformat str vec = .ok s.str ∧ fs.length ≤ str.count rbrace) ∨
        (Throws vec s ∧ sformat str vec = .error (.thrown .outOfRange) ∧
          fs.length + 1 ≤ str.count rbrace))) ∧
    ∀ fs₁ f fs₂ s₁ s₂ a, Run (Round vec) ⟨str, -1, 0⟩ (fs₁ ++ [f]) s₁ → Run (Round vec) s₁ fs₂ s₂ →
      f.put = some a →
        f.flgBegin + a.length < s₂.end_ ∧ (s₂.str.drop f.flgBegin).take a.length = a := by
  constructor
  · obtain ⟨fs, s, hrun, hend⟩ := exists_rounds vec ⟨str, -1, 0⟩
    have hlen : closers (s.str.drop s.end_) + fs.length ≤ str.count rbrace :=
      (rounds_length hrun).trans (closers_le str)
    refine ⟨fs, s, hrun, ?_⟩
    rcases hend with ⟨hf, hok⟩ | ⟨hthrow, herr⟩
    · exact .inl ⟨hf, hok, by omega⟩
    · refine .inr ⟨hthrow, herr, ?_⟩
      -- the group at which `at` throws has a closing brace of its own
      obtain ⟨b, e, hf, -⟩ := hthrow
      obtain ⟨⟨p, x, r⟩, hs, -⟩ := Option.map_eq_some_iff.1 ((findFlg_eq _ _).symm.trans hf)
      have hsplit := closers_split hs
      omega
  · intro fs₁ f fs₂ s₁ s₂ a h₁ h₂ ha
    generalize hfs : fs₁ ++ [f] = fs at h₁
    cases h₁ with
    | start => simp at hfs
    | @next fs' s₀ _ f' _ hr =>
      obtain ⟨rfl, hf⟩ := List.append_inj' hfs rfl
      obtain rfl : f = f' := by simpa using hf
      obtain ⟨-, -, -, -, -, hput⟩ := hr.spec
      obtain ⟨hbeyond, hsame⟩ := hput a ha
      obtain ⟨hend, htake⟩ := rounds_prefix h₂
      refine ⟨by omega, ?_⟩
      calc (s₂.str.drop f.flgBegin).take a.length
          = ((s₂.str.take s₁.end_).drop f.flgBegin).take a.length := by
            rw [List.drop_take, List.take_take, min_eq_left (by omega)]
        _ = ((s₁.str.take s₁.end_).drop f.flgBegin).take a.length := by rw [htake]
        _ = (s₁.str.drop f.flgBegin).take a.length := by
            rw [List.drop_take, List.take_take, min_eq_left (by omega)]
        _ = a := hsame

end

/-! ## Texts that are no templates -/

/-- What stands between two braces names an argument (for `to_num`). -/
def Names (vec : List Str) (x : Str) : Prop := ∃ v a, stoi x = some v ∧ vecAt vec v = some a

/-- What stands in the groups that the search comes to: it passes over as many bytes as
    a group that names an argument holds, and one more; after a group that does not
    parse over one byte less than the argument named last has. -/
def reached (vec : List Str) (val : ℤ) (t : Str) : List Str :=
  match _h : splitFlg t with
  | none => []
  | some (_, x, r) =>
    x :: match stoi x with
      | some v =>
        match vecAt vec v with
        | some _ => reached vec v (r.drop (x.length + 1))
        | none => []
      | none =>
        match vecAt vec val with
        | some a => reached vec val (r.drop (a.length - 1))
        | none => []
termination_by t.length
decreasing_by
  all_goals
    have := splitFlg_length _h
    simp only [List.length_drop]
    omega

/-- `u` is `t` with some of the groups that name an argument replaced by it; all other
    bytes, and with them all other groups, are as they were. -/
inductive Replaced (vec : List Str) : Str → Str → Prop
  | nil : Replaced vec [] []
  | byte {t u : Str} (c : UInt8) : Replaced vec t u → Replaced vec (c :: t) (c :: u)
  | put {t u x a : Str} {v : ℤ} : lbrace ∉ x → rbrace ∉ x → stoi x = some v → vecAt vec v = some a →
      Replaced vec t u → Replaced vec (lbrace :: x ++ rbrace :: t) (a ++ u)

section
variable {vec : List Str} {val : ℤ} {t u p x r : Str}

theorem Replaced.append (h : Replaced vec t u) (s : Str) : Replaced vec (s ++ t) (s ++ u) := by
  induction s with
  | nil => exact h
  | cons c s ih => exact .byte c ih

theorem replaced_self (t : Str) : Replaced vec t t := by
  have h : Replaced vec (t ++ []) (t ++ []) := Replaced.nil.append t
  rwa [List.append_nil] at h

theorem reached_none (h : splitFlg t = none) : reached vec val t = [] := by
  rw [reached]
  split <;> simp_all

theorem reached_some (h : splitFlg t = some (p, x, r)) :
    reached vec val t = x :: match stoi x with
      | some v => match vecAt vec v with
        | some _ => reached vec v (r.drop (x.length + 1))
        | none => []
      | none => match vecAt vec val with
        | some a => reached vec val (r.drop (a.length - 1))
        | none => [] := by
  rw [reached]
  split <;> simp_all

/-- **What a call that returns has done**: it has replaced some groups that name an
    argument, and nothing else. -/
theorem replaced_of_scan (h : scan vec val t = .ok u) : Replaced vec t u := by
  induction hm : t.length using Nat.strong_induction_on generalizing t val u with
  | _ m ih =>
    rcases hs : splitFlg t with _ | ⟨p, x, r⟩
    · rw [scan_none hs] at h
      obtain rfl := Except.ok.inj h
      exact replaced_self t
    · have hlt := splitFlg_length hs
      have hrest : ∀ {k : ℕ} {val : ℤ} {u : Str}, scan vec val (r.drop k) = .ok u →
          Replaced vec r (r.take k ++ u) := by
        intro k val u hu
        have hdrop := ih _ (by rw [List.length_drop]; omega) hu rfl
        have happ := hdrop.append (r.take k)
        rwa [List.take_append_drop] at happ
      have ht := splitFlg_eq hs
      rw [scan_some hs] at h
      cases hx : stoi x with
      | some v =>
        simp only [hx] at h
        cases hv : vecAt vec v with
        | none => simp [hv] at h
        | some a =>
          simp only [hv] at h
          obtain ⟨u', hu', rfl⟩ := map_eq_ok.1 h
          obtain ⟨-, hl, hr⟩ := splitFlg_spec hs
          have hput := (Replaced.put hl hr hx hv (hrest hu')).append p
          rw [ht]
          simpa only [List.append_assoc, List.cons_append] using hput
      | none =>
        simp only [hx] at h
        cases hv : vecAt vec val with
        | none => simp [hv] at h
        | some a =>
          simp only [hv] at h
          obtain ⟨u', hu', rfl⟩ := map_eq_ok.1 h
          have hkeep := (hrest hu').append (p ++ lbrace :: x ++ [rbrace])
          rw [ht]
          simpa only [List.append_assoc, List.cons_append, List.nil_append] using hkeep

/-- When the search returns. -/
theorem scan_ok_iff : (∃ u, scan vec val t = .ok u) ↔
    (∀ x ∈ reached vec val t, stoi x = none ∨ Names vec x) ∧
      (vecAt vec val = none → ∀ x ∈ (reached vec val t).head?, Names vec x) := by
  induction hm : t.length using Nat.strong_induction_on generalizing t val with
  | _ m ih =>
    rcases hs : splitFlg t with _ | ⟨p, x, r⟩
    · rw [reached_none hs, scan_none hs]
      simp
    · have hlt := splitFlg_length hs
      have hih : ∀ (k : ℕ) (val : ℤ), (∃ a, vecAt vec val = some a) →
          ((∃ u, scan vec val (r.drop k) = .ok u) ↔
            ∀ y ∈ reached vec val (r.drop k), stoi y = none ∨ Names vec y) := by
        rintro k val ⟨a, ha⟩
        rw [ih _ (by rw [List.length_drop]; omega) rfl]
        simp [ha]
      rw [reached_some hs, scan_some hs]
      cases hx : stoi x with
      | some v =>
        cases hv : vecAt vec v with
        | none =>
          have hnames : ¬ Names vec x := by
            rintro ⟨v', a, hx', hv'⟩
            rw [hx] at hx'
            rw [← Option.some.inj hx', hv] at hv'
            cases hv'
          simp [hx, hv, hnames]
        | some a =>
          have hnames : Names vec x := ⟨v, a, hx, hv⟩
          have := hih (x.length + 1) v ⟨a, hv⟩
          simp only [hv, map_eq_ok, List.mem_cons, forall_eq_or_imp, hx, reduceCtorEq, false_or,
            hnames, true_and, List.head?_cons, Option.mem_some_iff, forall_eq', implies_true,
            and_true, ← this]
          exact ⟨fun ⟨_, u, hu, _⟩ => ⟨u, hu⟩, fun ⟨u, hu⟩ => ⟨_, u, hu, rfl⟩⟩
      | none =>
        have hnames : ¬ Names vec x := by
          rintro ⟨v, a, hx', -⟩
          rw [hx] at hx'
          cases hx'
        cases hv : vecAt vec val with
        | none => simp [hnames]
        | some a =>
          have := hih (a.length - 1) val ⟨a, hv⟩
          simp only [map_eq_ok, List.mem_cons, forall_eq_or_imp, hx, true_or, true_and,
            reduceCtorEq, false_imp_iff, and_true, ← this]
          exact ⟨fun ⟨_, u, hu, _⟩ => ⟨u, hu⟩, fun ⟨u, hu⟩ => ⟨_, u, hu, rfl⟩⟩

/-- **When `sformat` tolerates what is no marker.**  It returns, with every group that
    names no argument as it was, if and only if each group that the search comes to
    names an argument or does not parse, and the first one names an argument. -/
theorem sformat_tolerates_iff (vec : List Str) (str : Str) :
    (∃ u, sformat str vec = .ok u ∧ Replaced vec str u) ↔
      (∀ x ∈ reached vec (-1) str, stoi x = none ∨ Names vec x) ∧
        ∀ x ∈ (reached vec (-1) str).head?, Names vec x := by
  have hnone : vecAt vec (-1) = none := if_neg (by decide)
  have hiff : (∃ u, scan vec (-1) str = .ok u) ↔ _ := scan_ok_iff
  simp only [hnone, forall_const] at hiff
  rw [← hiff, sformat_eq_scan]
  exact ⟨fun ⟨u, hu, _⟩ => ⟨u, hu⟩, fun ⟨u, hu⟩ => ⟨u, hu, replaced_of_scan hu⟩⟩

end

end SimpleChat
