/-
  Runs of a step relation, calls that may fail, and the arithmetic of the machine.

  * `Run step s₀ es s`: from `s₀`, the inputs `es` lead to `s`;
  * `Run.invariant`: what holds at the start and is preserved by every step
    holds at the end of every run;
  * `Guarded ok step`: the steps whose state and input satisfy `ok`;
  * `Outcome α`: the result of a call: a value, or the `Fault` that ends it.
    Only an exception (`Fault.thrown`) can be caught;
  * `Alike R x y`: two calls end alike, with values related by `R` or with the same
    fault;
  * `wrap64`, `narrow32`: the value of a 64-bit expression, and its conversion to `int`.
-/
import Mathlib

namespace Lib

variable {σ ε : Type}

/-! ## Runs -/

/-- The runs of `step` from `s₀`, by the list of inputs they consume. -/
inductive Run (step : σ → ε → σ → Prop) (s₀ : σ) : List ε → σ → Prop
  | start : Run step s₀ [] s₀
  | next {es : List ε} {s s' : σ} {e : ε} :
      Run step s₀ es s → step s e s' → Run step s₀ (es ++ [e]) s'

/-- The steps of `step` taken from a state and on an input that satisfy `ok`. -/
def Guarded (ok : σ → ε → Prop) (step : σ → ε → σ → Prop) : σ → ε → σ → Prop :=
  fun s e s' => ok s e ∧ step s e s'

namespace Run

variable {step : σ → ε → σ → Prop} {s₀ s : σ} {es : List ε}

/-- **The invariant rule.** -/
theorem invariant {I : σ → Prop} (h : Run step s₀ es s) (h₀ : I s₀)
    (hstep : ∀ s e s', I s → step s e s' → I s') : I s := by
  induction h with
  | start => exact h₀
  | next _ hs ih => exact hstep _ _ _ ih hs

theorem trans {s' : σ} {fs : List ε} (h : Run step s₀ es s) (h' : Run step s fs s') :
    Run step s₀ (es ++ fs) s' := by
  induction h' with
  | start => simpa using h
  | next _ hs ih => rw [← List.append_assoc]; exact .next ih hs

/-- The last step of a run. -/
theorem last {e : ε} (h : Run step s₀ (es ++ [e]) s) : ∃ m, Run step s₀ es m ∧ step m e s := by
  generalize hgs : es ++ [e] = gs at h
  cases h with
  | start => simp at hgs
  | @next gs' m _ g hrun hs =>
    obtain ⟨rfl, hg⟩ := List.append_inj' hgs rfl
    obtain rfl := List.singleton_inj.1 hg
    exact ⟨m, hrun, hs⟩

/-- A run passes through the states of its parts. -/
theorem split {fs : List ε} (h : Run step s₀ (es ++ fs) s) : ∃ m, Run step s₀ es m ∧ Run step m fs s := by
  induction fs using List.reverseRecOn generalizing s with
  | nil => exact ⟨s, by simpa using h, .start⟩
  | append_singleton fs f ih =>
    rw [← List.append_assoc] at h
    obtain ⟨s', hrun, hs⟩ := h.last
    obtain ⟨m, hm, hrest⟩ := ih hrun
    exact ⟨m, hm, .next hrest hs⟩

theorem mono {step' : σ → ε → σ → Prop} (hs : ∀ s e s', step s e s' → step' s e s')
    (h : Run step s₀ es s) : Run step' s₀ es s := by
  induction h with
  | start => exact .start
  | next _ h ih => exact .next ih (hs _ _ _ h)

/-- A run along a map of the inputs. -/
theorem map {φ : Type} {step' : σ → φ → σ → Prop} (g : ε → φ)
    (hs : ∀ s e s', step s e s' → step' s (g e) s') (h : Run step s₀ es s) :
    Run step' s₀ (es.map g) s := by
  induction h with
  | start => exact .start
  | next _ h ih =>
    rw [List.map_append]
    exact .next ih (hs _ _ _ h)

theorem unguard {ok : σ → ε → Prop} (h : Run (Guarded ok step) s₀ es s) : Run step s₀ es s :=
  h.mono fun _ _ _ h => h.2

/-- The runs of a step function are its left fold. -/
theorem of_foldl (f : σ → ε → σ) (s₀ : σ) (es : List ε) :
    Run (fun s e s' => s' = f s e) s₀ es (es.foldl f s₀) := by
  induction es using List.reverseRecOn with
  | nil => exact .start
  | append_singleton es e ih => rw [List.foldl_append]; exact .next ih rfl

end Run

/-! ## Calls that may fail -/

/-- The exceptions of the modelled code. -/
inductive Exn where
  | outOfRange | parseError | typeError | filesystemError
  deriving DecidableEq, Repr

/-- How a call can end without returning: an exception escapes it, an
    assertion aborts the program, an integer division or a null pointer traps,
    or a loop never ends. -/
inductive Fault where
  | thrown (e : Exn)
  | assertion
  | trap
  | endless
  deriving DecidableEq, Repr

/-- The result of a call. -/
abbrev Outcome (α : Type) := Except Fault α

/-- No exception escapes the call. -/
def Outcome.NoThrow {α : Type} (r : Outcome α) : Prop := ∀ e, r ≠ .error (.thrown e)

/-- `try { r } catch(...) { handler }`. -/
def Outcome.catchAll {α : Type} (r : Outcome α) (handler : α) : Outcome α :=
  match r with
  | .error (.thrown _) => .ok handler
  | r => r

theorem ok_ne_error {φ α : Type} {a : α} {e : φ} : (.ok a : Except φ α) ≠ .error e := by
  intro h
  cases h

/-- A call that returned from a composition returned from both parts. -/
theorem bind_eq_ok {φ α β : Type} {x : Except φ α} {f : α → Except φ β} {b : β} :
    (x >>= f) = .ok b ↔ ∃ a, x = .ok a ∧ f a = .ok b := by
  cases x with
  | error e => simp [bind, Except.bind]
  | ok a => simp [bind, Except.bind]

/-- A composition that failed, failed in one of its parts. -/
theorem bind_eq_error {φ α β : Type} {x : Except φ α} {f : α → Except φ β} {e : φ} :
    (x >>= f) = .error e ↔ x = .error e ∨ ∃ a, x = .ok a ∧ f a = .error e := by
  cases x with
  | error e => simp [bind, Except.bind]
  | ok a => simp [bind, Except.bind]

theorem map_eq_ok {α β : Type} {x : Outcome α} {f : α → β} {b : β} :
    x.map f = .ok b ↔ ∃ a, x = .ok a ∧ f a = b := by
  cases x with
  | error e => simp [Except.map]
  | ok a => simp [Except.map]

theorem map_eq_error {α β : Type} {x : Outcome α} {f : α → β} {e : Fault} :
    x.map f = .error e ↔ x = .error e := by
  cases x with
  | error e => simp [Except.map]
  | ok a => simp [Except.map]

@[simp] theorem ok_bind {α β : Type} (a : α) (f : α → Outcome β) : (.ok a >>= f) = f a := rfl

@[simp] theorem error_bind {α β : Type} (e : Fault) (f : α → Outcome β) :
    ((.error e : Outcome α) >>= f) = .error e := rfl

/-- A call returned if its result passes a test. -/
theorem exists_ok {α : Type} {r : Outcome α} {p : α → Bool} (h : r.toOption.any p = true) :
    ∃ a, r = .ok a ∧ p a = true := by
  cases r with
  | error e => cases h
  | ok a => exact ⟨a, rfl, h⟩

theorem ok_of_toOption {α : Type} {r : Outcome α} {a : α} (h : r.toOption = some a) : r = .ok a := by
  cases r with
  | error e => cases h
  | ok b => exact congrArg _ (Option.some.inj h)

/-- The calls of a successful loop are a run. -/
theorem Run.of_foldlM {f : σ → ε → Outcome σ} {s₀ s : σ} {es : List ε}
    (h : es.foldlM f s₀ = .ok s) : Run (fun s e s' => f s e = .ok s') s₀ es s := by
  induction es using List.reverseRecOn generalizing s with
  | nil =>
    obtain rfl := Except.ok.inj h
    exact .start
  | append_singleton es e ih =>
    rw [List.foldlM_append] at h
    obtain ⟨s', hs', he⟩ := bind_eq_ok.1 h
    rw [List.foldlM_cons] at he
    obtain ⟨s'', hs'', he⟩ := bind_eq_ok.1 he
    obtain rfl := Except.ok.inj he
    exact .next (ih hs') hs''

/-! ## Calls that end alike -/

/-- Two calls end alike: with related values, or with the same fault. -/
inductive Alike {α β : Type} (R : α → β → Prop) : Outcome α → Outcome β → Prop
  | ok {a : α} {b : β} : R a b → Alike R (.ok a) (.ok b)
  | error (e : Fault) : Alike R (.error e) (.error e)

namespace Alike

variable {α β γ δ : Type} {R : α → β → Prop} {S : γ → δ → Prop} {x : Outcome α} {y : Outcome β}

theorem bind {f : α → Outcome γ} {g : β → Outcome δ} (h : Alike R x y)
    (hfg : ∀ a b, R a b → Alike S (f a) (g b)) : Alike S (x >>= f) (y >>= g) := by
  cases h with
  | ok hab => exact hfg _ _ hab
  | error e => exact .error e

theorem map {f : α → γ} {g : β → δ} (h : Alike R x y) (hfg : ∀ a b, R a b → S (f a) (g b)) :
    Alike S (x.map f) (y.map g) := by
  cases h with
  | ok hab => exact .ok (hfg _ _ hab)
  | error e => exact .error e

/-- The same call, and what is done with its value. -/
theorem bind_same {ξ : Type} (x : Outcome ξ) {f : ξ → Outcome γ} {g : ξ → Outcome δ}
    (hfg : ∀ a, Alike S (f a) (g a)) : Alike S (x >>= f) (x >>= g) := by
  cases x with
  | ok a => exact hfg a
  | error e => exact .error e

/-- **The loop rule**: passes that end alike make loops that end alike. -/
theorem foldlM {es : List ε} {f : α → ε → Outcome α} {g : β → ε → Outcome β} {a : α} {b : β}
    (h : R a b) (hstep : ∀ e ∈ es, ∀ a b, R a b → Alike R (f a e) (g b e)) :
    Alike R (es.foldlM f a) (es.foldlM g b) := by
  induction es generalizing a b with
  | nil => exact .ok h
  | cons e es ih =>
    rw [List.foldlM_cons, List.foldlM_cons]
    refine (hstep e List.mem_cons_self a b h).bind fun a' b' hab => ?_
    exact ih hab fun e' he' => hstep e' (List.mem_cons_of_mem e he')

/-- If the one call returns, so does the other. -/
theorem exists_ok {b : β} (h : Alike R x (.ok b)) : ∃ a, x = .ok a ∧ R a b := by
  cases h with
  | ok hab => exact ⟨_, rfl, hab⟩

theorem ok_right {a : α} (h : Alike R (.ok a) y) : ∃ b, y = .ok b ∧ R a b := by
  cases h with
  | ok hab => exact ⟨_, rfl, hab⟩

end Alike

/-! ## Machine integers -/

/-- `int64` arithmetic. -/
def wrap64 (z : ℤ) : ℤ := z.bmod (2 ^ 64)

/-- Conversion to `int`. -/
def narrow32 (z : ℤ) : ℤ := z.bmod (2 ^ 32)

section
variable {z : ℤ}

theorem wrap64_of_range (h : -2 ^ 63 ≤ z ∧ z < 2 ^ 63) : wrap64 z = z := by
  unfold wrap64
  exact Int.bmod_eq_of_le (by omega) (by omega)

theorem narrow32_of_range (h : -2 ^ 31 ≤ z ∧ z < 2 ^ 31) : narrow32 z = z := by
  unfold narrow32
  exact Int.bmod_eq_of_le (by omega) (by omega)

theorem narrow32_add (z : ℤ) : narrow32 (z + 2 ^ 32) = narrow32 z := Int.add_bmod_right z (2 ^ 32)

variable (z) in
theorem narrow32_range : -2 ^ 31 ≤ narrow32 z ∧ narrow32 z < 2 ^ 31 := by
  have hle := Int.le_bmod (x := z) (m := 2 ^ 32) (by decide)
  have hlt := Int.bmod_lt (x := z) (m := 2 ^ 32) (by decide)
  unfold narrow32
  omega

/-- A number that does not fit comes back below itself. -/
theorem narrow32_le (h : -2 ^ 31 ≤ z) : narrow32 z ≤ z := by
  rcases lt_or_ge z (2 ^ 31) with hlt | hge
  · exact (narrow32_of_range ⟨h, hlt⟩).le
  · exact (narrow32_range z).2.le.trans hge

variable (z) in
theorem narrow32_narrow32 : narrow32 (narrow32 z) = narrow32 z :=
  narrow32_of_range (narrow32_range z)

/-- Sums may be narrowed at every addition or once at the end. -/
theorem narrow32_congr {a b : ℤ} (h : narrow32 a = narrow32 b) (c : ℤ) :
    narrow32 (a + c) = narrow32 (b + c) := by
  unfold narrow32 at h ⊢
  rw [← Int.bmod_add_bmod, h, Int.bmod_add_bmod]

/-- A number that does not fit comes back below every `int` that is less than `2 ^ 32`
    below it. -/
theorem narrow32_eq_of_le {p : ℤ} (hp : -2 ^ 31 ≤ p ∧ p < 2 ^ 31) (hz : p ≤ z ∧ z < p + 2 ^ 32)
    (h : p ≤ narrow32 z) : narrow32 z = z := by
  rcases lt_or_ge z (2 ^ 31) with hlt | hge
  · exact narrow32_of_range ⟨hp.1.trans hz.1, hlt⟩
  · have hwrap : narrow32 (z - 2 ^ 32 + 2 ^ 32) = z - 2 ^ 32 := by
      rw [narrow32_add, narrow32_of_range (by omega)]
    rw [Int.sub_add_cancel] at hwrap
    omega

/-- A sum of two numbers of 31 bits that does not fit is negative. -/
theorem narrow32_neg (h : 2 ^ 31 ≤ z ∧ z < 2 ^ 32) : narrow32 z < 0 := by
  have hwrap : narrow32 (z - 2 ^ 32 + 2 ^ 32) = z - 2 ^ 32 := by
    rw [narrow32_add, narrow32_of_range (by omega)]
  rw [Int.sub_add_cancel] at hwrap
  omega

end

end Lib
