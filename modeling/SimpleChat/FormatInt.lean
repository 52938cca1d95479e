/-
  format.h with its positions of type `int`.

  `findFlg` and `sformatLoop` count positions in natural numbers.  In the source a
  position is an `int`: the search counts it up, and `end` is the sum of a position
  and a size, converted to `int`.  An `int` that leaves its range is taken to wrap.

  * `findFlg32`, `sformat32`: the members of the class with these positions;
  * `Tracks`, `sformat32_eq`: as long as the texts are shorter than `2 ^ 31` bytes they
    do what `findFlg` and `sformat` do;
  * `sformat32_template`: a template that stays that short is filled;
  * `sformat32_fills_iff`, `sformat32_tolerates_iff`, `sformat32_rounds`: the formatter
    on templates, on any text, and round by round.
-/
import SimpleChat.Substitution

namespace SimpleChat

open Lib

/-! ## The class -/

/-- The loop of `find_flg` at the index `i`; compared with a size, a negative index is
    beyond every text. -/
def findFlgFrom32 : Str → ℤ → Option ℕ → Option (ℕ × ℕ)
  | [], _, _ => none
  | c :: s, i, begin_ =>
    if i < 0 then none
    else if c = lbrace then findFlgFrom32 s (narrow32 (i + 1)) (some i.toNat)
    else if c = rbrace then
      match begin_ with
      | some b => some (b, i.toNat)
      | none => findFlgFrom32 s (narrow32 (i + 1)) none
    else findFlgFrom32 s (narrow32 (i + 1)) begin_

/-- `find_flg` from the index `inBegin` on. -/
def findFlg32 (str : Str) (inBegin : ℤ) : Option (ℕ × ℕ) :=
  findFlgFrom32 (str.drop inBegin.toNat) inBegin none

/-- The loop of `sformat_t`.  Where `end` wraps, the search can go back into what has been
    put in; a loop that takes more than `fuel` rounds counts as endless. -/
def sformatLoop32 (vec : List Str) : ℕ → Str → ℤ → ℤ → Outcome Str
  | fuel, str, val, end_ =>
    match findFlg32 str end_ with
    | none => .ok str
    | some (flgBegin, flgEnd) =>
      match fuel with
      | 0 => .error .endless
      | fuel + 1 =>
        match toNum str flgBegin flgEnd with
        | some v =>
          match vecAt vec v with
          | some a => sformatLoop32 vec fuel (replaceString str a flgBegin flgEnd) v
              (narrow32 (flgEnd + a.length))
          | none => .error (.thrown .outOfRange)
        | none =>
          match vecAt vec val with
          | some a => sformatLoop32 vec fuel str val (narrow32 (flgEnd + a.length))
          | none => .error (.thrown .outOfRange)

/-- `sformat(str)(vec...)`. -/
def sformat32 (fuel : ℕ) (str : Str) (vec : List Str) : Outcome Str :=
  sformatLoop32 vec fuel str (-1) 0

/-! ## The search -/

section
variable {vec : List Str} {val end_ : ℤ} {fuel : ℕ} {str s : Str} {b e : ℕ}

theorem findFlgFrom32_neg {i : ℤ} (h : i < 0) (s : Str) (o : Option ℕ) : findFlgFrom32 s i o = none := by
  cases s with
  | nil => rfl
  | cons c s =>
    unfold findFlgFrom32
    exact if_pos h

theorem findFlg32_neg (h : end_ < 0) (str : Str) : findFlg32 str end_ = none :=
  findFlgFrom32_neg h _ _

/-- The search finds the groups that end below `2 ^ 31`. -/
theorem findFlgFrom32_eq (s : Str) : ∀ {i : ℕ} {o : Option ℕ}, i < 2 ^ 31 → (∀ j ∈ o, j < i) →
    findFlgFrom32 s i o = (findFlgFrom s i o).filter (·.2 < 2 ^ 31) := by
  induction s with
  | nil => exact fun _ _ => rfl
  | cons c s ih =>
    intro i o hi ho
    have hnext : ∀ o, (∀ j ∈ o, j < i + 1) → findFlgFrom32 s (narrow32 (i + 1)) o =
        (findFlgFrom s (i + 1) o).filter (·.2 < 2 ^ 31) := by
      intro o ho
      by_cases hlt : i + 1 < 2 ^ 31
      · rw [narrow32_of_range (by omega)]
        exact_mod_cast ih hlt ho
      · -- no index is left, and a group further on ends beyond the range
        rw [findFlgFrom32_neg (narrow32_neg (by omega))]
        refine (Option.filter_eq_none_iff.2 fun q hq => ?_).symm
        have hbounds := findFlgFrom_bounds hq ho
        simp only [decide_eq_true_eq]
        omega
    have ho' : ∀ j ∈ o, j < i + 1 := fun j hj => (ho j hj).trans i.lt_succ_self
    unfold findFlgFrom32 findFlgFrom
    rw [if_neg (by omega), Int.toNat_natCast]
    split_ifs with h₁ h₂
    · exact hnext _ (by simp)
    · cases o with
      | none => exact hnext _ (by simp)
      | some j => exact (Option.filter_eq_some_iff.2 ⟨rfl, by simpa using hi⟩).symm
    · exact hnext _ ho'

theorem findFlg32_eq {n : ℕ} (h : n < 2 ^ 31) (str : Str) :
    findFlg32 str n = (findFlg str n).filter (·.2 < 2 ^ 31) := by
  rw [findFlg32, Int.toNat_natCast]
  exact findFlgFrom32_eq _ h (by simp)

/-- In a text that an `int` can index, every group is found. -/
theorem findFlg32_short {n : ℕ} (h : n < 2 ^ 31) (hlen : str.length < 2 ^ 31) :
    findFlg32 str n = findFlg str n := by
  rw [findFlg32_eq h]
  cases hf : findFlg str n with
  | none => rfl
  | some q =>
    have hbounds := findFlg_bounds hf
    exact Option.filter_eq_some_iff.2 ⟨rfl, decide_eq_true (by omega)⟩

theorem findFlg32_bounds (hend : end_ < 2 ^ 31) (h : findFlg32 str end_ = some (b, e)) :
    0 ≤ end_ ∧ end_ ≤ b ∧ b < e ∧ e < str.length ∧ e < 2 ^ 31 := by
  by_cases hneg : end_ < 0
  · rw [findFlg32_neg hneg] at h
    cases h
  · obtain ⟨n, rfl⟩ := Int.eq_ofNat_of_zero_le (not_lt.1 hneg)
    rw [findFlg32_eq (by omega)] at h
    obtain ⟨hf, hlt⟩ := Option.filter_eq_some_iff.1 h
    have hbounds := findFlg_bounds hf
    have hlt : e < 2 ^ 31 := of_decide_eq_true hlt
    omega

theorem sformatLoop32_none (h : findFlg32 str end_ = none) :
    sformatLoop32 vec fuel str val end_ = .ok str := by
  unfold sformatLoop32
  rw [h]

theorem sformatLoop32_some (h : findFlg32 str end_ = some (b, e)) :
    sformatLoop32 vec (fuel + 1) str val end_ = match toNum str b e with
      | some v => match vecAt vec v with
        | some a => sformatLoop32 vec fuel (replaceString str a b e) v (narrow32 (e + a.length))
        | none => .error (.thrown .outOfRange)
      | none => match vecAt vec val with
        | some a => sformatLoop32 vec fuel str val (narrow32 (e + a.length))
        | none => .error (.thrown .outOfRange) := by
  conv_lhs => unfold sformatLoop32
  rw [h]

/-- Where the search goes on behind a group and an argument that an `int` can index. -/
theorem narrow32_next {e k : ℕ} (he : e < 2 ^ 31) (hk : k < 2 ^ 31) :
    (narrow32 (e + k) = (e + k : ℕ) ∧ e + k < 2 ^ 31) ∨ (narrow32 (e + k) < 0 ∧ 2 ^ 31 ≤ e + k) := by
  by_cases h : e + k < 2 ^ 31
  · exact .inl ⟨by rw [narrow32_of_range (by omega), Nat.cast_add], h⟩
  · exact .inr ⟨narrow32_neg (by omega), by omega⟩

end

/-! ## Its rounds -/

/-- `_str`, `val` and `end` between two rounds. -/
structure LoopState32 where
  str : Str
  val : ℤ
  end_ : ℤ

section
variable (vec : List Str)

/-- A round that goes on. -/
inductive Round32 (s : LoopState32) : Found → LoopState32 → Prop
  | put {b e : ℕ} {v : ℤ} {a : Str} : findFlg32 s.str s.end_ = some (b, e) →
      toNum s.str b e = some v → vecAt vec v = some a →
      Round32 s ⟨b, e, some a⟩ ⟨replaceString s.str a b e, v, narrow32 (e + a.length)⟩
  | skip {b e : ℕ} {a : Str} : findFlg32 s.str s.end_ = some (b, e) → toNum s.str b e = none →
      vecAt vec s.val = some a → Round32 s ⟨b, e, none⟩ ⟨s.str, s.val, narrow32 (e + a.length)⟩

/-- The `_vec.at(val)` of the next round throws. -/
def Throws32 (s : LoopState32) : Prop :=
  ∃ b e, findFlg32 s.str s.end_ = some (b, e) ∧ vecAt vec ((toNum s.str b e).getD s.val) = none

variable {vec}

/-- The loop takes the rounds. -/
theorem sformatLoop32_round {s s' : LoopState32} {f : Found} (h : Round32 vec s f s') (fuel : ℕ) :
    sformatLoop32 vec (fuel + 1) s.str s.val s.end_ = sformatLoop32 vec fuel s'.str s'.val s'.end_ := by
  cases h with
  | put hf hn hv => simp only [sformatLoop32_some hf, hn, hv]
  | skip hf hn hv => simp only [sformatLoop32_some hf, hn, hv]

theorem sformatLoop32_run {s s' : LoopState32} {fs : List Found} (h : Run (Round32 vec) s fs s') :
    ∀ fuel, sformatLoop32 vec (fs.length + fuel) s.str s.val s.end_ =
      sformatLoop32 vec fuel s'.str s'.val s'.end_ := by
  induction h with
  | start =>
    intro fuel
    rw [List.length_nil, Nat.zero_add]
  | next _ hr ih =>
    intro fuel
    rw [List.length_append, List.length_singleton, Nat.add_assoc, Nat.add_comm 1, ih,
      sformatLoop32_round hr]

theorem sformatLoop32_throws {s : LoopState32} (h : Throws32 vec s) (fuel : ℕ) :
    sformatLoop32 vec (fuel + 1) s.str s.val s.end_ = .error (.thrown .outOfRange) := by
  obtain ⟨b, e, hf, hv⟩ := h
  rw [sformatLoop32_some hf]
  cases hn : toNum s.str b e with
  | none =>
    rw [hn, Option.getD_none] at hv
    simp only [hv]
  | some v =>
    rw [hn, Option.getD_some] at hv
    simp only [hv]

/-- A call that returns has gone through its rounds. -/
theorem rounds_of_ok {s : LoopState32} {u : Str} {fuel : ℕ}
    (h : sformatLoop32 vec fuel s.str s.val s.end_ = .ok u) :
    ∃ fs s', Run (Round32 vec) s fs s' ∧ u = s'.str := by
  induction fuel generalizing s with
  | zero =>
    cases hf : findFlg32 s.str s.end_ with
    | none =>
      rw [sformatLoop32_none hf] at h
      exact ⟨[], s, .start, (Except.ok.inj h).symm⟩
    | some q =>
      unfold sformatLoop32 at h
      rw [hf] at h
      cases h
  | succ fuel ih =>
    have hround : ∀ f s', Round32 vec s f s' → ∃ fs s', Run (Round32 vec) s fs s' ∧ u = s'.str := by
      intro f s' hr
      rw [sformatLoop32_round hr] at h
      obtain ⟨fs, s'', hrun, hu⟩ := ih h
      exact ⟨[f] ++ fs, s'', Run.trans (.next .start hr) hrun, hu⟩
    cases hf : findFlg32 s.str s.end_ with
    | none =>
      rw [sformatLoop32_none hf] at h
      exact ⟨[], s, .start, (Except.ok.inj h).symm⟩
    | some q =>
      obtain ⟨b, e⟩ := q
      cases hn : toNum s.str b e with
      | none =>
        cases hv : vecAt vec s.val with
        | none =>
          rw [sformatLoop32_throws ⟨b, e, hf, by rw [hn]; exact hv⟩] at h
          cases h
        | some a => exact hround _ _ (.skip hf hn hv)
      | some v =>
        cases hv : vecAt vec v with
        | none =>
          rw [sformatLoop32_throws ⟨b, e, hf, by rw [hn]; exact hv⟩] at h
          cases h
        | some a => exact hround _ _ (.put hf hn hv)

theorem vecAt_mem {v : ℤ} {a : Str} (h : vecAt vec v = some a) : a ∈ vec := by
  unfold vecAt at h
  split_ifs at h
  exact List.mem_of_getElem? h

/-- A search that begins at `n` or later, or finds nothing. -/
structure Beyond (n : ℕ) (s : LoopState32) : Prop where
  fits : s.end_ < 2 ^ 31
  from_ : s.end_ < 0 ∨ n ≤ s.end_

/-- Arguments that an `int` can index do not bring the search back. -/
theorem Beyond.round {n : ℕ} {s s' : LoopState32} {f : Found} (h : Beyond n s)
    (hvec : ∀ a ∈ vec, a.length < 2 ^ 31) (hr : Round32 vec s f s') :
    Beyond n s' ∧ s'.str.take n = s.str.take n := by
  have hnext : ∀ {b e : ℕ} {a str : Str} {val : ℤ}, findFlg32 s.str s.end_ = some (b, e) → a ∈ vec →
      n ≤ b ∧ b < s.str.length ∧ Beyond n ⟨str, val, narrow32 (e + a.length)⟩ := by
    intro b e a str val hf ha
    obtain ⟨h0, hb, hbe, he, hlt⟩ := findFlg32_bounds h.fits hf
    have hn := h.from_
    refine ⟨by omega, by omega, ?_⟩
    rcases narrow32_next hlt (hvec a ha) with ⟨heq, hlt'⟩ | ⟨hneg, -⟩
    · rw [heq]
      constructor <;> simp only <;> omega
    · constructor <;> simp only <;> omega
  cases hr with
  | put hf hn hv =>
    obtain ⟨hb, hlen, hend⟩ := hnext hf (vecAt_mem hv)
    refine ⟨hend, ?_⟩
    rw [replaceString, List.append_assoc, List.take_append_of_le_length (by rw [List.length_take]; omega),
      List.take_take, min_eq_left hb]
  | skip hf hn hv => exact ⟨(hnext hf (vecAt_mem hv)).2.2, rfl⟩

theorem Beyond.ok {n fuel : ℕ} {s : LoopState32} {u : Str} (h : Beyond n s)
    (hvec : ∀ a ∈ vec, a.length < 2 ^ 31) (hu : sformatLoop32 vec fuel s.str s.val s.end_ = .ok u) :
    u.take n = s.str.take n := by
  obtain ⟨fs, s', hrun, rfl⟩ := rounds_of_ok hu
  have hinv := hrun.invariant (I := fun s' => Beyond n s' ∧ s'.str.take n = s.str.take n) ⟨h, rfl⟩ <| by
    intro s₁ f s₂ h₁ hr
    obtain ⟨hbeyond, htake⟩ := h₁.1.round hvec hr
    exact ⟨hbeyond, htake.trans h₁.2⟩
  exact hinv.2

/-- The same text and number, and the position, unless it does not fit: then the search is
    over here and there. -/
structure Tracks (t : LoopState32) (s : LoopState) : Prop where
  str : t.str = s.str
  val : t.val = s.val
  end_ : (t.end_ = s.end_ ∧ s.end_ < 2 ^ 31) ∨ (t.end_ < 0 ∧ 2 ^ 31 ≤ s.end_)

theorem Tracks.findFlg {t : LoopState32} {s : LoopState} (h : Tracks t s)
    (hlen : s.str.length < 2 ^ 31) : findFlg32 t.str t.end_ = findFlg s.str s.end_ := by
  rw [h.str]
  rcases h.end_ with ⟨heq, hlt⟩ | ⟨hneg, hge⟩
  · rw [heq, findFlg32_short hlt hlen]
  · rw [findFlg32_neg hneg]
    refine (Option.eq_none_iff_forall_not_mem.2 fun q hq => ?_).symm
    have hbounds := findFlg_bounds hq
    omega

theorem tracks_next {str a : Str} {val : ℤ} {e : ℕ} (he : e < 2 ^ 31) (ha : a.length < 2 ^ 31) :
    Tracks ⟨str, val, narrow32 (e + a.length)⟩ ⟨str, val, e + a.length⟩ :=
  ⟨rfl, rfl, by simpa only using narrow32_next he ha⟩

end

section
variable {vec : List Str} {t t' : LoopState32} {s s' : LoopState} {f : Found}

/-- **A round on the positions that fit is a round.** -/
theorem Tracks.round (hvec : ∀ a ∈ vec, a.length < 2 ^ 31) (h : Tracks t s)
    (hlen : s.str.length < 2 ^ 31) (hr : Round32 vec t f t') : ∃ s', Round vec s f s' ∧ Tracks t' s' := by
  have hfind := h.findFlg hlen
  cases hr with
  | put hf hn hv =>
    rw [hfind] at hf
    rw [h.str] at hn ⊢
    have hbounds := findFlg_bounds hf
    exact ⟨_, .put hf hn hv, tracks_next (by omega) (hvec _ (vecAt_mem hv))⟩
  | skip hf hn hv =>
    rw [hfind] at hf
    rw [h.str] at hn ⊢
    rw [h.val] at hv ⊢
    have hbounds := findFlg_bounds hf
    exact ⟨_, .skip hf hn hv, tracks_next (by omega) (hvec _ (vecAt_mem hv))⟩

theorem Tracks.round32 (hvec : ∀ a ∈ vec, a.length < 2 ^ 31) (h : Tracks t s)
    (hlen : s.str.length < 2 ^ 31) (hr : Round vec s f s') : ∃ t', Round32 vec t f t' ∧ Tracks t' s' := by
  have hfind := h.findFlg hlen
  cases hr with
  | put hf hn hv =>
    have hbounds := findFlg_bounds hf
    rw [← hfind] at hf
    rw [← h.str] at hn ⊢
    exact ⟨_, .put hf hn hv, tracks_next (by omega) (hvec _ (vecAt_mem hv))⟩
  | skip hf hn hv =>
    have hbounds := findFlg_bounds hf
    rw [← hfind] at hf
    rw [← h.str] at hn ⊢
    rw [← h.val] at hv ⊢
    exact ⟨_, .skip hf hn hv, tracks_next (by omega) (hvec _ (vecAt_mem hv))⟩

theorem Tracks.throws_iff (h : Tracks t s) (hlen : s.str.length < 2 ^ 31) :
    Throws32 vec t ↔ Throws vec s := by
  rw [Throws32, Throws, h.findFlg hlen, h.str, h.val]

end

/-! ## Texts that an `int` can index -/

/-- The texts that the loop works on are shorter than `2 ^ 31` bytes. -/
def Short (vec : List Str) (str : Str) : Prop :=
  ∀ fs s, Run (Round32 vec) ⟨str, -1, 0⟩ fs s → s.str.length < 2 ^ 31

section
variable {vec : List Str} {str : Str} {fs : List Found} {t : LoopState32} {s : LoopState} {L fuel : ℕ}

theorem tracks_start (str : Str) : Tracks ⟨str, -1, 0⟩ ⟨str, -1, 0⟩ :=
  ⟨rfl, rfl, .inl ⟨rfl, by norm_num⟩⟩

theorem Short.run (h : Short vec str) (hvec : ∀ a ∈ vec, a.length < 2 ^ 31)
    (hr : Run (Round32 vec) ⟨str, -1, 0⟩ fs t) : ∃ s, Run (Round vec) ⟨str, -1, 0⟩ fs s ∧ Tracks t s := by
  induction hr with
  | start => exact ⟨_, .start, tracks_start str⟩
  | @next fs t t' f hrun hround ih =>
    obtain ⟨s, hs, ht⟩ := ih
    have hlen : s.str.length < 2 ^ 31 := ht.str ▸ h _ _ hrun
    obtain ⟨s', hs', ht'⟩ := ht.round hvec hlen hround
    exact ⟨s', .next hs hs', ht'⟩

theorem Short.run32 (h : Short vec str) (hvec : ∀ a ∈ vec, a.length < 2 ^ 31)
    (hr : Run (Round vec) ⟨str, -1, 0⟩ fs s) :
    ∃ t, Run (Round32 vec) ⟨str, -1, 0⟩ fs t ∧ Tracks t s := by
  induction hr with
  | start => exact ⟨_, .start, tracks_start str⟩
  | @next fs s s' f hrun hround ih =>
    obtain ⟨t, hrun', ht⟩ := ih
    have hlen : s.str.length < 2 ^ 31 := ht.str ▸ h _ _ hrun'
    obtain ⟨t', ht', htracks⟩ := ht.round32 hvec hlen hround
    exact ⟨t', .next hrun' ht', htracks⟩

/-- **The formatter on short texts**: its rounds are those of `sformat`, and there are at
    most as many as closing braces. -/
theorem Short.rounds (h : Short vec str) (hvec : ∀ a ∈ vec, a.length < 2 ^ 31) :
    ∃ fs t, Run (Round32 vec) ⟨str, -1, 0⟩ fs t ∧
      ((findFlg32 t.str t.end_ = none ∧ fs.length ≤ str.count rbrace ∧ sformat str vec = .ok t.str) ∨
        (Throws32 vec t ∧ fs.length + 1 ≤ str.count rbrace ∧
          sformat str vec = .error (.thrown .outOfRange))) := by
  obtain ⟨⟨fs, s, hrun, hend⟩, -⟩ := sformat_rounds vec str
  obtain ⟨t, hrun', ht⟩ := h.run32 hvec hrun
  have hlen : s.str.length < 2 ^ 31 := ht.str ▸ h _ _ hrun'
  refine ⟨fs, t, hrun', ?_⟩
  rw [ht.findFlg hlen, ht.throws_iff hlen, ht.str]
  rcases hend with ⟨hf, hok, hcount⟩ | ⟨hthrow, herr, hcount⟩
  · exact .inl ⟨hf, hcount, hok⟩
  · exact .inr ⟨hthrow, hcount, herr⟩

/-- **The positions do not matter** as long as they fit. -/
theorem Short.sformat_eq (h : Short vec str) (hvec : ∀ a ∈ vec, a.length < 2 ^ 31)
    (hfuel : str.count rbrace ≤ fuel) : sformat32 fuel str vec = sformat str vec := by
  obtain ⟨fs, t, hrun, hend⟩ := h.rounds hvec
  have hloop := sformatLoop32_run hrun
  rw [sformat32]
  rcases hend with ⟨hf, hcount, hok⟩ | ⟨hthrow, hcount, herr⟩
  · obtain ⟨k, rfl⟩ := Nat.exists_eq_add_of_le (hcount.trans hfuel)
    rw [hloop, sformatLoop32_none hf, hok]
  · obtain ⟨k, rfl⟩ := Nat.exists_eq_add_of_le (hcount.trans hfuel)
    rw [Nat.add_assoc, Nat.add_comm 1, hloop, sformatLoop32_throws hthrow, herr]

theorem Round.length_le {s' : LoopState} {f : Found} (h : Round vec s f s')
    (hvec : ∀ a ∈ vec, a.length ≤ L) : s'.str.length ≤ s.str.length + L := by
  cases h with
  | skip hf hn hv => exact Nat.le_add_right _ _
  | @put b e v a hf hn hv =>
    have hbounds := findFlg_bounds hf
    have ha := hvec a (vecAt_mem hv)
    simp only [replaceString, List.length_append, List.length_take, List.length_drop]
    omega

/-- Each round adds at most the longest argument. -/
theorem short_of_le (hvec : ∀ a ∈ vec, a.length ≤ L) (hL : L < 2 ^ 31)
    (hlen : str.length + str.count rbrace * L < 2 ^ 31) : Short vec str := by
  have hshort : ∀ {fs : List Found} {s : LoopState}, Run (Round vec) ⟨str, -1, 0⟩ fs s →
      s.str.length ≤ str.length + fs.length * L → s.str.length < 2 ^ 31 := by
    intro fs s hrun hle
    have hcount : fs.length ≤ str.count rbrace :=
      (Nat.le_add_left _ _).trans ((rounds_length hrun).trans (closers_le str))
    exact (hle.trans (Nat.add_le_add_left (Nat.mul_le_mul_right L hcount) _)).trans_lt hlen
  intro fs t hrun
  have hbound : ∃ s, Run (Round vec) ⟨str, -1, 0⟩ fs s ∧ Tracks t s ∧
      s.str.length ≤ str.length + fs.length * L := by
    induction hrun with
    | start => exact ⟨_, .start, tracks_start str, Nat.le_add_right _ _⟩
    | @next fs t t' f hrun hround ih =>
      obtain ⟨s, hs, ht, hle⟩ := ih
      obtain ⟨s', hs', ht'⟩ :=
        ht.round (fun a ha => (hvec a ha).trans_lt hL) (hshort hs hle) hround
      refine ⟨s', .next hs hs', ht', (hs'.length_le hvec).trans ?_⟩
      rw [List.length_append, List.length_singleton, Nat.succ_mul]
      omega
  obtain ⟨s, hs, ht, hle⟩ := hbound
  rw [ht.str]
  exact hshort hs hle

/-- **The loop of `sformat` ends and searches nothing that it has put in**, as long as its
    texts are short.  It finds at most as many groups as the template has closing braces;
    after an argument has been put in, all searches begin beyond it (from a negative
    position there is none), and it stays in the text as it is. -/
theorem sformat32_rounds (hvec : ∀ a ∈ vec, a.length < 2 ^ 31) (hshort : Short vec str) :
    (∃ fs t, Run (Round32 vec) ⟨str, -1, 0⟩ fs t ∧
      ((findFlg32 t.str t.end_ = none ∧ fs.length ≤ str.count rbrace ∧
          ∀ fuel, str.count rbrace ≤ fuel → sformat32 fuel str vec = .ok t.str) ∨
        (Throws32 vec t ∧ fs.length + 1 ≤ str.count rbrace ∧
          ∀ fuel, str.count rbrace ≤ fuel → sformat32 fuel str vec = .error (.thrown .outOfRange)))) ∧
    ∀ fs₁ f fs₂ t₁ t₂ a, Run (Round32 vec) ⟨str, -1, 0⟩ (fs₁ ++ [f]) t₁ →
      Run (Round32 vec) t₁ fs₂ t₂ → f.put = some a →
        (0 ≤ t₂.end_ → f.flgBegin + a.length < t₂.end_) ∧
          (t₂.str.drop f.flgBegin).take a.length = a := by
  constructor
  · obtain ⟨fs, t, hrun, hend⟩ := hshort.rounds hvec
    refine ⟨fs, t, hrun, ?_⟩
    rcases hend with ⟨hf, hcount, hok⟩ | ⟨hthrow, hcount, herr⟩
    · exact .inl ⟨hf, hcount, fun fuel hfuel => by rw [hshort.sformat_eq hvec hfuel, hok]⟩
    · exact .inr ⟨hthrow, hcount, fun fuel hfuel => by rw [hshort.sformat_eq hvec hfuel, herr]⟩
  · intro fs₁ f fs₂ t₁ t₂ a h₁ h₂ ha
    obtain ⟨s₂, hrun, ht₂⟩ := hshort.run hvec (h₁.trans h₂)
    obtain ⟨s₁, h₁', h₂'⟩ := hrun.split
    obtain ⟨hbeyond, hsame⟩ := (sformat_rounds vec str).2 fs₁ f fs₂ s₁ s₂ a h₁' h₂' ha
    rw [ht₂.str]
    refine ⟨fun hpos => ?_, hsame⟩
    rcases ht₂.end_ with ⟨heq, -⟩ | ⟨hneg, -⟩
    · rw [heq]
      exact_mod_cast hbeyond
    · exact absurd hpos (not_le.2 hneg)

theorem sformat32_rounds_marker :
    (∃ fs t, Run (Round32 [lit "{0}", lit "x"]) ⟨lit "{0} {1}", -1, 0⟩ fs t ∧
      ((findFlg32 t.str t.end_ = none ∧ fs.length ≤ (lit "{0} {1}").count rbrace ∧
          ∀ fuel, (lit "{0} {1}").count rbrace ≤ fuel →
            sformat32 fuel (lit "{0} {1}") [lit "{0}", lit "x"] = .ok t.str) ∨
        (Throws32 [lit "{0}", lit "x"] t ∧ fs.length + 1 ≤ (lit "{0} {1}").count rbrace ∧
          ∀ fuel, (lit "{0} {1}").count rbrace ≤ fuel →
            sformat32 fuel (lit "{0} {1}") [lit "{0}", lit "x"] = .error (.thrown .outOfRange)))) ∧
    ∀ fs₁ f fs₂ t₁ t₂ a, Run (Round32 [lit "{0}", lit "x"]) ⟨lit "{0} {1}", -1, 0⟩ (fs₁ ++ [f]) t₁ →
      Run (Round32 [lit "{0}", lit "x"]) t₁ fs₂ t₂ → f.put = some a →
        (0 ≤ t₂.end_ → f.flgBegin + a.length < t₂.end_) ∧
          (t₂.str.drop f.flgBegin).take a.length = a :=
  sformat32_rounds (by decide) (short_of_le (L := 3) (by decide) (by norm_num) (by decide))

/-- An argument of `2 ^ 32` bytes, with which `end` comes back to where it was. -/
def longArg : Str := lit "ab{0}" ++ List.replicate (2 ^ 32 - 5) 120

theorem length_longArg : longArg.length = 2 ^ 32 := by
  have hhead : (lit "ab{0}").length = 5 := by decide
  rw [longArg, List.length_append, List.length_replicate, hhead]
  norm_num

/-- The marker inside the argument is found, and replaced. -/
theorem sformat32_rescans : ∃ f₁ f₂ t, Run (Round32 [longArg]) ⟨lit "{0}", -1, 0⟩ [f₁, f₂] t ∧
    (lit "{0}").count rbrace < [f₁, f₂].length ∧
    f₁.put = some longArg ∧ f₂.flgBegin < f₁.flgBegin + longArg.length := by
  have harg : vecAt [longArg] 0 = some longArg := rfl
  have hfirst : Round32 [longArg] ⟨lit "{0}", -1, 0⟩ ⟨0, 2, some longArg⟩ ⟨longArg, 0, 2⟩ := by
    have hround : Round32 [longArg] ⟨lit "{0}", -1, 0⟩ ⟨0, 2, some longArg⟩
        ⟨replaceString (lit "{0}") longArg 0 2, 0, narrow32 ((2 : ℕ) + longArg.length)⟩ :=
      .put (by decide) (by decide) harg
    have hstr : replaceString (lit "{0}") longArg 0 2 = longArg := List.append_nil _
    have hend : narrow32 ((2 : ℕ) + longArg.length) = 2 := by
      rw [length_longArg]
      exact narrow32_add 2
    rwa [hstr, hend] at hround
  -- the search goes on at the marker behind "ab"
  have hgroup : findFlg32 longArg 2 = some (2, 4) := by
    have hsplit : splitFlg (longArg.drop 2) = some ([], lit "0", List.replicate (2 ^ 32 - 5) 120) :=
      splitFlg_append (p := []) (x := lit "0") (by decide) (by decide) (by decide) _
    have hfind := findFlg_eq longArg 2
    rw [hsplit] at hfind
    have hshort := findFlg32_eq (n := 2) (by norm_num) longArg
    rw [hfind] at hshort
    exact hshort
  have hnum : toNum longArg 2 4 = some 0 :=
    toNum_flgAt (lit "ab") [] (lit "0") (List.replicate (2 ^ 32 - 5) 120)
  have hsecond : Round32 [longArg] ⟨longArg, 0, 2⟩ ⟨2, 4, some longArg⟩
      ⟨replaceString longArg longArg 2 4, 0, narrow32 ((4 : ℕ) + longArg.length)⟩ :=
    .put hgroup hnum harg
  refine ⟨_, _, _, .next (.next .start hfirst) hsecond, by decide, rfl, ?_⟩
  rw [length_longArg]
  norm_num

end

/-! ## Templates -/

section
variable {vec : List Str} {n fuel : ℕ} {p : Str} {ms : List (ℕ × Str)}

/-- The rest of a template, behind what the search passes over. -/
theorem template_drop (g : Str) (k : ℕ) (ms : List (ℕ × Str)) :
    template g ms = g.take k ++ template (g.drop k) ms := by
  rw [template, template, ← List.append_assoc, List.take_append_drop]

/-- The first round on a template. -/
theorem sformatLoop32_marker {d g : Str} (val : ℤ) (hp : NoFlg p) (hn : n < vec.length)
    (hb : (n : ℤ) ≤ 2 ^ 31 - 1) (hlen : (d ++ template p ((n, g) :: ms)).length < 2 ^ 31) :
    sformatLoop32 vec (fuel + 1) (d ++ template p ((n, g) :: ms)) val d.length =
      sformatLoop32 vec fuel ((d ++ p ++ vec.getD n []) ++ template g ms) n
        (narrow32 ((d.length + p.length + 1 + (natText n).length : ℕ) + (vec.getD n []).length)) := by
  obtain ⟨hl, hr⟩ := brace_notMem_digits (natText_digits n)
  have hfind : findFlg32 (d ++ template p ((n, g) :: ms)) d.length =
      some (d.length + p.length, d.length + p.length + 1 + (natText n).length) := by
    rw [findFlg32_short (by rw [List.length_append] at hlen; omega) hlen, findFlg_eq,
      List.drop_left, template_cons, splitFlg_append hp hl hr]
    rfl
  rw [template_cons] at hfind ⊢
  rw [sformatLoop32_some hfind, toNum_flgAt, stoi_natText, if_pos hb]
  simp only [vecAt_natCast hn, replaceString_flgAt]

/-- The loop ends where no group is left. -/
theorem sformatLoop32_rest {d : Str} (k : ℕ) (val : ℤ) (hp : NoFlg (p.drop k)) (hlen : d.length + k < 2 ^ 31) :
    sformatLoop32 vec fuel (d ++ p) val (d.length + k : ℕ) = .ok (d ++ p) := by
  rw [sformatLoop32_none]
  rw [findFlg32_eq hlen, findFlg_eq, List.drop_length_add_append, show splitFlg (p.drop k) = none from hp]
  rfl

/-- **A spaced template is filled**, from any of its markers on. -/
theorem sformatLoop32_template (hms : ∀ m ∈ ms, lbrace ∉ m.2 ∧ m.1 < vec.length ∧ (m.1 : ℤ) ≤ 2 ^ 31 - 1)
    (hs : Spaced ms) : ∀ {d p : Str} (val : ℤ) {fuel : ℕ}, NoFlg p → ms.length ≤ fuel →
      (d ++ template p ms).length + argLength vec ms < 2 ^ 31 →
        sformatLoop32 vec fuel (d ++ template p ms) val d.length = .ok (d ++ filled vec p ms) := by
  induction ms with
  | nil =>
    intro d p val fuel hp _ hlen
    have htext : template p [] = p ∧ filled vec p [] = p := by simp [template, filled]
    rw [htext.1, List.length_append] at hlen
    rw [htext.1, htext.2]
    exact sformatLoop32_rest 0 val hp (by omega)
  | cons m ms ih =>
    obtain ⟨n, g⟩ := m
    intro d p val fuel hp hfuel hlen
    have hm : lbrace ∉ g ∧ n < vec.length ∧ (n : ℤ) ≤ 2 ^ 31 - 1 := hms (n, g) List.mem_cons_self
    obtain ⟨hg, hn, hb⟩ := hm
    obtain ⟨fuel, rfl⟩ : ∃ k, fuel = k + 1 := ⟨fuel - 1, by simp at hfuel; omega⟩
    have hsum : argLength vec ((n, g) :: ms) = (vec.getD n []).length + argLength vec ms := rfl
    rw [hsum] at hlen
    have htext : (d ++ p ++ vec.getD n [] ++ template g ms).length + ((natText n).length + 2) =
        (d ++ template p ((n, g) :: ms)).length + (vec.getD n []).length := by
      rw [template_cons]
      simp only [List.length_append, List.length_cons]
      omega
    have hfilled : d ++ filled vec p ((n, g) :: ms) = d ++ p ++ vec.getD n [] ++ filled vec g ms := by
      simp [filled]
    have hk : NoFlg (g.drop ((natText n).length + 1)) :=
      noFlg_of_notMem fun h => hg (List.mem_of_mem_drop h)
    have hend : narrow32 ((d.length + p.length + 1 + (natText n).length : ℕ) + (vec.getD n []).length) =
        ((d ++ p ++ vec.getD n []).length + ((natText n).length + 1) : ℕ) := by
      simp only [List.length_append] at htext hlen ⊢
      rw [narrow32_of_range (by omega)]
      push_cast
      ring
    rw [sformatLoop32_marker val hp hn hb ((Nat.le_add_right _ _).trans_lt hlen), hfilled, hend]
    rcases ms with _ | ⟨m', ms⟩
    · have hlast : template g [] = g ∧ filled vec g [] = g := by simp [template, filled]
      rw [hlast.1, hlast.2] at *
      refine sformatLoop32_rest _ _ hk ?_
      rw [List.length_append] at htext
      omega
    · -- the bytes passed over end before the next marker
      have hlong : (natText n).length + 1 ≤ g.length := hs.1
      have hpass : (d ++ p ++ vec.getD n []).length + ((natText n).length + 1) =
          (d ++ p ++ vec.getD n [] ++ g.take ((natText n).length + 1)).length := by
        simp only [List.length_append, List.length_take_of_le hlong]
      have hfill : filled vec g (m' :: ms) = g.take ((natText n).length + 1) ++
          filled vec (g.drop ((natText n).length + 1)) (m' :: ms) := by
        rw [filled, filled, ← List.append_assoc, List.take_append_drop]
      rw [template_drop g ((natText n).length + 1), ← List.append_assoc] at htext ⊢
      rw [hpass, hfill, ← List.append_assoc]
      exact ih (fun m hm => hms m (List.mem_cons_of_mem _ hm)) hs.2 _ hk (by simpa using hfuel) (by omega)

theorem sformat32_template (hp : NoFlg p)
    (hms : ∀ m ∈ ms, lbrace ∉ m.2 ∧ m.1 < vec.length ∧ (m.1 : ℤ) ≤ 2 ^ 31 - 1) (hs : Spaced ms)
    (hfuel : ms.length ≤ fuel) (hlen : (template p ms).length + argLength vec ms < 2 ^ 31) :
    sformat32 fuel (template p ms) vec = .ok (filled vec p ms) :=
  sformatLoop32_template (d := []) hms hs (-1) hp hfuel hlen

theorem fills_sformat32 (h : 5 ≤ fuel) : Fills (sformat32 fuel) (2 ^ 31 : ℕ) :=
  fun hp hms hs hfive hlen => sformat32_template hp hms hs (hfive.trans h) (Nat.cast_lt.1 hlen)

/-- A text without brace groups is its own result. -/
theorem sformat32_noFlg {s : Str} (h : NoFlg s) (fuel : ℕ) (vec : List Str) :
    sformat32 fuel s vec = .ok s := by
  have hfind : findFlg s 0 = none := by
    rw [findFlg_eq, List.drop_zero, show splitFlg s = none from h]
    rfl
  refine sformatLoop32_none ?_
  have heq := findFlg32_eq (n := 0) (by norm_num) s
  rw [hfind] at heq
  exact heq

/-- The closing braces of a template are those of its markers. -/
theorem count_template (hp : rbrace ∉ p) (hms : ∀ m ∈ ms, rbrace ∉ m.2) :
    (template p ms).count rbrace = ms.length := by
  induction ms generalizing p with
  | nil => simpa [template] using List.count_eq_zero_of_not_mem hp
  | cons m ms ih =>
    have hrest := ih (hms m List.mem_cons_self) fun m' hm' => hms m' (List.mem_cons_of_mem _ hm')
    have hne : lbrace ≠ rbrace := by decide
    rw [template_cons, List.count_append, List.count_append, List.count_cons_self,
      List.count_cons_of_ne hne, hrest, List.count_eq_zero_of_not_mem hp,
      List.count_eq_zero_of_not_mem (brace_notMem_digits (natText_digits m.1)).2, List.length_cons]
    omega

/-- With one argument, the first group is replaced, or the call throws. -/
theorem sformat32_single {t f x r u : Str} (hf : f.length < 2 ^ 31) (hs : splitFlg t = some (p, x, r))
    (hpos : p.length + 1 + x.length < 2 ^ 31) (h : sformat32 fuel t [f] = .ok u) :
    ∃ u', u = p ++ f ++ u' := by
  have hfind : findFlg32 t 0 = some (p.length, p.length + 1 + x.length) := by
    have heq := findFlg32_eq (n := 0) (by norm_num) t
    rw [findFlg_eq, List.drop_zero, hs] at heq
    refine heq.trans (Option.filter_eq_some_iff.2 ⟨?_, decide_eq_true hpos⟩)
    simp [flgAt]
  have hstr : replaceString t f p.length (p.length + 1 + x.length) = p ++ f ++ r := by
    have hrep := replaceString_flgAt [] p x r f
    rwa [← splitFlg_eq hs, List.nil_append, List.nil_append, List.length_nil, Nat.zero_add] at hrep
  have hat : ∀ v a, vecAt [f] v = some a → a = f := fun v a h => List.mem_singleton.1 (vecAt_mem h)
  cases fuel with
  | zero =>
    unfold sformat32 sformatLoop32 at h
    rw [hfind] at h
    cases h
  | succ fuel =>
    rw [sformat32, sformatLoop32_some hfind] at h
    cases hn : toNum t p.length (p.length + 1 + x.length) with
    | none =>
      simp only [hn, show vecAt [f] (-1) = none from if_neg (by decide)] at h
      cases h
    | some v =>
      simp only [hn] at h
      cases hv : vecAt [f] v with
      | none =>
        simp only [hv] at h
        cases h
      | some a =>
        obtain rfl := hat v a hv
        simp only [hv, hstr] at h
        -- the search goes on behind the argument, if at all
        have hbeyond : Beyond (p ++ a).length
            ⟨p ++ a ++ r, v, narrow32 ((p.length + 1 + x.length : ℕ) + a.length)⟩ := by
          rcases narrow32_next hpos hf with ⟨heq, hlt⟩ | ⟨hneg, -⟩
          · rw [heq]
            constructor <;> simp only [List.length_append] <;> omega
          · constructor <;> simp only <;> omega
        generalize narrow32 ((p.length + 1 + x.length : ℕ) + a.length) = k at h hbeyond
        have htake := hbeyond.ok (by simpa using hf) h
        refine ⟨u.drop (p ++ a).length, ?_⟩
        rw [List.take_left] at htake
        conv_lhs => rw [← List.take_append_drop (p ++ a).length u, htake]

/-- A first group that ends beyond the range is not found. -/
theorem sformat32_far {t x r : Str} (hs : splitFlg t = some (p, x, r))
    (hpos : ¬ p.length + 1 + x.length < 2 ^ 31) : sformat32 fuel t vec = .ok t := by
  refine sformatLoop32_none ?_
  have heq := findFlg32_eq (n := 0) (by norm_num) t
  rw [findFlg_eq, List.drop_zero, hs] at heq
  refine heq.trans (Option.filter_eq_none_iff.2 ?_)
  simpa [flgAt] using hpos

/-- **`sformat` substitutes simultaneously**, in texts that stay below `2 ^ 31` bytes, if
    and only if no marker begins among the bytes that are passed over after the one
    before it. -/
theorem sformat32_fills_iff (hp : lbrace ∉ p ∧ rbrace ∉ p)
    (hms : ∀ m ∈ ms, m.1 < n ∧ lbrace ∉ m.2 ∧ rbrace ∉ m.2) (hlen : (template p ms).length < 2 ^ 31)
    (hfuel : ms.length ≤ fuel) :
    (∀ vec : List Str, vec.length = n → (template p ms).length + argLength vec ms < 2 ^ 31 →
      sformat32 fuel (template p ms) vec = .ok (filled vec p ms)) ↔
      Spaced ms ∧ ∀ m ∈ ms, (m.1 : ℤ) ≤ 2 ^ 31 - 1 := by
  constructor
  · intro h
    -- empty arguments: the text only gets shorter
    have hempty : argLength (List.replicate n []) ms = 0 := by
      refine List.sum_eq_zero fun k hk => ?_
      obtain ⟨m, hm, rfl⟩ := List.mem_map.1 hk
      rw [List.getD_replicate _ (hms m hm).1, List.length_nil]
    have hfill := h (List.replicate n []) List.length_replicate (by rw [hempty]; omega)
    have hcount := count_template hp.2 fun m hm => (hms m hm).2.2
    rw [(short_of_le (L := 0) (by simp) (by norm_num) (by omega)).sformat_eq (by simp)
      (hcount.trans_le hfuel), sformat_eq_scan] at hfill
    refine spaced_of_scan (fun m hm => (hms m hm).2.1) hp.1 hfill ?_
    simp only [filled, List.mem_append, List.mem_flatMap, not_or, not_exists, not_and]
    refine ⟨hp.1, fun m hm => ⟨?_, (hms m hm).2.1⟩⟩
    rw [List.getD_replicate _ (hms m hm).1]
    exact List.not_mem_nil
  · rintro ⟨hspaced, hbound⟩ vec rfl hsum
    exact sformat32_template (noFlg_of_notMem hp.1)
      (fun m hm => ⟨(hms m hm).2.1, (hms m hm).1, hbound m hm⟩) hspaced hfuel hsum

theorem sformat32_fills_iff_pair :
    (∀ vec : List Str, vec.length = 2 →
      (template [] [(1, lit " - "), (0, [])]).length + argLength vec [(1, lit " - "), (0, [])] < 2 ^ 31 →
        sformat32 2 (template [] [(1, lit " - "), (0, [])]) vec =
          .ok (filled vec [] [(1, lit " - "), (0, [])])) ↔
      Spaced [(1, lit " - "), (0, [])] ∧
        ∀ m ∈ ([(1, lit " - "), (0, [])] : List (ℕ × Str)), (m.1 : ℤ) ≤ 2 ^ 31 - 1 :=
  sformat32_fills_iff (by decide : lbrace ∉ ([] : Str) ∧ rbrace ∉ ([] : Str))
    (by decide : ∀ m ∈ [(1, lit " - "), (0, [])], m.1 < 2 ∧ lbrace ∉ m.2 ∧ rbrace ∉ m.2)
    (by decide) (by decide)

/-- The second of two adjacent markers stays. -/
theorem sformat32_adjacent : sformat32 2 (lit "{0}{1}") [lit "a", lit "b"] = .ok (lit "a{1}") ∧
    lit "{0}{1}" = template [] [(0, []), (1, [])] ∧
    filled [lit "a", lit "b"] [] [(0, []), (1, [])] = lit "ab" :=
  ⟨ok_of_toOption (by decide +kernel), by decide, by decide⟩

end

/-! ## Texts that are no templates -/

/-- The texts that the formatter gets through when `last` is the argument named last.  A
    group that names an argument covers the bytes behind it, as many as it has before its
    closing brace; a group that holds no number is passed over, with the argument named
    last as its measure. -/
inductive Tolerable (vec : List Str) : Option Str → Str → Prop
  | text {last : Option Str} {t : Str} : NoFlg t → Tolerable vec last t
  | names {last : Option Str} {p x r a : Str} {v : ℤ} : NoFlg p → lbrace ∉ x → rbrace ∉ x →
      stoi x = some v → vecAt vec v = some a → Tolerable vec (some a) (r.drop (x.length + 1)) →
      Tolerable vec last (p ++ lbrace :: x ++ rbrace :: r)
  | other {p x r a : Str} : NoFlg p → lbrace ∉ x → rbrace ∉ x → stoi x = none →
      Tolerable vec (some a) (r.drop (a.length - 1)) →
      Tolerable vec (some a) (p ++ lbrace :: x ++ rbrace :: r)

section
variable {vec : List Str} {str : Str} {L fuel : ℕ}

theorem scan_of_tolerable {last : Option Str} {t : Str} (h : Tolerable vec last t) :
    ∀ val, vecAt vec val = last → ∃ u, scan vec val t = .ok u := by
  induction h with
  | text ht => exact fun val _ => ⟨_, scan_none ht⟩
  | names hp hl hr hx hv _ ih =>
    intro val _
    obtain ⟨u, hu⟩ := ih _ hv
    rw [scan_some (splitFlg_append hp hl hr _), hx]
    simp only [hv, hu]
    exact ⟨_, rfl⟩
  | other hp hl hr hx _ ih =>
    intro val hval
    obtain ⟨u, hu⟩ := ih val hval
    rw [scan_some (splitFlg_append hp hl hr _), hx]
    simp only [hval, hu]
    exact ⟨_, rfl⟩

theorem tolerable_of_scan {val : ℤ} {t u : Str} (h : scan vec val t = .ok u) :
    Tolerable vec (vecAt vec val) t := by
  induction hm : t.length using Nat.strong_induction_on generalizing t u val with
  | _ m ih =>
    cases hs : splitFlg t with
    | none => exact .text hs
    | some q =>
      obtain ⟨p, x, r⟩ := q
      obtain ⟨hp, hl, hr⟩ := splitFlg_spec hs
      have hlt := splitFlg_length hs
      have hrest : ∀ k val u, scan vec val (r.drop k) = .ok u → Tolerable vec (vecAt vec val) (r.drop k) :=
        fun k val u hu => ih _ (by rw [List.length_drop]; omega) hu rfl
      rw [splitFlg_eq hs]
      rw [scan_some hs] at h
      cases hx : stoi x with
      | some v =>
        cases hv : vecAt vec v with
        | none => simp [hx, hv] at h
        | some a =>
          simp only [hx, hv] at h
          obtain ⟨u', hu', -⟩ := map_eq_ok.1 h
          exact .names hp hl hr hx hv (hv ▸ hrest _ _ _ hu')
      | none =>
        cases hv : vecAt vec val with
        | none => simp [hx, hv] at h
        | some a =>
          simp only [hx, hv] at h
          obtain ⟨u', hu', -⟩ := map_eq_ok.1 h
          exact .other hp hl hr hx (hv ▸ hrest _ _ _ hu')

/-- **When `sformat` tolerates what is no marker**, in texts that stay below `2 ^ 31`
    bytes. -/
theorem sformat32_tolerates_iff (hvec : ∀ a ∈ vec, a.length ≤ L) (hL : L < 2 ^ 31)
    (hlen : str.length + str.count rbrace * L < 2 ^ 31) (hfuel : str.count rbrace ≤ fuel) :
    (∃ u, sformat32 fuel str vec = .ok u ∧ Replaced vec str u) ↔ Tolerable vec none str := by
  have hnone : vecAt vec (-1) = none := if_neg (by decide)
  rw [(short_of_le hvec hL hlen).sformat_eq (fun a ha => (hvec a ha).trans_lt hL) hfuel, sformat_eq_scan,
    ← hnone]
  constructor
  · rintro ⟨u, hu, -⟩
    exact tolerable_of_scan hu
  · intro h
    obtain ⟨u, hu⟩ := scan_of_tolerable h (-1) rfl
    exact ⟨u, hu, replaced_of_scan hu⟩

theorem sformat32_tolerates_iff_mixed :
    (∃ u, sformat32 3 (lit "{0}ab{x}\x7b7") [lit "a"] = .ok u ∧
      Replaced [lit "a"] (lit "{0}ab{x}\x7b7") u) ↔ Tolerable [lit "a"] none (lit "{0}ab{x}\x7b7") :=
  sformat32_tolerates_iff (L := 1) (by decide) (by norm_num) (by decide) (by decide)

/-- A group that holds no number, and nothing before it. -/
theorem sformat32_throws : sformat32 1 (lit "{x}") [lit "a"] = .error (.thrown .outOfRange) := by
  have hfind : findFlg32 (lit "{x}") 0 = some (0, 2) := by decide
  have hnum : toNum (lit "{x}") 0 2 = none := by decide
  rw [sformat32, sformatLoop32_some hfind, hnum]
  rfl

end

end SimpleChat
