/-
  qlab_wrap.{h,cpp}: texts that are wrapped at a maximal width.

  * `insertBreak`: the text with newlines inserted; `breaks`: which of its
    characters got one;
  * `updateText_spec`: the wrapped text is complete and fits its box, if the box is not
    larger than a widget can be;
  * `BreaksNeeded`: a newline stands only where the line would reach the width, and
    not at its start;
  * `breaksNeeded_iff`: the running width is not reset by the newlines of the text,
    so this holds iff what it carries over from one line to the next does no harm.

  The advance of a text is the sum over its characters; the code's sums are `int`s.
-/
import SimpleChat.Lib.QString
import SimpleChat.Lib.Run

namespace SimpleChat

open Lib

/-- `QFontMetrics` -/
structure QFontMetrics where
  advance : UInt16 → ℕ
  height : ℤ

/-- `horizontalAdvance` -/
def QFontMetrics.horizontalAdvance (fm : QFontMetrics) (txt : QString) : ℤ :=
  (txt.map fun c => (fm.advance c : ℤ)).sum

/-- The members of `qlab_wrap` that `update_text` reads and writes. -/
structure QlabWrap where
  maxWidth : ℤ
  text : QString
  textNew : QString
  /-- The size of the widget. -/
  width : ℤ
  height : ℤ

/-! ## The code -/

/-- `QWIDGETSIZE_MAX` -/
def widgetsizeMax : ℤ := 16777215

/-- A length behind `QWidget::resize`, which keeps it between the smallest and the largest
    size of the widget; nobody sets these. -/
def resizeLength (z : ℤ) : ℤ := max 0 (min z widgetsizeMax)

/-- `split("\n")` -/
def lines : QString → List QString
  | [] => [[]]
  | c :: txt =>
    if c = 10 then [] :: lines txt
    else
      match lines txt with
      | [] => [[c]]
      | l :: ls => (c :: l) :: ls

/-- `calc_break` -/
def calcBreak (txt : QString) : ℕ := txt.foldl (fun ret c => if c = 10 then ret + 1 else ret) 0

section
variable (fm : QFontMetrics) (width : ℤ)

/-- `calc_max_width` -/
def calcMaxWidth (txt : QString) : ℤ :=
  (lines txt).foldl (fun max l =>
    if max < narrow32 (fm.horizontalAdvance l) then narrow32 (fm.horizontalAdvance l) else max) 0

/-- The loop of `insert_break`. -/
def insertBreakLoop : ℤ → QString → QString
  | _, [] => []
  | count, c :: txt =>
    if width ≤ narrow32 (count + fm.advance c) then 10 :: c :: insertBreakLoop (fm.advance c) txt
    else c :: insertBreakLoop (narrow32 (count + fm.advance c)) txt

/-- `insert_break` -/
def insertBreak (txt : QString) : QString := insertBreakLoop fm width 0 txt

/-- `update_text` -/
def QlabWrap.updateText (lab : QlabWrap) : QlabWrap :=
  let textNew := insertBreak fm lab.maxWidth lab.text
  let lineWrap := narrow32 (calcBreak textNew + 1)
  let lineMax := calcMaxWidth fm lab.text
  { lab with
    textNew := textNew
    width := resizeLength (if lab.maxWidth < lineMax then lab.maxWidth else lineMax)
    height := resizeLength (narrow32 (fm.height * lineWrap)) }

/-- The characters, each with whether a newline is inserted before it. -/
def breaks : ℤ → QString → List (Bool × UInt16)
  | _, [] => []
  | count, c :: txt =>
    if width ≤ narrow32 (count + fm.advance c) then (true, c) :: breaks (fm.advance c) txt
    else (false, c) :: breaks (narrow32 (count + fm.advance c)) txt

end

/-- The text with the newlines that are marked. -/
def render (ms : List (Bool × UInt16)) : QString :=
  ms.flatMap fun m => if m.1 then [10, m.2] else [m.2]

section
variable {fm : QFontMetrics} {width count : ℤ} {txt : QString}

@[simp] theorem horizontalAdvance_nil : fm.horizontalAdvance [] = 0 := rfl

@[simp] theorem horizontalAdvance_cons (c : UInt16) (txt : QString) :
    fm.horizontalAdvance (c :: txt) = fm.advance c + fm.horizontalAdvance txt := by
  simp [QFontMetrics.horizontalAdvance]

@[simp] theorem horizontalAdvance_append (s t : QString) :
    fm.horizontalAdvance (s ++ t) = fm.horizontalAdvance s + fm.horizontalAdvance t := by
  simp [QFontMetrics.horizontalAdvance]

theorem horizontalAdvance_nonneg (fm : QFontMetrics) (txt : QString) : 0 ≤ fm.horizontalAdvance txt := by
  induction txt with
  | nil => exact le_rfl
  | cons c txt ih => rw [horizontalAdvance_cons]; omega

theorem advance_le_of_isPrefix {s t : QString} (h : s <+: t) :
    fm.horizontalAdvance s ≤ fm.horizontalAdvance t := by
  obtain ⟨r, rfl⟩ := h
  have := horizontalAdvance_nonneg fm r
  rw [horizontalAdvance_append]
  omega

/-- **The marked newlines are the ones that are inserted.** -/
theorem render_breaks (count : ℤ) (txt : QString) :
    render (breaks fm width count txt) = insertBreakLoop fm width count txt := by
  induction txt generalizing count with
  | nil => rfl
  | cons c txt ih =>
    unfold breaks insertBreakLoop
    split_ifs
    · rw [← ih]; rfl
    · rw [← ih]; rfl

/-- Without them the text is the given one. -/
theorem breaks_map (count : ℤ) (txt : QString) : (breaks fm width count txt).map Prod.snd = txt := by
  induction txt generalizing count with
  | nil => rfl
  | cons c txt ih =>
    unfold breaks
    split_ifs
    · rw [List.map_cons, ih]
    · rw [List.map_cons, ih]

/-! ## Lines -/

theorem lines_cons_newline (txt : QString) : lines (10 :: txt) = [] :: lines txt := if_pos rfl

theorem exists_lines (txt : QString) : ∃ l ls, lines txt = l :: ls := by
  induction txt with
  | nil => exact ⟨[], [], rfl⟩
  | cons c txt ih =>
    obtain ⟨l, ls, h⟩ := ih
    unfold lines
    split_ifs
    · exact ⟨_, _, rfl⟩
    · rw [h]; exact ⟨_, _, rfl⟩

theorem lines_cons {c : UInt16} (hc : c ≠ 10) {l : QString} {ls : List QString}
    (h : lines txt = l :: ls) : lines (c :: txt) = (c :: l) :: ls := by
  unfold lines
  rw [if_neg hc, h]

theorem calcBreak_eq_count (txt : QString) : calcBreak txt = txt.count 10 := by
  have hloop : ∀ (txt : QString) (n : ℕ),
      txt.foldl (fun ret c => if c = 10 then ret + 1 else ret) n = n + txt.count 10 := by
    intro txt
    induction txt with
    | nil => intro n; rfl
    | cons c txt ih =>
      intro n
      rw [List.foldl_cons, ih, List.count_cons]
      by_cases hc : c = 10
      · simp only [hc, if_true, beq_self_eq_true]; omega
      · simp [hc]
  rw [calcBreak, hloop, Nat.zero_add]

/-- A text has a line more than newlines. -/
theorem length_lines (txt : QString) : (lines txt).length = calcBreak txt + 1 := by
  rw [calcBreak_eq_count]
  induction txt with
  | nil => rfl
  | cons c txt ih =>
    by_cases hc : c = 10
    · rw [hc, lines_cons_newline, List.length_cons, ih, List.count_cons_self]
    · obtain ⟨l, ls, h⟩ := exists_lines txt
      rw [lines_cons hc h, List.count_cons_of_ne hc]
      rw [h] at ih
      exact ih

/-! ## The box -/

theorem resizeLength_nonneg (z : ℤ) : 0 ≤ resizeLength z := le_max_left _ _

theorem resizeLength_eq {z : ℤ} (h : 0 ≤ z ∧ z ≤ widgetsizeMax) : resizeLength z = z := by
  rw [resizeLength, min_eq_left h.2, max_eq_right h.1]

theorem resizeLength_le (z : ℤ) : resizeLength z ≤ max 0 z ∧ resizeLength z ≤ widgetsizeMax :=
  ⟨max_le_max_left 0 (min_le_left _ _), max_le (by decide) (min_le_right _ _)⟩

/-- Only what is too long is cut to the largest size. -/
theorem lt_of_resizeLength_lt {z : ℤ} (h : resizeLength z < widgetsizeMax) : z < widgetsizeMax := by
  by_contra hge
  rw [resizeLength, min_eq_right (not_lt.1 hge)] at h
  exact absurd h (by decide)

/-- The largest of the lines is not smaller than any of them, and not larger than a bound
    of all of them. -/
theorem calcMaxWidth_spec (fm : QFontMetrics) (txt : QString) :
    0 ≤ calcMaxWidth fm txt ∧ (∀ l ∈ lines txt, narrow32 (fm.horizontalAdvance l) ≤ calcMaxWidth fm txt) ∧
      ∀ k, 0 ≤ k → (∀ l ∈ lines txt, narrow32 (fm.horizontalAdvance l) ≤ k) → calcMaxWidth fm txt ≤ k := by
  have hloop : ∀ (ls : List QString) (n : ℤ),
      let r := ls.foldl (fun m l => max m (narrow32 (fm.horizontalAdvance l))) n
      n ≤ r ∧ (∀ l ∈ ls, narrow32 (fm.horizontalAdvance l) ≤ r) ∧
        ∀ k, n ≤ k → (∀ l ∈ ls, narrow32 (fm.horizontalAdvance l) ≤ k) → r ≤ k := by
    intro ls
    induction ls with
    | nil =>
      intro n
      exact ⟨le_rfl, List.forall_mem_nil _, fun k hk _ => hk⟩
    | cons m ls ih =>
      intro n
      obtain ⟨hle, hall, hleast⟩ := ih (max n (narrow32 (fm.horizontalAdvance m)))
      refine ⟨(le_max_left _ _).trans hle, List.forall_mem_cons.2 ⟨(le_max_right _ _).trans hle, hall⟩,
        fun k hk hls => ?_⟩
      obtain ⟨hm, hls⟩ := List.forall_mem_cons.1 hls
      exact hleast k (max_le hk hm) hls
  unfold calcMaxWidth
  simp only [← max_def_lt]
  exact hloop (lines txt) 0

/-- The lines of `s` are parts of those of `t`, the first one of the first. -/
def LinesWithin (s t : QString) : Prop :=
  ∃ l ls m ms, lines s = l :: ls ∧ lines t = m :: ms ∧ l <+: m ∧ ∀ l' ∈ ls, ∃ m' ∈ m :: ms, l' <:+: m'

section
variable {s t : QString}

/-- One more newline only cuts a line. -/
theorem LinesWithin.newline (h : LinesWithin s t) : LinesWithin (10 :: s) t := by
  obtain ⟨l, ls, m, ms, hs, ht, hfirst, hrest⟩ := h
  refine ⟨[], l :: ls, m, ms, by rw [lines_cons_newline, hs], ht, List.nil_prefix, fun l' hl' => ?_⟩
  rcases List.mem_cons.1 hl' with rfl | hl'
  · exact ⟨m, List.mem_cons_self .., hfirst.isInfix⟩
  · exact hrest l' hl'

theorem LinesWithin.cons (c : UInt16) (h : LinesWithin s t) : LinesWithin (c :: s) (c :: t) := by
  obtain ⟨l, ls, m, ms, hs, ht, hfirst, hrest⟩ := h
  by_cases hc : c = 10
  · rw [hc]
    refine ⟨[], l :: ls, [], m :: ms, by rw [lines_cons_newline, hs], by rw [lines_cons_newline, ht],
      List.prefix_refl _, fun l' hl' => ?_⟩
    rcases List.mem_cons.1 hl' with rfl | hl'
    · exact ⟨m, by simp, hfirst.isInfix⟩
    · obtain ⟨m', hm', hinfix⟩ := hrest l' hl'
      exact ⟨m', List.mem_cons_of_mem _ hm', hinfix⟩
  · refine ⟨c :: l, ls, c :: m, ms, lines_cons hc hs, lines_cons hc ht,
      List.cons_prefix_cons.2 ⟨rfl, hfirst⟩, fun l' hl' => ?_⟩
    obtain ⟨m', hm', hinfix⟩ := hrest l' hl'
    rcases List.mem_cons.1 hm' with rfl | hm'
    · exact ⟨c :: m', List.mem_cons_self .., hinfix.trans (List.suffix_cons c m').isInfix⟩
    · exact ⟨m', List.mem_cons_of_mem _ hm', hinfix⟩

end

/-- **The lines of the wrapped text are parts of the given ones.** -/
theorem linesWithin_insertBreak (fm : QFontMetrics) (width count : ℤ) (txt : QString) :
    LinesWithin (insertBreakLoop fm width count txt) txt := by
  induction txt generalizing count with
  | nil => exact ⟨[], [], [], [], rfl, rfl, List.prefix_refl _, fun l' hl' => by cases hl'⟩
  | cons c txt ih =>
    unfold insertBreakLoop
    split_ifs
    · exact ((ih _).cons c).newline
    · exact (ih _).cons c

/-- The lines of a text that continues a line of width `count` are not wider than
    `width`. -/
def LinesFit (fm : QFontMetrics) (width count : ℤ) (s : QString) : Prop :=
  ∃ l ls, lines s = l :: ls ∧ (l = [] ∨ count + fm.horizontalAdvance l < width) ∧
    ∀ l' ∈ ls, fm.horizontalAdvance l' ≤ width

section
variable {s : QString} {c : UInt16}

theorem LinesFit.le (hwidth : 0 ≤ width) (hcount : 0 ≤ count) {l : QString}
    (h : l = [] ∨ count + fm.horizontalAdvance l < width) : fm.horizontalAdvance l ≤ width := by
  rcases h with rfl | h
  · exact hwidth
  · omega

/-- A character that is put on the line. -/
theorem LinesFit.cons (hwidth : 0 ≤ width) (hcount : 0 ≤ count) (hlt : count + fm.advance c < width)
    (h : LinesFit fm width (count + fm.advance c) s) : LinesFit fm width count (c :: s) := by
  obtain ⟨l, ls, hs, hfirst, hrest⟩ := h
  by_cases hc : c = 10
  · refine ⟨[], l :: ls, by rw [hc, lines_cons_newline, hs], Or.inl rfl, fun l' hl' => ?_⟩
    rcases List.mem_cons.1 hl' with rfl | hl'
    · exact LinesFit.le hwidth (by omega) hfirst
    · exact hrest l' hl'
  · refine ⟨c :: l, ls, lines_cons hc hs, Or.inr ?_, hrest⟩
    rw [horizontalAdvance_cons]
    rcases hfirst with rfl | hfirst
    · rw [horizontalAdvance_nil]; omega
    · omega

/-- A character that is put on a line of its own. -/
theorem LinesFit.newline (hwidth : 0 ≤ width) (hle : (fm.advance c : ℤ) ≤ width)
    (h : LinesFit fm width (fm.advance c) s) : LinesFit fm width count (10 :: c :: s) := by
  obtain ⟨l, ls, hs, hfirst, hrest⟩ := h
  by_cases hc : c = 10
  · refine ⟨[], [] :: l :: ls, by rw [lines_cons_newline, hc, lines_cons_newline, hs], Or.inl rfl,
      fun l' hl' => ?_⟩
    rcases List.mem_cons.1 hl' with rfl | hl'
    · exact hwidth
    · rcases List.mem_cons.1 hl' with rfl | hl'
      · exact LinesFit.le hwidth (by omega) hfirst
      · exact hrest l' hl'
  · refine ⟨[], (c :: l) :: ls, by rw [lines_cons_newline, lines_cons hc hs], Or.inl rfl,
      fun l' hl' => ?_⟩
    rcases List.mem_cons.1 hl' with rfl | hl'
    · rw [horizontalAdvance_cons]
      rcases hfirst with rfl | hfirst
      · rw [horizontalAdvance_nil]; omega
      · omega
    · exact hrest l' hl'

end

/-- **No line of the wrapped text is wider than the width**, if no character is: the
    running width is at least that of the line, and below twice the width. -/
theorem linesFit_insertBreak (hwidth : 0 ≤ width ∧ width ≤ widgetsizeMax) (hcount : 0 ≤ count ∧ count ≤ width)
    {txt : QString} (hadv : ∀ c ∈ txt, (fm.advance c : ℤ) ≤ width) :
    LinesFit fm width count (insertBreakLoop fm width count txt) := by
  induction txt generalizing count with
  | nil => exact ⟨[], [], rfl, Or.inl rfl, fun l' hl' => by cases hl'⟩
  | cons c txt ih =>
    obtain ⟨hc, hadv'⟩ := List.forall_mem_cons.1 hadv
    have hsmall : widgetsizeMax = 16777215 := rfl
    have hsum : narrow32 (count + fm.advance c) = count + fm.advance c := narrow32_of_range ⟨by omega, by omega⟩
    unfold insertBreakLoop
    rw [hsum]
    split_ifs with hbreak
    · exact .newline hwidth.1 hc (ih ⟨by omega, hc⟩ hadv')
    · exact .cons hwidth.1 hcount.1 (by omega) (ih ⟨by omega, by omega⟩ hadv')

theorem advance_le_of_isInfix {s t : QString} (h : s <:+: t) :
    fm.horizontalAdvance s ≤ fm.horizontalAdvance t := by
  obtain ⟨p, r, rfl⟩ := h
  have hp := horizontalAdvance_nonneg fm p
  have hr := horizontalAdvance_nonneg fm r
  rw [horizontalAdvance_append, horizontalAdvance_append]
  omega

/-- No line of the wrapped text is wider than the widest line of the given one. -/
theorem advance_le_calcMaxWidth (hint : ∀ l ∈ lines txt, fm.horizontalAdvance l < 2 ^ 31) {l : QString}
    (hl : l ∈ lines (insertBreak fm width txt)) : fm.horizontalAdvance l ≤ calcMaxWidth fm txt := by
  obtain ⟨-, hmax, -⟩ := calcMaxWidth_spec fm txt
  have hline : ∀ m ∈ lines txt, fm.horizontalAdvance m ≤ calcMaxWidth fm txt := by
    intro m hm
    have hle := hmax m hm
    rwa [narrow32_of_range ⟨by have := horizontalAdvance_nonneg fm m; omega, hint m hm⟩] at hle
  obtain ⟨l₀, ls, m₀, ms, hnew, hold, hfirst, hrest⟩ := linesWithin_insertBreak fm width 0 txt
  rw [hold] at hline
  rw [insertBreak, hnew] at hl
  rcases List.mem_cons.1 hl with rfl | hl
  · exact (advance_le_of_isPrefix hfirst).trans (hline m₀ (List.mem_cons_self ..))
  · obtain ⟨m', hm', hinfix⟩ := hrest l hl
    exact (advance_le_of_isInfix hinfix).trans (hline m' hm')

/-- No line of the wrapped text is wider than the width. -/
theorem advance_le_width (hwidth : 0 ≤ width ∧ width ≤ widgetsizeMax)
    (hadv : ∀ c ∈ txt, (fm.advance c : ℤ) ≤ width) {l : QString}
    (hl : l ∈ lines (insertBreak fm width txt)) : fm.horizontalAdvance l ≤ width := by
  obtain ⟨l₀, ls, hnew, hfit, hfits⟩ := linesFit_insertBreak hwidth ⟨le_rfl, hwidth.1⟩ hadv
  rw [insertBreak, hnew] at hl
  rcases List.mem_cons.1 hl with rfl | hl
  · exact LinesFit.le hwidth.1 le_rfl hfit
  · exact hfits l hl

end

/-! ## The box -/

section
variable (fm : QFontMetrics) (lab : QlabWrap)

/-- **The lines of the wrapped text fit the widget**, if the given lines have a width of
    type `int` and these lines, or the maximal width, are not wider than a widget can be. -/
theorem updateText_width (hadv : ∀ c ∈ lab.text, (fm.advance c : ℤ) ≤ lab.maxWidth)
    (hint : ∀ l ∈ lines lab.text, fm.horizontalAdvance l < 2 ^ 31)
    (hsize : lab.maxWidth ≤ widgetsizeMax ∨ ∀ l ∈ lines lab.text, fm.horizontalAdvance l ≤ widgetsizeMax) :
    ∀ l ∈ lines (lab.updateText fm).textNew, fm.horizontalAdvance l ≤ (lab.updateText fm).width := by
  intro l hl
  obtain ⟨hnonneg, -, hleast⟩ := calcMaxWidth_spec fm lab.text
  have hpart := advance_le_calcMaxWidth hint hl
  have hmax : lab.maxWidth ≤ widgetsizeMax ∨ calcMaxWidth fm lab.text ≤ widgetsizeMax := by
    refine hsize.imp_right fun hlines => hleast _ (by decide) fun m hm => ?_
    have hm0 := horizontalAdvance_nonneg fm m
    rw [narrow32_of_range ⟨by omega, hint m hm⟩]
    exact hlines m hm
  rcases lt_or_ge lab.maxWidth 0 with hneg | hwidth
  · -- no character is that narrow
    have hempty : lab.text = [] := List.eq_nil_iff_forall_not_mem.2 fun c hc => by
      have hc' := hadv c hc
      omega
    have hzero : calcMaxWidth fm lab.text ≤ 0 := by
      refine hleast 0 le_rfl fun m hm => ?_
      rw [hempty] at hm
      rw [List.mem_singleton.1 hm, horizontalAdvance_nil]
      decide
    exact (hpart.trans hzero).trans (resizeLength_nonneg _)
  · refine le_trans (le_min ?_ ?_) (le_max_right 0 _)
    · split_ifs with hwrap
      · exact advance_le_width ⟨hwidth, hmax.elim id hwrap.le.trans⟩ hadv hl
      · exact hpart
    · rcases hmax with hmax | hmax
      · exact (advance_le_width ⟨hwidth, hmax⟩ hadv hl).trans hmax
      · exact hpart.trans hmax

/-- **The widget is as high as its lines** iff a widget can be. -/
theorem updateText_height :
    (lab.updateText fm).height = fm.height * (lines (lab.updateText fm).textNew).length ↔
      0 ≤ fm.height * (lines (lab.updateText fm).textNew).length ∧
        fm.height * (lines (lab.updateText fm).textNew).length ≤ widgetsizeMax := by
  rw [length_lines]
  simp only [QlabWrap.updateText]
  generalize calcBreak (insertBreak fm lab.maxWidth lab.text) = n
  push_cast
  constructor
  · intro h
    rw [← h]
    exact ⟨resizeLength_nonneg _, (resizeLength_le _).2⟩
  · rintro ⟨hnonneg, hle⟩
    have hsmall : widgetsizeMax < 2 ^ 31 := by decide
    have hproduct : narrow32 (fm.height * narrow32 (n + 1)) = fm.height * (n + 1) := by
      rcases lt_trichotomy fm.height 0 with hneg | hzero | hpos
      · have := mul_neg_of_neg_of_pos hneg (by omega : (0 : ℤ) < n + 1)
        omega
      · rw [hzero, zero_mul, zero_mul]
        rfl
      · have hn : (n : ℤ) + 1 ≤ fm.height * (n + 1) := le_mul_of_one_le_left (by omega) hpos
        rw [narrow32_of_range (z := n + 1) ⟨by omega, by omega⟩, narrow32_of_range ⟨by omega, by omega⟩]
    rw [hproduct, resizeLength_eq ⟨hnonneg, hle⟩]

end

/-- **Wrapped text is complete and fits its box**: without the newlines that were
    added it is the given text; no line of it is wider than the widget, if the given
    lines have a width of type `int` and these lines, or the maximal width, are not
    wider than a widget can be; and the widget is as high as its lines, iff a widget
    can be. -/
theorem updateText_spec (fm : QFontMetrics) (lab : QlabWrap)
    (hadv : ∀ c ∈ lab.text, (fm.advance c : ℤ) ≤ lab.maxWidth) :
    (render (breaks fm lab.maxWidth 0 lab.text) = (lab.updateText fm).textNew ∧
      (breaks fm lab.maxWidth 0 lab.text).map Prod.snd = lab.text) ∧
    ((∀ l ∈ lines lab.text, fm.horizontalAdvance l < 2 ^ 31) →
      (lab.maxWidth ≤ widgetsizeMax ∨ ∀ l ∈ lines lab.text, fm.horizontalAdvance l ≤ widgetsizeMax) →
      ∀ l ∈ lines (lab.updateText fm).textNew, fm.horizontalAdvance l ≤ (lab.updateText fm).width) ∧
    ((lab.updateText fm).height = fm.height * (lines (lab.updateText fm).textNew).length ↔
      0 ≤ fm.height * (lines (lab.updateText fm).textNew).length ∧
        fm.height * (lines (lab.updateText fm).textNew).length ≤ widgetsizeMax) :=
  ⟨⟨render_breaks _ _, breaks_map _ _⟩, updateText_width fm lab hadv, updateText_height fm lab⟩

/-- A text that is wrapped once. -/
theorem updateText_spec_small :
    let fm : QFontMetrics := ⟨fun _ => 4, 9⟩
    let lab : QlabWrap := ⟨10, [97, 98, 99], [], 0, 0⟩
    (lab.updateText fm).textNew = [97, 98, 10, 99] ∧
      (∀ l ∈ lines (lab.updateText fm).textNew, fm.horizontalAdvance l ≤ (lab.updateText fm).width) ∧
      (lab.updateText fm).height = fm.height * (lines (lab.updateText fm).textNew).length := by
  intro fm lab
  have hadv : ∀ c ∈ lab.text, (fm.advance c : ℤ) ≤ lab.maxWidth := fun _ _ => show (4 : ℤ) ≤ 10 by decide
  have hint : ∀ l ∈ lines lab.text, fm.horizontalAdvance l < 2 ^ 31 := by
    have hlines : lines lab.text = [[97, 98, 99]] := rfl
    have hadvance : fm.horizontalAdvance [97, 98, 99] = 12 := rfl
    rw [hlines, List.forall_mem_singleton, hadvance]
    norm_num
  obtain ⟨-, hwide, hhigh⟩ := updateText_spec fm lab hadv
  exact ⟨by decide, hwide hint (Or.inl (by decide)), hhigh.2 (by decide)⟩

/-- Newlines without an advance are copied. -/
theorem insertBreakLoop_newlines {fm : QFontMetrics} {width : ℤ} (hfm : fm.advance 10 = 0) (hwidth : 0 < width)
    (n : ℕ) : insertBreakLoop fm width 0 (List.replicate n 10) = List.replicate n 10 := by
  induction n with
  | zero => rfl
  | succ n ih =>
    have hsum : narrow32 (0 + fm.advance 10) = 0 := by rw [hfm]; rfl
    rw [List.replicate_succ, insertBreakLoop, hsum, if_neg (not_le.2 hwidth), ih]

/-- **Lines that are higher than a widget can be**: not all of them are shown. -/
theorem updateText_too_high :
    let fm : QFontMetrics := ⟨fun c => if c = 10 then 0 else 8, 20⟩
    let lab : QlabWrap := ⟨500, List.replicate 838861 10, [], 0, 0⟩
    (∀ c ∈ lab.text, (fm.advance c : ℤ) ≤ lab.maxWidth) ∧
      (lab.updateText fm).height ≠ fm.height * (lines (lab.updateText fm).textNew).length := by
  have hmany : ¬ (20 : ℤ) * ((838861 + 1 : ℕ) : ℤ) ≤ widgetsizeMax := by
    rw [widgetsizeMax]
    norm_num
  generalize 838861 = n at hmany ⊢
  intro fm lab
  have hfm : fm.advance 10 = 0 := rfl
  constructor
  · intro c hc
    rw [List.eq_of_mem_replicate hc, hfm]
    exact (by decide : (0 : ℤ) ≤ 500)
  · have hnew : (lab.updateText fm).textNew = List.replicate n 10 :=
      insertBreakLoop_newlines hfm (by decide : (0 : ℤ) < 500) n
    rw [Ne, updateText_height, hnew, length_lines, calcBreak_eq_count, List.count_replicate_self, not_and]
    exact fun _ => hmany

/-! ## Where the breaks stand -/

/-- The line that is being written, after a character. -/
def lineAfter (line : QString) (m : Bool × UInt16) : QString :=
  if m.2 = 10 then [] else if m.1 then [m.2] else line ++ [m.2]

/-- A newline is inserted before a character only if the line, together with the
    character, reaches the width, and not at the start of a line. -/
def BreakNeeded (fm : QFontMetrics) (width : ℤ) (line : QString) (m : Bool × UInt16) : Prop :=
  m.1 = true → line ≠ [] ∧ width ≤ fm.horizontalAdvance (line ++ [m.2])

/-- All the newlines that are inserted are needed. -/
def BreaksNeeded (fm : QFontMetrics) (width : ℤ) : QString → List (Bool × UInt16) → Prop
  | _, [] => True
  | line, m :: ms => BreakNeeded fm width line m ∧ BreaksNeeded fm width (lineAfter line m) ms

/-- The lines of a text, each with the newline that ends it. -/
def paragraphs : QString → List QString
  | [] => []
  | c :: txt =>
    if c = 10 then [c] :: paragraphs txt
    else
      match paragraphs txt with
      | [] => [[c]]
      | l :: ls => (c :: l) :: ls

section
variable (fm : QFontMetrics) (width : ℤ)

/-- The running width behind a text. -/
def countAfter : ℤ → QString → ℤ
  | count, [] => count
  | count, c :: txt =>
    if width ≤ narrow32 (count + fm.advance c) then countAfter (fm.advance c) txt
    else countAfter (narrow32 (count + fm.advance c)) txt

/-- A width that is carried over from the lines above does not change where a line is
    broken: with its first character it is below the width, and it takes no part of
    the line that is below the width to it. -/
def Harmless (carry : ℤ) (l : QString) : Prop :=
  (∀ c ∈ l.head?, narrow32 (carry + fm.advance c) < width) ∧
    ∀ q, q ≠ [] → q <+: l → fm.horizontalAdvance q < width → narrow32 (carry + fm.horizontalAdvance q) < width

/-- What is carried over to the next line: everything, if the line is below the
    width; otherwise the last piece of the line. -/
def carryOver (carry : ℤ) (l : QString) : ℤ :=
  if fm.horizontalAdvance l < width then narrow32 (carry + fm.horizontalAdvance l) else countAfter fm width carry l

/-- No width that is carried over does harm. -/
def CarriesHarmless : ℤ → List QString → Prop
  | _, [] => True
  | carry, l :: ls => Harmless fm width carry l ∧ CarriesHarmless (carryOver fm width carry l) ls

/-- All of a text, from its start, is below the width. -/
def StaysBelow (count : ℤ) (txt : QString) : Prop :=
  ∀ q, q ≠ [] → q <+: txt → narrow32 (count + fm.horizontalAdvance q) < width

/-- What wrapping a text should do: every inserted newline is needed, and a text whose
    lines are below the width is not changed. -/
structure WrapsWell (fm : QFontMetrics) (width : ℤ) (txt : QString) : Prop where
  needed : BreaksNeeded fm width [] (breaks fm width 0 txt)
  unchanged : (∀ l ∈ lines txt, fm.horizontalAdvance l < width) → insertBreak fm width txt = txt

end

section
variable {fm : QFontMetrics} {width carry count : ℤ}

/-! ### One line -/

theorem breaks_append (count : ℤ) (s t : QString) :
    breaks fm width count (s ++ t) = breaks fm width count s ++ breaks fm width (countAfter fm width count s) t := by
  induction s generalizing count with
  | nil => rfl
  | cons c s ih =>
    simp only [List.cons_append, breaks, countAfter]
    split_ifs
    · rw [ih, List.cons_append]
    · rw [ih, List.cons_append]

theorem breaksNeeded_append (line : QString) (ms ms' : List (Bool × UInt16)) :
    BreaksNeeded fm width line (ms ++ ms') ↔
      BreaksNeeded fm width line ms ∧ BreaksNeeded fm width (ms.foldl lineAfter line) ms' := by
  induction ms generalizing line with
  | nil => exact ⟨fun h => ⟨trivial, h⟩, And.right⟩
  | cons m ms ih =>
    simp only [List.cons_append, BreaksNeeded, List.foldl_cons]
    rw [ih, and_assoc]

/-- Behind a newline the line is empty. -/
theorem foldl_lineAfter_newline (line l : QString) (count : ℤ) :
    (breaks fm width count (l ++ [10])).foldl lineAfter line = [] := by
  rw [breaks_append, List.foldl_append]
  simp only [breaks]
  split_ifs
  · rfl
  · rfl

/-- A newline ends a line. -/
theorem newline_last {c : UInt16} {l : QString} (h : 10 ∉ (c :: l).dropLast) :
    (c = 10 → l = []) ∧ 10 ∉ l.dropLast := by
  cases l with
  | nil => exact ⟨fun _ => rfl, List.not_mem_nil⟩
  | cons d l =>
    rw [List.dropLast_cons_cons, List.mem_cons, not_or] at h
    exact ⟨fun hc => absurd hc.symm h.1, h.2⟩

/-- What is left of a line is written behind the character before it. -/
theorem breaksNeeded_lineAfter {c : UInt16} {l : QString} (hlast : c = 10 → l = []) (line : QString)
    (newline : Bool) (k : ℤ) : BreaksNeeded fm width (lineAfter line (newline, c)) (breaks fm width k l) ↔
      BreaksNeeded fm width ((if newline then [] else line) ++ [c]) (breaks fm width k l) := by
  by_cases hc : c = 10
  · rw [hlast hc]
    exact Iff.rfl
  · rw [lineAfter, if_neg hc]
    cases newline
    case false => exact Iff.rfl
    case true => exact Iff.rfl

/-- The running width is not larger than that of the line. -/
def InStep (fm : QFontMetrics) (count : ℤ) (line : QString) : Prop :=
  -2 ^ 31 ≤ count ∧ count ≤ fm.horizontalAdvance line

theorem InStep.single (fm : QFontMetrics) (c : UInt16) : InStep fm (fm.advance c) [c] := by
  rw [InStep, horizontalAdvance_cons, horizontalAdvance_nil]
  omega

theorem InStep.append {line : QString} (h : InStep fm count line) (c : UInt16) :
    InStep fm (narrow32 (count + fm.advance c)) (line ++ [c]) := by
  obtain ⟨hlow, hle⟩ := h
  have hsum := narrow32_le (z := count + fm.advance c) (by omega)
  rw [InStep, horizontalAdvance_append, horizontalAdvance_cons, horizontalAdvance_nil]
  exact ⟨(narrow32_range _).1, by omega⟩

/-- As long as the running width is that of the line, newlines are inserted where they
    are needed. -/
theorem breaksNeeded_inStep {line : QString} (hne : line ≠ []) (hstep : InStep fm count line) (l : QString)
    (hl : 10 ∉ l.dropLast) : BreaksNeeded fm width line (breaks fm width count l) := by
  induction l generalizing line count with
  | nil => trivial
  | cons c l ih =>
    obtain ⟨hlast, hl'⟩ := newline_last hl
    unfold breaks
    split_ifs with hbreak
    · exact ⟨fun _ => ⟨hne, hbreak.trans (hstep.append c).2⟩, (breaksNeeded_lineAfter hlast line true _).2
        (ih (List.cons_ne_nil c []) (.single fm c) hl')⟩
    · exact ⟨fun hcon => absurd hcon Bool.false_ne_true, (breaksNeeded_lineAfter hlast line false _).2
        (ih (List.append_ne_nil_of_right_ne_nil line (List.cons_ne_nil c [])) (hstep.append c) hl')⟩

/-- A line of which `q` has been written without a break, with a width carried over. -/
theorem breaksNeeded_line (carry : ℤ) (q l : QString)
    (hcount : narrow32 count = narrow32 (carry + fm.horizontalAdvance q)) (hl : 10 ∉ l.dropLast) :
    BreaksNeeded fm width q (breaks fm width count l) ↔
      (q = [] → ∀ c ∈ l.head?, narrow32 (carry + fm.advance c) < width) ∧
        ∀ p, p ≠ [] → p <+: l → fm.horizontalAdvance (q ++ p) < width →
          narrow32 (carry + fm.horizontalAdvance (q ++ p)) < width := by
  induction l generalizing q count with
  | nil =>
    refine iff_of_true trivial ⟨fun _ c hc => (by cases hc), fun p hp hpre => ?_⟩
    exact absurd (List.prefix_nil.1 hpre) hp
  | cons c l ih =>
    obtain ⟨hlast, hl'⟩ := newline_last hl
    have hqc : fm.horizontalAdvance (q ++ [c]) = fm.horizontalAdvance q + fm.advance c := by simp
    have hsum : narrow32 (count + fm.advance c) = narrow32 (carry + fm.horizontalAdvance (q ++ [c])) := by
      rw [hqc, ← add_assoc]
      exact narrow32_congr hcount _
    unfold breaks
    rw [hsum]
    split_ifs with hbreak
    · -- the newline is needed iff the line by itself reaches the width
      have hrest : BreaksNeeded fm width (lineAfter q (true, c)) (breaks fm width (fm.advance c) l) :=
        (breaksNeeded_lineAfter hlast q true _).2
          (breaksNeeded_inStep (List.cons_ne_nil c []) (.single fm c) l hl')
      constructor
      · rintro ⟨hneed, -⟩
        obtain ⟨hne, hreach⟩ := hneed rfl
        refine ⟨fun hq => absurd hq hne, fun p hp hpre hlt => ?_⟩
        obtain ⟨d, p', rfl⟩ := List.exists_cons_of_ne_nil hp
        obtain ⟨rfl, -⟩ := List.cons_prefix_cons.1 hpre
        have hp' := horizontalAdvance_nonneg fm p'
        simp only [horizontalAdvance_append, horizontalAdvance_cons, horizontalAdvance_nil] at hreach hlt
        omega
      · rintro ⟨hhead, hparts⟩
        refine ⟨fun _ => ⟨fun hq => ?_, ?_⟩, hrest⟩
        · have hlt := hhead hq c rfl
          rw [hqc, hq, horizontalAdvance_nil, zero_add] at hbreak
          omega
        · by_contra hlt
          have hpart := hparts [c] (List.cons_ne_nil c []) (List.cons_prefix_cons.2 ⟨rfl, List.nil_prefix⟩)
            (not_le.1 hlt)
          omega
    · have hnext := ih (q ++ [c]) (narrow32_narrow32 _) hl'
      have hneed : BreakNeeded fm width q (false, c) := fun hcon => absurd hcon Bool.false_ne_true
      have hline := (breaksNeeded_lineAfter hlast q false _).trans hnext
      simp only [BreaksNeeded, hneed, true_and, hline]
      constructor
      · rintro ⟨-, hparts⟩
        refine ⟨fun hq d hd => ?_, fun p hp hpre hlt => ?_⟩
        · obtain rfl : c = d := Option.some.inj hd
          rw [hqc, hq, horizontalAdvance_nil, zero_add] at hbreak
          omega
        · obtain ⟨d, p', rfl⟩ := List.exists_cons_of_ne_nil hp
          obtain ⟨rfl, hpre'⟩ := List.cons_prefix_cons.1 hpre
          by_cases hp' : p' = []
          · rw [hp']
            omega
          · have hpart := hparts p' hp' hpre'
            rw [List.append_assoc] at hpart
            exact hpart hlt
      · rintro ⟨-, hparts⟩
        refine ⟨fun hq => absurd hq (by simp), fun p hp hpre hlt => ?_⟩
        have hpart := hparts (c :: p) (List.cons_ne_nil c p) (List.cons_prefix_cons.2 ⟨rfl, hpre⟩)
        rw [List.append_assoc] at hlt ⊢
        exact hpart hlt

/-- **One line**: its newlines are needed iff what is carried over does no harm. -/
theorem breaksNeeded_paragraph {l : QString} (hl : 10 ∉ l.dropLast) :
    BreaksNeeded fm width [] (breaks fm width carry l) ↔ Harmless fm width carry l := by
  have hline : BreaksNeeded fm width [] (breaks fm width carry l) ↔ _ :=
    breaksNeeded_line carry [] l (by rw [horizontalAdvance_nil, add_zero]) hl
  rw [hline]
  simp only [List.nil_append, true_imp_iff]
  rfl

theorem staysBelow_cons (c : UInt16) (txt : QString) : StaysBelow fm width count (c :: txt) ↔
    narrow32 (count + fm.advance c) < width ∧ StaysBelow fm width (narrow32 (count + fm.advance c)) txt := by
  have hsum : ∀ q, narrow32 (count + fm.horizontalAdvance (c :: q)) =
      narrow32 (narrow32 (count + fm.advance c) + fm.horizontalAdvance q) := by
    intro q
    rw [horizontalAdvance_cons, ← add_assoc]
    exact (narrow32_congr (narrow32_narrow32 _) _).symm
  constructor
  · intro h
    refine ⟨?_, fun q hq hpre => ?_⟩
    · have hfirst := h [c] (List.cons_ne_nil c []) (List.cons_prefix_cons.2 ⟨rfl, List.nil_prefix⟩)
      rwa [hsum, horizontalAdvance_nil, add_zero, narrow32_narrow32] at hfirst
    · rw [← hsum]
      exact h (c :: q) (List.cons_ne_nil c q) (List.cons_prefix_cons.2 ⟨rfl, hpre⟩)
  · rintro ⟨hfirst, hrest⟩ q hq hpre
    obtain ⟨d, q', rfl⟩ := List.exists_cons_of_ne_nil hq
    obtain ⟨rfl, hpre'⟩ := List.cons_prefix_cons.1 hpre
    rw [hsum]
    by_cases hq' : q' = []
    · rwa [hq', horizontalAdvance_nil, add_zero, narrow32_narrow32]
    · exact hrest q' hq' hpre'

/-- A text that stays below the width is not broken. -/
theorem countAfter_below (l : QString) (hne : l ≠ []) (h : StaysBelow fm width count l) :
    countAfter fm width count l = narrow32 (count + fm.horizontalAdvance l) := by
  induction l generalizing count with
  | nil => exact absurd rfl hne
  | cons c l ih =>
    obtain ⟨hlt, hrest⟩ := (staysBelow_cons c l).1 h
    rw [countAfter, if_neg (not_le.2 hlt), horizontalAdvance_cons, ← add_assoc]
    by_cases hl : l = []
    · rw [hl, horizontalAdvance_nil, add_zero, countAfter]
    · rw [ih hl hrest]
      exact narrow32_congr (narrow32_narrow32 _) _

theorem Harmless.countAfter_eq {l : QString} (h : Harmless fm width carry l) (hne : l ≠ []) :
    countAfter fm width carry l = carryOver fm width carry l := by
  unfold carryOver
  split_ifs with hlt
  · exact countAfter_below l hne fun q hq hpre => h.2 q hq hpre ((advance_le_of_isPrefix hpre).trans_lt hlt)
  · rfl

/-! ### All lines -/

theorem paragraphs_append (l t : QString) (hl : 10 ∉ l) :
    paragraphs (l ++ 10 :: t) = (l ++ [10]) :: paragraphs t := by
  induction l with
  | nil => exact if_pos rfl
  | cons c l ih =>
    rw [List.mem_cons, not_or] at hl
    rw [List.cons_append, paragraphs, if_neg (Ne.symm hl.1), ih hl.2]
    rfl

theorem paragraphs_single {l : QString} (hne : l ≠ []) (hl : 10 ∉ l) : paragraphs l = [l] := by
  induction l with
  | nil => exact absurd rfl hne
  | cons c l ih =>
    rw [List.mem_cons, not_or] at hl
    rw [paragraphs, if_neg (Ne.symm hl.1)]
    by_cases hnil : l = []
    · rw [hnil]; rfl
    · rw [ih hnil hl.2]

/-- **The induction on the lines of a text.** -/
theorem paragraphs_induction {P : QString → Prop} (hnil : P []) (hlast : ∀ l, l ≠ [] → 10 ∉ l → P l)
    (hnext : ∀ l t, 10 ∉ l → P t → P (l ++ 10 :: t)) (txt : QString) : P txt := by
  induction hlen : txt.length using Nat.strongRecOn generalizing txt with
  | ind n ih =>
    by_cases h10 : 10 ∈ txt
    · obtain ⟨l, t, rfl, hl⟩ := List.eq_append_cons_of_mem h10
      refine hnext l t hl (ih t.length ?_ t rfl)
      rw [← hlen, List.length_append, List.length_cons]
      omega
    · by_cases hne : txt = []
      · rw [hne]; exact hnil
      · exact hlast txt hne h10

/-- The newlines of a text are needed iff nothing that is carried over does harm. -/
theorem breaksNeeded_iff (txt : QString) :
    BreaksNeeded fm width [] (breaks fm width carry txt) ↔
      CarriesHarmless fm width carry (paragraphs txt) := by
  induction txt using paragraphs_induction generalizing carry with
  | hnil => exact Iff.rfl
  | hlast l hne hl =>
    rw [paragraphs_single hne hl, breaksNeeded_paragraph fun h => hl (List.mem_of_mem_dropLast h)]
    exact ⟨fun h => ⟨h, trivial⟩, And.left⟩
  | hnext l t hl ih =>
    have hsplit : l ++ 10 :: t = (l ++ [10]) ++ t := by simp
    have hne : l ++ [10] ≠ [] := by simp
    have hdrop : 10 ∉ (l ++ [10]).dropLast := by rwa [List.dropLast_concat]
    rw [paragraphs_append l t hl, hsplit, breaks_append, breaksNeeded_append, foldl_lineAfter_newline,
      breaksNeeded_paragraph hdrop, CarriesHarmless]
    refine and_congr_right fun hharmless => ?_
    rw [ih, hharmless.countAfter_eq hne]

theorem length_insertBreakLoop (count : ℤ) (txt : QString) :
    txt.length ≤ (insertBreakLoop fm width count txt).length := by
  induction txt generalizing count with
  | nil => exact le_rfl
  | cons c txt ih =>
    unfold insertBreakLoop
    split_ifs
    · exact (Nat.succ_le_succ (ih _)).trans (Nat.le_succ _)
    · exact Nat.succ_le_succ (ih _)

/-- **A text is not changed** iff all of it stays below the width: no newline of the text
    resets the running width. -/
theorem insertBreakLoop_eq_self (txt : QString) :
    insertBreakLoop fm width count txt = txt ↔ StaysBelow fm width count txt := by
  induction txt generalizing count with
  | nil => exact iff_of_true rfl fun q hq hpre => absurd (List.prefix_nil.1 hpre) hq
  | cons c txt ih =>
    rw [staysBelow_cons, ← ih, insertBreakLoop]
    split_ifs with hbreak
    · refine iff_of_false (fun h => ?_) fun h => absurd h.1 (not_lt.2 hbreak)
      have hlen := congrArg List.length h
      have hle : txt.length ≤ (insertBreakLoop fm width (fm.advance c) txt).length :=
        length_insertBreakLoop (fm.advance c) txt
      rw [List.length_cons, List.length_cons, List.length_cons] at hlen
      omega
    · rw [List.cons.injEq]
      exact ⟨fun h => ⟨not_le.1 hbreak, h.2⟩, fun h => ⟨rfl, h.2⟩⟩

end

/-- **When wrapping breaks only where needed**: for every text and all advances, iff no
    width that is carried over from the lines above changes where a line is broken,
    no line begins with a character that reaches the width, and a text whose lines are
    below the width is below it as a whole. -/
theorem wrapsWell_iff (fm : QFontMetrics) (width : ℤ) (txt : QString) :
    WrapsWell fm width txt ↔ CarriesHarmless fm width 0 (paragraphs txt) ∧
      ((∀ l ∈ lines txt, fm.horizontalAdvance l < width) → StaysBelow fm width 0 txt) := by
  constructor
  · intro h
    exact ⟨(breaksNeeded_iff txt).1 h.needed, fun hlines => (insertBreakLoop_eq_self txt).1 (h.unchanged hlines)⟩
  · rintro ⟨hcarry, hbelow⟩
    exact ⟨(breaksNeeded_iff txt).2 hcarry, fun hlines => (insertBreakLoop_eq_self txt).2 (hbelow hlines)⟩

/-- **Two short lines**: the second one is broken at its start, even if it is empty. -/
theorem not_wrapsWell_two_lines :
    let fm : QFontMetrics := ⟨fun c => if c = 10 then 0 else 4, 9⟩
    insertBreak fm 10 [97, 98, 10, 99] = [97, 98, 10, 10, 99] ∧
      (∀ l ∈ lines [97, 98, 10, 99], fm.horizontalAdvance l < 10) ∧
      ¬ WrapsWell fm 10 [97, 98, 10, 99] := by
  intro fm
  have hnew : insertBreak fm 10 [97, 98, 10, 99] = [97, 98, 10, 10, 99] := by decide
  have hlines : ∀ l ∈ lines [97, 98, 10, 99], fm.horizontalAdvance l < 10 := by decide
  refine ⟨hnew, hlines, fun h => ?_⟩
  have hsame := h.unchanged hlines
  rw [hnew] at hsame
  exact absurd hsame (by decide)

end SimpleChat
