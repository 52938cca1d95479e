/-
  qmove_pos.{h,cpp}: widgets laid out in rows or columns.

  * `fnMove`, `moveGroup`: widgets are placed one after the other; after `row` of
    them the next row begins below the last one, after `column` of them the next
    column beside it;
  * `planeMove`: the same on a plane without bounds, where a layout in rows is
    `placeRows` of its rows and columns are rows with the axes exchanged.  The code's
    positions are the plane's as `int`s (`Wraps`), and the plane's own where they fit;
  * `wellLaid_iff`: a layout is right iff no widget reaches into a later row that has a
    widget under it (`RowsClear`) and all widgets fit (`RowsFit`);
  * `nearSquare_iff`: for which numbers of widgets the default layout is nearly square.
-/
import SimpleChat.Lib.Run

namespace SimpleChat

open Lib

@[ext] structure QPoint where
  x : ℤ
  y : ℤ
  deriving DecidableEq

@[ext] structure QSize where
  width : ℤ
  height : ℤ
  deriving DecidableEq

/-- A widget that has been moved. -/
@[ext] structure Placed where
  pos : QPoint
  size : QSize
  deriving DecidableEq

/-! ## The code -/

/-- The variables of `move_group`, and the widgets moved so far. -/
structure MoveState where
  maxWide : ℤ
  maxHigh : ℤ
  countRow : ℤ
  countColumn : ℤ
  posMove : QPoint
  placed : List Placed

def MoveState.start (pos : QPoint) : MoveState := ⟨0, 0, 0, 0, pos, []⟩

/-- `fn_move`; its sums are `int`s. -/
def fnMove (pos : QPoint) (space row column : ℤ) (st : MoveState) (it : QSize) : MoveState :=
  let nowWide := narrow32 (st.posMove.x + it.width - pos.x)
  let nowHigh := narrow32 (st.posMove.y + it.height - pos.y)
  let nextX := narrow32 (st.posMove.x + it.width + space)
  let nextY := narrow32 (st.posMove.y + it.height + space)
  let st := { st with
    placed := st.placed ++ [⟨st.posMove, it⟩]
    maxWide := if st.maxWide < nowWide then nowWide else st.maxWide
    maxHigh := if st.maxHigh < nowHigh then nowHigh else st.maxHigh }
  if 0 < row then
    if row ≤ st.countRow + 1 then { st with posMove := ⟨pos.x, nextY⟩, countRow := 0 }
    else { st with posMove := ⟨nextX, st.posMove.y⟩, countRow := st.countRow + 1 }
  else if 0 < column then
    if column ≤ st.countColumn + 1 then { st with posMove := ⟨nextX, pos.y⟩, countColumn := 0 }
    else { st with posMove := ⟨st.posMove.x, nextY⟩, countColumn := st.countColumn + 1 }
  else st

/-- The row length of the default layout.  The quotient is not below the root, so the
    unsigned difference does not wrap around. -/
def defaultRow (size : ℕ) : Outcome ℤ :=
  let row := size.sqrt
  if row = 0 then .error .trap
  else .ok ((row + (size / row - row) / 2 : ℕ) : ℤ)

/-- `move_group`: the size that is returned, and the widgets in the order in which they
    are moved. -/
def moveGroup (vec : List QSize) (pos : QPoint) (space row column : ℤ) (isReverse : Bool) :
    Outcome (QSize × List Placed) :=
  (if row < 0 ∧ column < 0 then defaultRow vec.length else .ok row) >>= fun row =>
  let st := (if isReverse then vec.reverse else vec).foldl (fnMove pos space row column) (.start pos)
  .ok (⟨st.maxWide, st.maxHigh⟩, st.placed)

/-! ## Rectangles -/

/-- The points that a widget covers. -/
def Placed.points (a : Placed) : Set (ℤ × ℤ) :=
  {p | (a.pos.x ≤ p.1 ∧ p.1 < a.pos.x + a.size.width) ∧ a.pos.y ≤ p.2 ∧ p.2 < a.pos.y + a.size.height}

/-- A size with a point in it. -/
def QSize.Positive (s : QSize) : Prop := 0 < s.width ∧ 0 < s.height

/-- What a layout should be: the widgets do not overlap, and the size is that of the
    smallest rectangle at the origin around them. -/
structure WellLaid (pos : QPoint) (size : QSize) (placed : List Placed) : Prop where
  apart : placed.Pairwise fun a b => Disjoint a.points b.points
  inside : ∀ a ∈ placed, a.points ⊆ (Placed.mk pos size).points
  smallest : ∀ s : QSize, 0 ≤ s.width → 0 ≤ s.height →
    (∀ a ∈ placed, a.points ⊆ (Placed.mk pos s).points) → size.width ≤ s.width ∧ size.height ≤ s.height

section
variable {a b : Placed}

theorem disjoint_points_iff (ha : a.size.Positive) (hb : b.size.Positive) :
    Disjoint a.points b.points ↔
      a.pos.x + a.size.width ≤ b.pos.x ∨ b.pos.x + b.size.width ≤ a.pos.x ∨
      a.pos.y + a.size.height ≤ b.pos.y ∨ b.pos.y + b.size.height ≤ a.pos.y := by
  obtain ⟨haw, hah⟩ := ha
  obtain ⟨hbw, hbh⟩ := hb
  rw [Set.disjoint_left]
  constructor
  · intro h
    by_contra hcon
    simp only [not_or, not_le] at hcon
    -- the upper left corner of what they share
    have hcorner := h (a := (max a.pos.x b.pos.x, max a.pos.y b.pos.y))
    simp only [Placed.points, Set.mem_ofPred_eq] at hcorner
    omega
  · intro h p hpa hpb
    simp only [Placed.points, Set.mem_ofPred_eq] at hpa hpb
    omega

theorem points_subset_iff (ha : a.size.Positive) : a.points ⊆ b.points ↔
    (b.pos.x ≤ a.pos.x ∧ a.pos.x + a.size.width ≤ b.pos.x + b.size.width) ∧
      b.pos.y ≤ a.pos.y ∧ a.pos.y + a.size.height ≤ b.pos.y + b.size.height := by
  obtain ⟨haw, hah⟩ := ha
  constructor
  · intro h
    have hfirst := @h (a.pos.x, a.pos.y)
    have hlast := @h (a.pos.x + a.size.width - 1, a.pos.y + a.size.height - 1)
    simp only [Placed.points, Set.mem_ofPred_eq] at hfirst hlast
    omega
  · rintro ⟨hx, hy⟩ p hp
    simp only [Placed.points, Set.mem_ofPred_eq] at hp ⊢
    omega

end

/-! ## The plane

  A sum that does not fit in `int` wraps around.  On a plane without bounds it does not,
  and as long as the widgets of the plane fit, the code puts its widgets there. -/

/-- `fn_move` on a plane without bounds, but for the largest edges. -/
def planeMove (pos : QPoint) (space row column : ℤ) (st : MoveState) (it : QSize) : MoveState :=
  let st := { st with placed := st.placed ++ [⟨st.posMove, it⟩] }
  if 0 < row then
    if row ≤ st.countRow + 1 then
      { st with posMove := ⟨pos.x, st.posMove.y + it.height + space⟩, countRow := 0 }
    else
      { st with posMove := ⟨st.posMove.x + it.width + space, st.posMove.y⟩, countRow := st.countRow + 1 }
  else if 0 < column then
    if column ≤ st.countColumn + 1 then
      { st with posMove := ⟨st.posMove.x + it.width + space, pos.y⟩, countColumn := 0 }
    else
      { st with
        posMove := ⟨st.posMove.x, st.posMove.y + it.height + space⟩, countColumn := st.countColumn + 1 }
  else st

/-- A point with coordinates of type `int`. -/
def QPoint.IsInt (p : QPoint) : Prop := (-2 ^ 31 ≤ p.x ∧ p.x < 2 ^ 31) ∧ -2 ^ 31 ≤ p.y ∧ p.y < 2 ^ 31

/-- The coordinates as `int`s. -/
def QPoint.wrap (p : QPoint) : QPoint := ⟨narrow32 p.x, narrow32 p.y⟩

def Placed.wrap (a : Placed) : Placed := ⟨a.pos.wrap, a.size⟩

/-- The coordinates of a widget, and its edges seen from the origin, are `int`s. -/
def Placed.Fits (pos : QPoint) (a : Placed) : Prop :=
  (a.pos.x < 2 ^ 31 ∧ a.pos.x + a.size.width - pos.x < 2 ^ 31) ∧
    a.pos.y < 2 ^ 31 ∧ a.pos.y + a.size.height - pos.y < 2 ^ 31

section
variable {pos : QPoint} {space row column : ℤ} {st ex : MoveState} {it : QSize}

/-- What a call of `fn_move` does, but for the counters. -/
theorem fnMove_spec (pos : QPoint) (space row column : ℤ) (st : MoveState) (it : QSize) :
    (fnMove pos space row column st it).placed = st.placed ++ [⟨st.posMove, it⟩] ∧
    (fnMove pos space row column st it).maxWide =
      max st.maxWide (narrow32 (st.posMove.x + it.width - pos.x)) ∧
    (fnMove pos space row column st it).maxHigh =
      max st.maxHigh (narrow32 (st.posMove.y + it.height - pos.y)) ∧
    ∃ x y, (fnMove pos space row column st it).posMove = ⟨x, y⟩ ∧
      (x = pos.x ∨ x = st.posMove.x ∨ x = narrow32 (st.posMove.x + it.width + space)) ∧
      (y = pos.y ∨ y = st.posMove.y ∨ y = narrow32 (st.posMove.y + it.height + space)) := by
  have hmax : ∀ m k : ℤ, (if m < k then k else m) = max m k := by
    intro m k
    split_ifs with h
    · exact (max_eq_right h.le).symm
    · exact (max_eq_left (not_lt.1 h)).symm
  unfold fnMove
  simp only [hmax]
  by_cases hr : 0 < row
  · rw [if_pos hr]
    split_ifs
    · exact ⟨rfl, rfl, rfl, _, _, rfl, Or.inl rfl, Or.inr (Or.inr rfl)⟩
    · exact ⟨rfl, rfl, rfl, _, _, rfl, Or.inr (Or.inr rfl), Or.inr (Or.inl rfl)⟩
  · rw [if_neg hr]
    split_ifs
    · exact ⟨rfl, rfl, rfl, _, _, rfl, Or.inr (Or.inr rfl), Or.inl rfl⟩
    · exact ⟨rfl, rfl, rfl, _, _, rfl, Or.inr (Or.inl rfl), Or.inr (Or.inr rfl)⟩
    · exact ⟨rfl, rfl, rfl, _, _, rfl, Or.inr (Or.inl rfl), Or.inr (Or.inl rfl)⟩

/-- What a call of `fn_move` does on the plane, but for the counters. -/
theorem planeMove_spec (pos : QPoint) (space row column : ℤ) (st : MoveState) (it : QSize) :
    (planeMove pos space row column st it).placed = st.placed ++ [⟨st.posMove, it⟩] ∧
    ∃ x y, (planeMove pos space row column st it).posMove = ⟨x, y⟩ ∧
      (x = pos.x ∨ x = st.posMove.x ∨ x = st.posMove.x + it.width + space) ∧
      (y = pos.y ∨ y = st.posMove.y ∨ y = st.posMove.y + it.height + space) := by
  unfold planeMove
  by_cases hr : 0 < row
  · rw [if_pos hr]
    split_ifs
    · exact ⟨rfl, _, _, rfl, Or.inl rfl, Or.inr (Or.inr rfl)⟩
    · exact ⟨rfl, _, _, rfl, Or.inr (Or.inr rfl), Or.inr (Or.inl rfl)⟩
  · rw [if_neg hr]
    split_ifs
    · exact ⟨rfl, _, _, rfl, Or.inr (Or.inr rfl), Or.inl rfl⟩
    · exact ⟨rfl, _, _, rfl, Or.inr (Or.inl rfl), Or.inr (Or.inr rfl)⟩
    · exact ⟨rfl, _, _, rfl, Or.inr (Or.inl rfl), Or.inr (Or.inl rfl)⟩

/-! ### The largest edges -/

/-- What holds of the largest edges so far: they are those of some widget, and of no
    widget are they larger. -/
structure Edges (pos : QPoint) (st : MoveState) : Prop where
  wide : ∀ a ∈ st.placed, narrow32 (a.pos.x + a.size.width - pos.x) ≤ st.maxWide
  high : ∀ a ∈ st.placed, narrow32 (a.pos.y + a.size.height - pos.y) ≤ st.maxHigh
  some_wide : st.maxWide = 0 ∨ ∃ a ∈ st.placed, st.maxWide = narrow32 (a.pos.x + a.size.width - pos.x)
  some_high : st.maxHigh = 0 ∨ ∃ a ∈ st.placed, st.maxHigh = narrow32 (a.pos.y + a.size.height - pos.y)

theorem Edges.move (h : Edges pos st) (it : QSize) : Edges pos (fnMove pos space row column st it) := by
  obtain ⟨hplaced, hwide, hhigh, -⟩ := fnMove_spec pos space row column st it
  constructor
  · intro a ha
    rw [hplaced, List.mem_append, List.mem_singleton] at ha
    rw [hwide]
    rcases ha with ha | rfl
    · exact (h.wide a ha).trans (le_max_left _ _)
    · exact le_max_right _ _
  · intro a ha
    rw [hplaced, List.mem_append, List.mem_singleton] at ha
    rw [hhigh]
    rcases ha with ha | rfl
    · exact (h.high a ha).trans (le_max_left _ _)
    · exact le_max_right _ _
  · rw [hwide, hplaced]
    rcases max_choice st.maxWide (narrow32 (st.posMove.x + it.width - pos.x)) with hm | hm
    · rw [hm]
      rcases h.some_wide with h0 | ⟨a, ha, hmax⟩
      · exact Or.inl h0
      · exact Or.inr ⟨a, List.mem_append_left _ ha, hmax⟩
    · rw [hm]
      exact Or.inr ⟨_, List.mem_append_right _ (List.mem_singleton_self _), rfl⟩
  · rw [hhigh, hplaced]
    rcases max_choice st.maxHigh (narrow32 (st.posMove.y + it.height - pos.y)) with hm | hm
    · rw [hm]
      rcases h.some_high with h0 | ⟨a, ha, hmax⟩
      · exact Or.inl h0
      · exact Or.inr ⟨a, List.mem_append_left _ ha, hmax⟩
    · rw [hm]
      exact Or.inr ⟨_, List.mem_append_right _ (List.mem_singleton_self _), rfl⟩

theorem edges_start (pos : QPoint) : Edges pos (.start pos) where
  wide a ha := by cases ha
  high a ha := by cases ha
  some_wide := Or.inl rfl
  some_high := Or.inl rfl

variable (space row column) in
theorem edges_foldl (vec : List QSize) (h : Edges pos st) :
    Edges pos (vec.foldl (fnMove pos space row column) st) := by
  induction vec generalizing st with
  | nil => exact h
  | cons it vec ih => exact ih (h.move it)

/-- The returned size is a size of `int`s. -/
theorem Edges.lt (h : Edges pos st) : st.maxWide < 2 ^ 31 ∧ st.maxHigh < 2 ^ 31 := by
  constructor
  · rcases h.some_wide with h0 | ⟨a, -, hmax⟩
    · omega
    · rw [hmax]; exact (narrow32_range _).2
  · rcases h.some_high with h0 | ⟨a, -, hmax⟩
    · omega
    · rw [hmax]; exact (narrow32_range _).2

/-- **The returned size is that of the smallest rectangle around widgets that fit.** -/
theorem Edges.inside (h : Edges pos st) (hsizes : ∀ a ∈ st.placed, a.size.Positive)
    (hstart : ∀ a ∈ st.placed, pos.x ≤ a.pos.x ∧ pos.y ≤ a.pos.y) (hfits : ∀ a ∈ st.placed, a.Fits pos) :
    (∀ a ∈ st.placed, a.points ⊆ (Placed.mk pos ⟨st.maxWide, st.maxHigh⟩).points) ∧
    ∀ s : QSize, 0 ≤ s.width → 0 ≤ s.height → (∀ a ∈ st.placed, a.points ⊆ (Placed.mk pos s).points) →
      st.maxWide ≤ s.width ∧ st.maxHigh ≤ s.height := by
  have hedge : ∀ a ∈ st.placed,
      narrow32 (a.pos.x + a.size.width - pos.x) = a.pos.x + a.size.width - pos.x ∧
        narrow32 (a.pos.y + a.size.height - pos.y) = a.pos.y + a.size.height - pos.y := by
    intro a ha
    obtain ⟨hx, hy⟩ := hstart a ha
    obtain ⟨⟨-, hw⟩, -, hh⟩ := hfits a ha
    obtain ⟨hpw, hph⟩ := hsizes a ha
    exact ⟨narrow32_of_range ⟨by omega, hw⟩, narrow32_of_range ⟨by omega, hh⟩⟩
  constructor
  · intro a ha
    rw [points_subset_iff (hsizes a ha)]
    obtain ⟨hx, hy⟩ := hstart a ha
    obtain ⟨hex, hey⟩ := hedge a ha
    have hwide := h.wide a ha
    have hhigh := h.high a ha
    rw [hex] at hwide
    rw [hey] at hhigh
    exact ⟨⟨hx, by dsimp only; omega⟩, hy, by dsimp only; omega⟩
  · intro s hw hh hall
    constructor
    · rcases h.some_wide with h0 | ⟨a, ha, hmax⟩
      · omega
      · have hsub := (points_subset_iff (hsizes a ha)).1 (hall a ha)
        rw [(hedge a ha).1] at hmax
        dsimp only at hsub
        omega
    · rcases h.some_high with h0 | ⟨a, ha, hmax⟩
      · omega
      · have hsub := (points_subset_iff (hsizes a ha)).1 (hall a ha)
        rw [(hedge a ha).2] at hmax
        dsimp only at hsub
        omega

/-! ### The code follows the plane -/

/-- The code's state is the plane's, as `int`s. -/
structure Wraps (st ex : MoveState) : Prop where
  posMove : st.posMove.wrap = ex.posMove.wrap
  placed : st.placed.map Placed.wrap = ex.placed.map Placed.wrap
  countRow : st.countRow = ex.countRow
  countColumn : st.countColumn = ex.countColumn

theorem Wraps.start (pos : QPoint) : Wraps (.start pos) (.start pos) := ⟨rfl, rfl, rfl, rfl⟩

theorem Wraps.move (h : Wraps st ex) (it : QSize) :
    Wraps (fnMove pos space row column st it) (planeMove pos space row column ex it) := by
  obtain ⟨hx, hy⟩ : narrow32 st.posMove.x = narrow32 ex.posMove.x ∧
      narrow32 st.posMove.y = narrow32 ex.posMove.y := by
    simpa only [QPoint.wrap, QPoint.mk.injEq] using h.posMove
  have hnext : ∀ {a b : ℤ} (k : ℤ), narrow32 a = narrow32 b →
      narrow32 (narrow32 (a + k + space)) = narrow32 (b + k + space) := by
    intro a b k hab
    rw [narrow32_narrow32]
    exact narrow32_congr (narrow32_congr hab k) space
  have hplaced : (st.placed ++ [(⟨st.posMove, it⟩ : Placed)]).map Placed.wrap =
      (ex.placed ++ [(⟨ex.posMove, it⟩ : Placed)]).map Placed.wrap := by
    simp only [List.map_append, List.map_cons, List.map_nil, Placed.wrap, h.posMove, h.placed]
  unfold fnMove planeMove
  by_cases hr : 0 < row
  · by_cases hend : row ≤ ex.countRow + 1
    · simp only [if_pos hr, h.countRow, if_pos hend]
      exact ⟨by simp only [QPoint.wrap, hnext _ hy], hplaced, rfl, h.countColumn⟩
    · simp only [if_pos hr, h.countRow, if_neg hend]
      exact ⟨by simp only [QPoint.wrap, hnext _ hx, hy], hplaced, rfl, h.countColumn⟩
  · by_cases hc : 0 < column
    · by_cases hend : column ≤ ex.countColumn + 1
      · simp only [if_neg hr, if_pos hc, h.countColumn, if_pos hend]
        exact ⟨by simp only [QPoint.wrap, hnext _ hx], hplaced, h.countRow, rfl⟩
      · simp only [if_neg hr, if_pos hc, h.countColumn, if_neg hend]
        exact ⟨by simp only [QPoint.wrap, hnext _ hy, hx], hplaced, h.countRow, rfl⟩
    · simp only [if_neg hr, if_neg hc]
      exact ⟨h.posMove, hplaced, h.countRow, h.countColumn⟩

variable (pos space row column) in
theorem wraps_foldl (vec : List QSize) (h : Wraps st ex) :
    Wraps (vec.foldl (fnMove pos space row column) st) (vec.foldl (planeMove pos space row column) ex) := by
  induction vec generalizing st ex with
  | nil => exact h
  | cons it vec ih => exact ih (h.move it)

theorem QPoint.IsInt.wrap_eq {p : QPoint} (h : p.IsInt) : p.wrap = p := by
  rw [QPoint.wrap, narrow32_of_range h.1, narrow32_of_range h.2]

/-- The code's positions are `int`s. -/
structure Ints (st : MoveState) : Prop where
  posMove : st.posMove.IsInt
  placed : ∀ a ∈ st.placed, a.pos.IsInt

theorem Ints.move (hpos : pos.IsInt) (h : Ints st) (it : QSize) :
    Ints (fnMove pos space row column st it) := by
  obtain ⟨hplaced, -, -, x, y, hnext, hx, hy⟩ := fnMove_spec pos space row column st it
  constructor
  · rw [hnext]
    constructor
    · rcases hx with rfl | rfl | rfl
      exacts [hpos.1, h.posMove.1, narrow32_range _]
    · rcases hy with rfl | rfl | rfl
      exacts [hpos.2, h.posMove.2, narrow32_range _]
  · intro a ha
    rw [hplaced, List.mem_append, List.mem_singleton] at ha
    rcases ha with ha | rfl
    · exact h.placed a ha
    · exact h.posMove

variable (space row column) in
theorem ints_foldl (hpos : pos.IsInt) (vec : List QSize) :
    Ints (vec.foldl (fnMove pos space row column) (.start pos)) := by
  induction vec using List.reverseRecOn with
  | nil => exact ⟨hpos, fun a ha => by cases ha⟩
  | append_singleton vec it ih =>
    rw [List.foldl_append]
    exact ih.move hpos it

/-- On the plane the widgets stand right of the origin and below it. -/
structure RightBelow (pos : QPoint) (st : MoveState) : Prop where
  origin : pos.x ≤ st.posMove.x ∧ pos.y ≤ st.posMove.y
  start : ∀ a ∈ st.placed, pos.x ≤ a.pos.x ∧ pos.y ≤ a.pos.y

theorem RightBelow.move (h : RightBelow pos st) (hspace : 0 ≤ space) (hit : it.Positive) :
    RightBelow pos (planeMove pos space row column st it) := by
  obtain ⟨hplaced, x, y, hnext, hx, hy⟩ := planeMove_spec pos space row column st it
  obtain ⟨hleft, htop⟩ := h.origin
  obtain ⟨hw, hh⟩ := hit
  constructor
  · rw [hnext]
    constructor
    · dsimp only; omega
    · dsimp only; omega
  · intro a ha
    rw [hplaced, List.mem_append, List.mem_singleton] at ha
    rcases ha with ha | rfl
    · exact h.start a ha
    · exact h.origin

variable (pos row column) in
theorem rightBelow_foldl (hspace : 0 ≤ space) {vec : List QSize} (hvec : ∀ it ∈ vec, it.Positive) :
    RightBelow pos (vec.foldl (planeMove pos space row column) (.start pos)) := by
  induction vec using List.reverseRecOn with
  | nil => exact ⟨⟨le_rfl, le_rfl⟩, fun a ha => by cases ha⟩
  | append_singleton vec it ih =>
    rw [List.foldl_append]
    exact (ih fun x hx => hvec x (List.mem_append_left _ hx)).move hspace
      (hvec it (List.mem_append_right _ (List.mem_singleton_self it)))

/-- **Widgets that fit are put where the plane has them.** -/
theorem Wraps.placed_eq (h : Wraps st ex) (hints : Ints st) (hpos : pos.IsInt) (hbelow : RightBelow pos ex)
    (hfits : ∀ a ∈ ex.placed, a.Fits pos) : st.placed = ex.placed := by
  obtain ⟨⟨hposx, -⟩, hposy, -⟩ := hpos
  have hself : ∀ {as : List Placed}, (∀ a ∈ as, a.pos.IsInt) → as.map Placed.wrap = as := by
    intro as has
    refine (List.map_congr_left fun a ha => ?_).trans (List.map_id as)
    rw [Placed.wrap, (has a ha).wrap_eq]
    rfl
  have hplane : ∀ a ∈ ex.placed, a.pos.IsInt := by
    intro a ha
    obtain ⟨hx, hy⟩ := hbelow.start a ha
    obtain ⟨⟨hfx, -⟩, hfy, -⟩ := hfits a ha
    exact ⟨⟨hposx.trans hx, hfx⟩, hposy.trans hy, hfy⟩
  rw [← hself hints.placed, h.placed, hself hplane]

/-- **If the widgets of the code are inside a rectangle at the origin, those of the plane
    fit**: the first one that does not would come back left of the origin or above it. -/
theorem fits_of_inside (hpos : pos.IsInt) (hspace : 0 ≤ space ∧ space < 2 ^ 31) {vec : List QSize}
    (hvec : ∀ it ∈ vec, it.Positive)
    (hinside : ∀ a ∈ (vec.foldl (fnMove pos space row column) (.start pos)).placed,
      (pos.x ≤ a.pos.x ∧ a.pos.x + a.size.width - pos.x < 2 ^ 31) ∧
        pos.y ≤ a.pos.y ∧ a.pos.y + a.size.height - pos.y < 2 ^ 31) :
    (∀ a ∈ (vec.foldl (planeMove pos space row column) (.start pos)).placed, a.Fits pos) ∧
      (vec.foldl (planeMove pos space row column) (.start pos)).posMove.x < pos.x + 2 ^ 32 ∧
      (vec.foldl (planeMove pos space row column) (.start pos)).posMove.y < pos.y + 2 ^ 32 := by
  induction vec using List.reverseRecOn with
  | nil =>
      refine ⟨List.forall_mem_nil _, ?_, ?_⟩
      · simp [MoveState.start]
      · simp [MoveState.start]
  | append_singleton vec it ih =>
    have hvec' : ∀ it ∈ vec, it.Positive := fun x hx => hvec x (List.mem_append_left _ hx)
    rw [List.foldl_append, List.foldl_cons, List.foldl_nil] at hinside ⊢
    have hints := ints_foldl space row column hpos vec
    have hwraps := wraps_foldl pos space row column vec (.start pos)
    obtain ⟨⟨hbx, hby⟩, -⟩ := rightBelow_foldl pos row column hspace.1 hvec'
    obtain ⟨hplaced, -⟩ := fnMove_spec pos space row column
      (vec.foldl (fnMove pos space row column) (.start pos)) it
    obtain ⟨hplaced', x, y, hnext, hnx, hny⟩ := planeMove_spec pos space row column
      (vec.foldl (planeMove pos space row column) (.start pos)) it
    rw [hplaced] at hinside
    rw [hplaced', hnext]
    obtain ⟨hfits, hx, hy⟩ := ih hvec' fun a ha => hinside a (List.mem_append_left _ ha)
    obtain ⟨⟨hcx, hcw⟩, hcy, hch⟩ :=
      hinside _ (List.mem_append_right _ (List.mem_singleton_self _))
    have hwrap := hwraps.posMove
    rw [hints.posMove.wrap_eq] at hwrap
    rw [hwrap] at hcx hcw hcy hch
    have hex := narrow32_eq_of_le hpos.1 ⟨hbx, hx⟩ hcx
    have hey := narrow32_eq_of_le hpos.2 ⟨hby, hy⟩ hcy
    have hlx := (narrow32_range (vec.foldl (planeMove pos space row column) (.start pos)).posMove.x).2
    have hly := (narrow32_range (vec.foldl (planeMove pos space row column) (.start pos)).posMove.y).2
    dsimp only [QPoint.wrap] at hcw hch
    rw [hex] at hcw hlx
    rw [hey] at hch hly
    refine ⟨?_, ?_, ?_⟩
    · intro a ha
      rw [List.mem_append, List.mem_singleton] at ha
      rcases ha with ha | rfl
      · exact hfits a ha
      · exact ⟨⟨hlx, hcw⟩, hly, hch⟩
    · dsimp only
      omega
    · dsimp only
      omega

end

/-! ## Rows -/

/-- The rows of a layout with `n` widgets in a row. -/
def rowsOf (n : ℕ) (vec : List QSize) : List (List QSize) :=
  if n = 0 ∨ vec = [] then [] else vec.take n :: rowsOf n (vec.drop n)
termination_by vec.length
decreasing_by
  rename_i h
  rw [not_or] at h
  have := List.length_pos_iff.2 h.2
  rw [List.length_drop]
  omega

section
variable (space : ℤ)

/-- The widgets of a row, each with its distance from the start of the row. -/
def offsets : ℤ → List QSize → List (ℤ × QSize)
  | _, [] => []
  | x, it :: r => (x, it) :: offsets (x + it.width + space) r

/-- From the top of a row to that of the next one. -/
def rowStep (r : List QSize) : ℤ := (r.getLast?.elim 0 QSize.height) + space

/-- A row that starts at `pos`. -/
def placeRow (pos : QPoint) (r : List QSize) : List Placed :=
  (offsets space 0 r).map fun o => ⟨⟨pos.x + o.1, pos.y⟩, o.2⟩

/-- Rows one below the other, the first one at `pos`. -/
def placeRows (pos : QPoint) : List (List QSize) → List Placed
  | [] => []
  | r :: rs => placeRow space pos r ++ placeRows ⟨pos.x, pos.y + rowStep space r⟩ rs

/-- No widget of a row reaches a widget of the later rows, of which the first is
    `drop` below it: one under it is at least its height below. -/
def RowClears (r : List QSize) : ℤ → List (List QSize) → Prop
  | _, [] => True
  | drop, r' :: rs =>
    (∀ a ∈ offsets space 0 r, ∀ b ∈ offsets space 0 r',
      a.1 < b.1 + b.2.width → b.1 < a.1 + a.2.width → a.2.height ≤ drop) ∧
    RowClears r (drop + rowStep space r') rs

/-- The widgets of rows, of which the first is `drop` below the origin, fit. -/
def RowsFit (pos : QPoint) : ℤ → List (List QSize) → Prop
  | _, [] => True
  | drop, r :: rs =>
    (∀ a ∈ offsets space 0 r, (pos.x + a.1 < 2 ^ 31 ∧ a.1 + a.2.width < 2 ^ 31) ∧
      pos.y + drop < 2 ^ 31 ∧ drop + a.2.height < 2 ^ 31) ∧
    RowsFit pos (drop + rowStep space r) rs

/-- No widget reaches into a later row. -/
def RowsClear : List (List QSize) → Prop
  | [] => True
  | r :: rs => RowClears space r (rowStep space r) rs ∧ RowsClear rs

end

section
variable {pos : QPoint} {space row column : ℤ} {st : MoveState}

theorem rowsOf_nil (n : ℕ) : rowsOf n [] = [] := by
  rw [rowsOf, if_pos (Or.inr rfl)]

theorem rowsOf_cons {n : ℕ} (hn : 0 < n) {vec : List QSize} (hvec : vec ≠ []) :
    rowsOf n vec = vec.take n :: rowsOf n (vec.drop n) := by
  rw [rowsOf, if_neg]
  rw [not_or]
  exact ⟨hn.ne', hvec⟩

/-- **The induction on rows.** -/
theorem rows_induction {n : ℕ} (hn : 0 < n) {P : List QSize → Prop} (hnil : P [])
    (hrow : ∀ vec, vec ≠ [] → P (vec.drop n) → P vec) (vec : List QSize) : P vec := by
  induction hlen : vec.length using Nat.strongRecOn generalizing vec with
  | ind k ih =>
    by_cases hvec : vec = []
    · rw [hvec]; exact hnil
    · refine hrow vec hvec (ih _ ?_ _ rfl)
      have := List.length_pos_iff.2 hvec
      rw [List.length_drop]
      omega

theorem offsets_append (x : ℤ) (r r' : List QSize) :
    offsets space x (r ++ r') =
      offsets space x r ++ offsets space (x + (r.map fun it => it.width + space).sum) r' := by
  induction r generalizing x with
  | nil => simp [offsets]
  | cons it r ih =>
    rw [List.cons_append, offsets, ih, offsets, List.map_cons, List.sum_cons, List.cons_append]
    congr 3
    omega

variable (pos space column) in
/-- One widget of a row. -/
theorem planeMove_row (hrow : 0 < row) (st : MoveState) (it : QSize) :
    (planeMove pos space row column st it).placed = st.placed ++ [⟨st.posMove, it⟩] ∧
    (planeMove pos space row column st it).posMove =
      (if row ≤ st.countRow + 1 then ⟨pos.x, st.posMove.y + it.height + space⟩
        else ⟨st.posMove.x + it.width + space, st.posMove.y⟩) ∧
    (planeMove pos space row column st it).countRow =
      (if row ≤ st.countRow + 1 then 0 else st.countRow + 1) := by
  unfold planeMove
  rw [if_pos hrow]
  by_cases hend : row ≤ st.countRow + 1
  · rw [if_pos hend, if_pos hend, if_pos hend]
    exact ⟨rfl, rfl, rfl⟩
  · rw [if_neg hend, if_neg hend, if_neg hend]
    exact ⟨rfl, rfl, rfl⟩

variable (pos space column) in
/-- A part of a row that does not fill it. -/
theorem foldl_rowPart (hrow : 0 < row) (r : List QSize) (x₀ : ℤ) (st : MoveState)
    (hroom : st.countRow + r.length < row) (hx : st.posMove.x = pos.x + x₀) :
    (r.foldl (planeMove pos space row column) st).placed =
      st.placed ++ (offsets space x₀ r).map (fun o => ⟨⟨pos.x + o.1, st.posMove.y⟩, o.2⟩) ∧
    (r.foldl (planeMove pos space row column) st).posMove =
      ⟨pos.x + (x₀ + (r.map fun it => it.width + space).sum), st.posMove.y⟩ ∧
    (r.foldl (planeMove pos space row column) st).countRow = st.countRow + r.length := by
  induction r generalizing st x₀ with
  | nil =>
    refine ⟨by simp [offsets], ?_, by simp⟩
    ext
    · simp [hx]
    · rfl
  | cons it r ih =>
    rw [List.length_cons] at hroom
    push_cast at hroom
    obtain ⟨hplaced, hpos, hcount⟩ := planeMove_row pos space column hrow st it
    rw [if_neg (by omega)] at hpos hcount
    have hx' : (planeMove pos space row column st it).posMove.x = pos.x + (x₀ + it.width + space) := by
      rw [hpos, hx]
      dsimp only
      omega
    obtain ⟨hplaced', hpos', hcount'⟩ := ih _ _ (by rw [hcount]; omega) hx'
    have hself : st.posMove = ⟨pos.x + x₀, st.posMove.y⟩ := by rw [← hx]
    rw [List.foldl_cons]
    refine ⟨?_, ?_, ?_⟩
    · rw [hplaced', hplaced, hpos, offsets, List.map_cons, List.append_assoc]
      rw [← hself]
      rfl
    · rw [hpos', hpos, List.map_cons, List.sum_cons]
      ext
      · dsimp only; omega
      · rfl
    · rw [hcount', hcount, List.length_cons]
      push_cast
      omega

variable (space column) in
/-- **A full row**: the next one starts below its last widget. -/
theorem foldl_row (hrow : 0 < row) (r : List QSize) (st : MoveState) (hcount : st.countRow = 0)
    (hx : st.posMove.x = pos.x) (hlen : (r.length : ℤ) = row) :
    (r.foldl (planeMove pos space row column) st).placed = st.placed ++ placeRow space st.posMove r ∧
    (r.foldl (planeMove pos space row column) st).posMove = ⟨pos.x, st.posMove.y + rowStep space r⟩ ∧
    (r.foldl (planeMove pos space row column) st).countRow = 0 := by
  obtain ⟨r, it, rfl⟩ : ∃ r' it, r = r' ++ [it] := by
    rcases List.eq_nil_or_concat r with hr | ⟨r', it, hr⟩
    · rw [hr, List.length_nil] at hlen
      omega
    · exact ⟨r', it, by rw [hr, List.concat_eq_append]⟩
  rw [List.length_append, List.length_singleton] at hlen
  push_cast at hlen
  obtain ⟨hplaced, hpos, hcount'⟩ :=
    foldl_rowPart pos space column hrow r 0 st (by omega) (by omega)
  obtain ⟨hplaced', hpos', hcount''⟩ := planeMove_row pos space column hrow
    (r.foldl (planeMove pos space row column) st) it
  rw [if_pos (by omega)] at hpos' hcount''
  rw [List.foldl_append, List.foldl_cons, List.foldl_nil]
  refine ⟨?_, ?_, hcount''⟩
  · rw [hplaced', hplaced, hpos, placeRow, offsets_append, List.map_append, offsets, offsets, hx,
      List.append_assoc, List.map_cons, List.map_nil, zero_add]
  · rw [hpos', hpos, rowStep, List.getLast?_append]
    ext
    · rfl
    · simp [add_assoc]

variable (pos space column) in
/-- **The widgets stand in rows.** -/
theorem foldl_rows (hrow : 0 < row) (vec : List QSize) (st : MoveState) (hcount : st.countRow = 0)
    (hx : st.posMove.x = pos.x) :
    (vec.foldl (planeMove pos space row column) st).placed =
      st.placed ++ placeRows space st.posMove (rowsOf row.toNat vec) := by
  have hn : 0 < row.toNat := by omega
  induction vec using rows_induction hn generalizing st with
  | hnil => rw [rowsOf_nil, placeRows, List.append_nil]; rfl
  | hrow vec hvec ih =>
    rw [rowsOf_cons hn hvec, placeRows]
    by_cases hfull : row.toNat ≤ vec.length
    · have hlen : ((vec.take row.toNat).length : ℤ) = row := by
        rw [List.length_take, Nat.min_eq_left hfull]
        omega
      obtain ⟨hplaced, hpos, hcount'⟩ :=
        foldl_row space column hrow (vec.take row.toNat) st hcount hx hlen
      have hrest := ih _ hcount' (by rw [hpos])
      rw [← List.foldl_append, List.take_append_drop] at hrest
      rw [hrest, hplaced, hpos, List.append_assoc, hx]
    · -- the last row is not full
      have hall : vec.take row.toNat = vec := List.take_of_length_le (by omega)
      have hdrop : vec.drop row.toNat = [] := List.drop_eq_nil_iff.2 (by omega)
      obtain ⟨hplaced, -, -⟩ :=
        foldl_rowPart pos space column hrow vec 0 st (by omega) (by omega)
      rw [hall, hdrop, rowsOf_nil, placeRows, List.append_nil, hplaced, placeRow, hx]

/-! ### Overlaps -/

theorem offsets_mem {x : ℤ} {r : List QSize} {o : ℤ × QSize} (h : o ∈ offsets space x r) : o.2 ∈ r := by
  induction r generalizing x with
  | nil => cases h
  | cons it r ih =>
    rcases List.mem_cons.1 h with rfl | h
    · exact List.mem_cons_self ..
    · exact List.mem_cons_of_mem _ (ih h)

theorem offsets_le (hspace : 0 ≤ space) {x : ℤ} {r : List QSize} (hr : ∀ it ∈ r, it.Positive)
    {o : ℤ × QSize} (h : o ∈ offsets space x r) : x ≤ o.1 := by
  induction r generalizing x with
  | nil => cases h
  | cons it r ih =>
    rcases List.mem_cons.1 h with rfl | h
    · exact le_rfl
    · have hit := hr it (List.mem_cons_self ..)
      have hle := ih (fun i hi => hr i (List.mem_cons_of_mem _ hi)) h
      obtain ⟨hw, -⟩ := hit
      omega

/-- In a row the widgets stand beside each other. -/
theorem placeRow_apart (hspace : 0 ≤ space) (pos : QPoint) {r : List QSize}
    (hr : ∀ it ∈ r, it.Positive) :
    (placeRow space pos r).Pairwise fun a b => Disjoint a.points b.points := by
  have hoffsets : ∀ x, (offsets space x r).Pairwise fun a b => a.1 + a.2.width ≤ b.1 := by
    induction r with
    | nil => intro x; exact .nil
    | cons it r ih =>
      intro x
      have hr' : ∀ i ∈ r, i.Positive := fun i hi => hr i (List.mem_cons_of_mem _ hi)
      refine List.pairwise_cons.2 ⟨fun b hb => ?_, ih hr' _⟩
      have hle := offsets_le hspace hr' hb
      dsimp only
      omega
  rw [placeRow, List.pairwise_map]
  refine (hoffsets 0).imp_of_mem fun {a b} ha hb hle => ?_
  rw [disjoint_points_iff (hr _ (offsets_mem ha)) (hr _ (offsets_mem hb))]
  left
  dsimp only
  omega

theorem rowStep_nonneg (hspace : 0 ≤ space) {r : List QSize} (hr : ∀ it ∈ r, it.Positive) :
    0 ≤ rowStep space r := by
  unfold rowStep
  cases hlast : r.getLast? with
  | none => simpa using hspace
  | some it =>
    obtain ⟨-, hh⟩ := hr it (List.mem_of_getLast? hlast)
    simp only [Option.elim_some]
    omega

/-- A row clears another one `drop` below it. -/
theorem placeRow_apart_below {drop : ℤ} (hdrop : 0 ≤ drop) (pos : QPoint) {r r' : List QSize}
    (hr : ∀ it ∈ r, it.Positive) (hr' : ∀ it ∈ r', it.Positive) :
    (∀ a ∈ placeRow space pos r, ∀ b ∈ placeRow space ⟨pos.x, pos.y + drop⟩ r',
        Disjoint a.points b.points) ↔
      ∀ a ∈ offsets space 0 r, ∀ b ∈ offsets space 0 r',
        a.1 < b.1 + b.2.width → b.1 < a.1 + a.2.width → a.2.height ≤ drop := by
  simp only [placeRow, List.forall_mem_map]
  refine forall₂_congr fun a ha => forall₂_congr fun b hb => ?_
  rw [disjoint_points_iff (hr _ (offsets_mem ha)) (hr' _ (offsets_mem hb))]
  obtain ⟨-, hbh⟩ := hr' _ (offsets_mem hb)
  dsimp only
  constructor
  · intro h hab hba
    omega
  · intro h
    by_cases hab : a.1 < b.1 + b.2.width
    · by_cases hba : b.1 < a.1 + a.2.width
      · have hle := h hab hba
        omega
      · omega
    · omega

/-- A row clears the later ones. -/
theorem rowClears_iff (hspace : 0 ≤ space) {drop : ℤ} (hdrop : 0 ≤ drop) (pos : QPoint) {r : List QSize}
    (hr : ∀ it ∈ r, it.Positive) {rs : List (List QSize)} (hrs : ∀ r ∈ rs, ∀ it ∈ r, it.Positive) :
    (∀ a ∈ placeRow space pos r, ∀ b ∈ placeRows space ⟨pos.x, pos.y + drop⟩ rs,
        Disjoint a.points b.points) ↔ RowClears space r drop rs := by
  induction rs generalizing drop with
  | nil => exact iff_of_true (fun a _ b hb => by cases hb) trivial
  | cons r' rs ih =>
    have hr' := hrs r' (List.mem_cons_self ..)
    have hrs' : ∀ r ∈ rs, ∀ it ∈ r, it.Positive := fun r hr => hrs r (List.mem_cons_of_mem _ hr)
    have hstep := rowStep_nonneg hspace hr'
    rw [RowClears, ← placeRow_apart_below hdrop pos hr hr', ← ih (by omega) hrs']
    simp only [placeRows, List.mem_append, ← add_assoc]
    constructor
    · intro h
      exact ⟨fun a ha b hb => h a ha b (Or.inl hb), fun a ha b hb => h a ha b (Or.inr hb)⟩
    · rintro ⟨h, h'⟩ a ha b (hb | hb)
      · exact h a ha b hb
      · exact h' a ha b hb

/-- **Rows overlap iff some widget reaches into a later row.** -/
theorem rowsClear_iff (hspace : 0 ≤ space) (pos : QPoint) {rs : List (List QSize)}
    (hrs : ∀ r ∈ rs, ∀ it ∈ r, it.Positive) :
    ((placeRows space pos rs).Pairwise fun a b => Disjoint a.points b.points) ↔ RowsClear space rs := by
  induction rs generalizing pos with
  | nil => exact iff_of_true .nil trivial
  | cons r rs ih =>
    have hr := hrs r (List.mem_cons_self ..)
    have hrs' : ∀ r ∈ rs, ∀ it ∈ r, it.Positive := fun r hr => hrs r (List.mem_cons_of_mem _ hr)
    rw [placeRows, List.pairwise_append, RowsClear, ih _ hrs',
      rowClears_iff hspace (rowStep_nonneg hspace hr) pos hr hrs']
    constructor
    · rintro ⟨-, hrest, hclear⟩
      exact ⟨hclear, hrest⟩
    · rintro ⟨hclear, hrest⟩
      exact ⟨placeRow_apart hspace pos hr, hrest, hclear⟩

variable (space) in
/-- Whether rows fit. -/
theorem rowsFit_iff (pos : QPoint) (drop : ℤ) (rs : List (List QSize)) :
    (∀ a ∈ placeRows space ⟨pos.x, pos.y + drop⟩ rs, a.Fits pos) ↔ RowsFit space pos drop rs := by
  induction rs generalizing drop with
  | nil => exact iff_of_true (fun a ha => by cases ha) trivial
  | cons r rs ih =>
    rw [RowsFit, ← ih, placeRows, List.forall_mem_append, ← add_assoc]
    refine and_congr_left fun _ => ?_
    rw [placeRow, List.forall_mem_map]
    refine forall₂_congr fun o _ => ?_
    dsimp only [Placed.Fits]
    omega

theorem rowsOf_mem {n : ℕ} {vec : List QSize} {r : List QSize} (hr : r ∈ rowsOf n vec) {it : QSize}
    (hit : it ∈ r) : it ∈ vec := by
  induction hlen : vec.length using Nat.strongRecOn generalizing vec with
  | ind k ih =>
    rw [rowsOf] at hr
    split_ifs at hr with h
    · cases hr
    · rw [not_or] at h
      rcases List.mem_cons.1 hr with rfl | hr
      · exact List.mem_of_mem_take hit
      · have := List.length_pos_iff.2 h.2
        refine List.mem_of_mem_drop (ih _ ?_ hr rfl)
        rw [List.length_drop]
        omega

end

/-! ## Columns -/

def QPoint.swap (p : QPoint) : QPoint := ⟨p.y, p.x⟩

def QSize.swap (s : QSize) : QSize := ⟨s.height, s.width⟩

def Placed.swap (a : Placed) : Placed := ⟨a.pos.swap, a.size.swap⟩

/-- The state with the axes exchanged. -/
def MoveState.swap (st : MoveState) : MoveState where
  maxWide := st.maxHigh
  maxHigh := st.maxWide
  countRow := st.countColumn
  countColumn := st.countRow
  posMove := st.posMove.swap
  placed := st.placed.map Placed.swap

section
variable {pos : QPoint} {space row column : ℤ}

theorem QSize.Positive.swap {s : QSize} (h : s.Positive) : s.swap.Positive := ⟨h.2, h.1⟩

theorem fits_swap {a : Placed} : a.swap.Fits pos.swap ↔ a.Fits pos := and_comm

theorem disjoint_swap {a b : Placed} (ha : a.size.Positive) (hb : b.size.Positive) :
    Disjoint a.swap.points b.swap.points ↔ Disjoint a.points b.points := by
  rw [disjoint_points_iff ha hb, disjoint_points_iff (a := a.swap) (b := b.swap) ha.swap hb.swap]
  simp only [Placed.swap, QPoint.swap, QSize.swap]
  omega

/-- **Columns are rows with the axes exchanged.** -/
theorem planeMove_swap (hrow : ¬ 0 < row) (hcolumn : 0 < column) (st : MoveState) (it : QSize) :
    (planeMove pos space row column st it).swap = planeMove pos.swap space column row st.swap it.swap := by
  unfold planeMove
  rw [if_neg hrow, if_pos hcolumn, if_pos hcolumn]
  by_cases hend : column ≤ st.countColumn + 1
  · rw [if_pos hend, if_pos (show column ≤ st.swap.countRow + 1 from hend)]
    simp only [MoveState.swap, List.map_append]
    rfl
  · rw [if_neg hend, if_neg (show ¬ column ≤ st.swap.countRow + 1 from hend)]
    simp only [MoveState.swap, List.map_append]
    rfl

variable (pos space) in
theorem foldl_swap (hrow : ¬ 0 < row) (hcolumn : 0 < column) (vec : List QSize) (st : MoveState) :
    (vec.foldl (planeMove pos space row column) st).swap =
      (vec.map QSize.swap).foldl (planeMove pos.swap space column row) st.swap := by
  induction vec generalizing st with
  | nil => rfl
  | cons it vec ih => rw [List.foldl_cons, ih, planeMove_swap hrow hcolumn, List.map_cons, List.foldl_cons]

variable (pos space row column) in
theorem foldl_sizes (vec : List QSize) (st : MoveState) :
    (vec.foldl (planeMove pos space row column) st).placed.map Placed.size =
      st.placed.map Placed.size ++ vec := by
  induction vec generalizing st with
  | nil => rw [List.foldl_nil, List.append_nil]
  | cons it vec ih =>
    obtain ⟨hplaced, -⟩ := planeMove_spec pos space row column st it
    rw [List.foldl_cons, ih, hplaced]
    simp

/-- No widget reaches into a later row, or a later column. -/
def LinesClear (space row column : ℤ) (vec : List QSize) : Prop :=
  if 0 < row then RowsClear space (rowsOf row.toNat vec)
  else RowsClear space (rowsOf column.toNat (vec.map QSize.swap))

/-- The rows, or the columns, fit. -/
def GridFits (pos : QPoint) (space row column : ℤ) (vec : List QSize) : Prop :=
  if 0 < row then RowsFit space pos 0 (rowsOf row.toNat vec)
  else RowsFit space pos.swap 0 (rowsOf column.toNat (vec.map QSize.swap))

variable (pos space) in
/-- Whether the widgets of the plane fit. -/
theorem foldl_fits_iff (hcount : 0 < row ∨ 0 < column) (vec : List QSize) :
    (∀ a ∈ (vec.foldl (planeMove pos space row column) (.start pos)).placed, a.Fits pos) ↔
      GridFits pos space row column vec := by
  have hrows : ∀ (pos : QPoint) {row : ℤ} (column : ℤ) (vec : List QSize), 0 < row →
      ((∀ a ∈ (vec.foldl (planeMove pos space row column) (.start pos)).placed, a.Fits pos) ↔
        RowsFit space pos 0 (rowsOf row.toNat vec)) := by
    intro pos row column vec hrow
    rw [← rowsFit_iff, foldl_rows pos space column hrow vec (.start pos) rfl rfl, add_zero]
    rfl
  by_cases hrow : 0 < row
  · rw [GridFits, if_pos hrow]
    exact hrows pos column vec hrow
  · have hcolumn : 0 < column := hcount.resolve_left hrow
    have hplaced := congrArg MoveState.placed (foldl_swap pos space hrow hcolumn vec (.start pos))
    rw [GridFits, if_neg hrow, ← hrows pos.swap row _ hcolumn]
    rw [show MoveState.start pos.swap = (MoveState.start pos).swap from rfl, ← hplaced]
    simp only [MoveState.swap, List.forall_mem_map, fits_swap]

variable (pos space row column) in
theorem foldl_positive {vec : List QSize} (hvec : ∀ it ∈ vec, it.Positive) :
    ∀ a ∈ (vec.foldl (planeMove pos space row column) (.start pos)).placed, a.size.Positive := by
  intro a ha
  refine hvec _ ?_
  have hsizes := foldl_sizes pos space row column vec (.start pos)
  rw [MoveState.start, List.map_nil, List.nil_append] at hsizes
  rw [← hsizes]
  exact List.mem_map_of_mem ha

variable (pos) in
/-- Whether the widgets overlap. -/
theorem foldl_apart_iff (hspace : 0 ≤ space) (hcount : 0 < row ∨ 0 < column) {vec : List QSize}
    (hvec : ∀ it ∈ vec, it.Positive) :
    ((vec.foldl (planeMove pos space row column) (.start pos)).placed.Pairwise
      fun a b => Disjoint a.points b.points) ↔ LinesClear space row column vec := by
  have hrows : ∀ (pos : QPoint) {row column : ℤ} {vec : List QSize}, 0 < row →
      (∀ it ∈ vec, it.Positive) →
      (((vec.foldl (planeMove pos space row column) (.start pos)).placed.Pairwise
        fun a b => Disjoint a.points b.points) ↔ RowsClear space (rowsOf row.toNat vec)) := by
    intro pos row column vec hrow hvec
    have hplaced := foldl_rows pos space column hrow vec (.start pos)
      rfl rfl
    rw [hplaced]
    exact rowsClear_iff hspace pos fun r hr it hit => hvec it (rowsOf_mem hr hit)
  by_cases hrow : 0 < row
  · rw [LinesClear, if_pos hrow]
    exact hrows pos hrow hvec
  · have hcolumn : 0 < column := hcount.resolve_left hrow
    have hvec' : ∀ it ∈ vec.map QSize.swap, it.Positive := by
      rw [List.forall_mem_map]
      exact fun it hit => (hvec it hit).swap
    have hplaced := congrArg MoveState.placed
      (foldl_swap pos space hrow hcolumn vec (.start pos))
    rw [LinesClear, if_neg hrow, ← @hrows pos.swap column row _ hcolumn hvec']
    rw [show MoveState.start pos.swap = (MoveState.start pos).swap from rfl, ← hplaced]
    simp only [MoveState.swap, List.pairwise_map]
    have hsizes := foldl_positive pos space row column hvec
    constructor
    · intro h
      exact h.imp_of_mem fun ha hb hab => (disjoint_swap (hsizes _ ha) (hsizes _ hb)).2 hab
    · intro h
      exact h.imp_of_mem fun ha hb hab => (disjoint_swap (hsizes _ ha) (hsizes _ hb)).1 hab

end

/-- **When the layout is right.**  For widgets of positive sizes, any origin and a
    spacing that is not negative, the widgets of a layout in rows or columns do not
    overlap and stand in the rectangle of the returned size, which is the smallest
    one, iff no widget reaches into a later row (or column) that has a widget under
    (or beside) it, and the widgets fit. -/
theorem wellLaid_iff (vec : List QSize) (hvec : ∀ it ∈ vec, it.Positive) {pos : QPoint} (hpos : pos.IsInt)
    {space : ℤ} (hspace : 0 ≤ space ∧ space < 2 ^ 31) {row column : ℤ} (hcount : 0 < row ∨ 0 < column)
    (isReverse : Bool) :
    (∃ size placed, moveGroup vec pos space row column isReverse = .ok (size, placed) ∧
      placed.map Placed.size = (if isReverse then vec.reverse else vec) ∧ WellLaid pos size placed) ↔
    LinesClear space row column (if isReverse then vec.reverse else vec) ∧
      GridFits pos space row column (if isReverse then vec.reverse else vec) := by
  have hgiven : ¬ (row < 0 ∧ column < 0) := by omega
  have horder : ∀ it ∈ (if isReverse then vec.reverse else vec), it.Positive := by
    intro it hit
    split_ifs at hit
    · exact hvec it (List.mem_reverse.1 hit)
    · exact hvec it hit
  generalize hvec' : (if isReverse then vec.reverse else vec) = vec' at horder
  have hcall : moveGroup vec pos space row column isReverse =
      .ok (⟨(vec'.foldl (fnMove pos space row column) (.start pos)).maxWide,
        (vec'.foldl (fnMove pos space row column) (.start pos)).maxHigh⟩,
        (vec'.foldl (fnMove pos space row column) (.start pos)).placed) := by
    rw [moveGroup, if_neg hgiven, ← hvec']
    rfl
  have hwraps := wraps_foldl pos space row column vec' (Wraps.start pos)
  have hints := ints_foldl space row column hpos vec'
  have hbelow := rightBelow_foldl pos row column hspace.1 horder
  have hedges := edges_foldl space row column vec' (edges_start pos)
  have hpositive := foldl_positive pos space row column horder
  rw [← foldl_apart_iff pos hspace.1 hcount horder, ← foldl_fits_iff pos space hcount]
  constructor
  · rintro ⟨size, placed, hok, hsizes, hlaid⟩
    rw [hcall, Except.ok.injEq, Prod.mk.injEq] at hok
    obtain ⟨rfl, rfl⟩ := hok
    have hfits := (fits_of_inside hpos hspace horder fun a ha => by
      have hsize : a.size.Positive := by
        refine horder _ ?_
        rw [← hsizes]
        exact List.mem_map_of_mem ha
      obtain ⟨⟨hx, hw⟩, hy, hh⟩ := (points_subset_iff hsize).1 (hlaid.inside a ha)
      obtain ⟨hlw, hlh⟩ := hedges.lt
      dsimp only at hx hw hy hh
      exact ⟨⟨hx, by omega⟩, hy, by omega⟩).1
    rw [← hwraps.placed_eq hints hpos hbelow hfits]
    exact ⟨hlaid.apart, hwraps.placed_eq hints hpos hbelow hfits ▸ hfits⟩
  · rintro ⟨hapart, hfits⟩
    have hplaced := hwraps.placed_eq hints hpos hbelow hfits
    refine ⟨_, _, hcall, ?_, ?_⟩
    · rw [hplaced, foldl_sizes]
      exact List.nil_append _
    · rw [← hplaced] at hapart hfits hpositive
      obtain ⟨hinside, hsmallest⟩ :=
        hedges.inside hpositive (hplaced ▸ hbelow.start) hfits
      exact ⟨hapart, hinside, hsmallest⟩

/-- Two widgets in one row. -/
theorem wellLaid_iff_pair : ∃ size placed,
    moveGroup [⟨10, 10⟩, ⟨20, 30⟩] ⟨0, 0⟩ 5 2 (-1) false = .ok (size, placed) ∧
      WellLaid ⟨0, 0⟩ size placed := by
  have hvec : ∀ it ∈ [(⟨10, 10⟩ : QSize), ⟨20, 30⟩], it.Positive := by
    intro it hit
    rcases List.mem_cons.1 hit with rfl | hit
    · exact ⟨by decide, by decide⟩
    · rw [List.mem_singleton.1 hit]
      exact ⟨by decide, by decide⟩
  have hclear : LinesClear 5 2 (-1) [⟨10, 10⟩, ⟨20, 30⟩] := by
    rw [LinesClear, if_pos (by decide), rowsOf_cons (by decide) (List.cons_ne_nil _ _)]
    rw [show List.drop (Int.toNat 2) [(⟨10, 10⟩ : QSize), ⟨20, 30⟩] = [] from rfl, rowsOf_nil]
    exact ⟨trivial, trivial⟩
  have hfit : GridFits ⟨0, 0⟩ 5 2 (-1) [⟨10, 10⟩, ⟨20, 30⟩] := by
    rw [GridFits, if_pos (by decide), rowsOf_cons (by decide) (List.cons_ne_nil _ _)]
    rw [show List.drop (Int.toNat 2) [(⟨10, 10⟩ : QSize), ⟨20, 30⟩] = [] from rfl, rowsOf_nil]
    refine ⟨?_, trivial⟩
    decide
  have hpos : (⟨0, 0⟩ : QPoint).IsInt := ⟨by decide, by decide⟩
  obtain ⟨size, placed, hok, -, hlaid⟩ :=
    (wellLaid_iff _ hvec hpos (by decide) (Or.inl (by decide)) false).2 ⟨hclear, hfit⟩
  exact ⟨size, placed, hok, hlaid⟩

/-- **The next row starts below the last widget of a row**, although the first one is
    higher. -/
theorem not_wellLaid_uneven : ∃ size placed,
    moveGroup [⟨10, 30⟩, ⟨10, 10⟩, ⟨10, 10⟩] ⟨0, 0⟩ 0 2 (-1) false = .ok (size, placed) ∧
      ¬ WellLaid ⟨0, 0⟩ size placed := by
  refine ⟨⟨20, 30⟩, [⟨⟨0, 0⟩, ⟨10, 30⟩⟩, ⟨⟨10, 0⟩, ⟨10, 10⟩⟩, ⟨⟨0, 10⟩, ⟨10, 10⟩⟩], rfl, fun h => ?_⟩
  obtain ⟨hfirst, -⟩ := List.pairwise_cons.1 h.apart
  have hthird := hfirst ⟨⟨0, 10⟩, ⟨10, 10⟩⟩ (by decide)
  rw [disjoint_points_iff ⟨by decide, by decide⟩ ⟨by decide, by decide⟩] at hthird
  exact absurd hthird (by decide)

-- where no `int` is left, the next widget comes back on the left
example : moveGroup [⟨100, 10⟩, ⟨100, 10⟩] ⟨2147483600, 0⟩ 0 2 (-1) false =
    .ok (⟨200, 10⟩, [⟨⟨2147483600, 0⟩, ⟨100, 10⟩⟩, ⟨⟨-2147483596, 0⟩, ⟨100, 10⟩⟩]) := rfl

/-! ## The default layout -/

/-- The number of columns: the most widgets that a row has. -/
def columnsOf (rows : List (List QSize)) : ℕ := (rows.map List.length).foldr max 0

theorem length_rowsOf {n : ℕ} (hn : 0 < n) (vec : List QSize) :
    (rowsOf n vec).length = (vec.length + (n - 1)) / n := by
  induction vec using rows_induction hn with
  | hnil =>
    rw [rowsOf_nil, List.length_nil, List.length_nil, Nat.zero_add, Nat.div_eq_of_lt (by omega)]
  | hrow vec hvec ih =>
    have hpos := List.length_pos_iff.2 hvec
    rw [rowsOf_cons hn hvec, List.length_cons, ih, List.length_drop]
    rcases Nat.lt_or_ge vec.length n with hlt | hge
    · rw [Nat.sub_eq_zero_of_le hlt.le, Nat.zero_add, Nat.div_eq_of_lt (by omega : n - 1 < n)]
      exact (Nat.div_eq_of_lt_le (by omega) (by omega)).symm
    · rw [← Nat.add_div_right _ hn]
      congr 1
      omega

theorem columnsOf_rowsOf {n : ℕ} (hn : 0 < n) (vec : List QSize) :
    columnsOf (rowsOf n vec) = min n vec.length := by
  induction vec using rows_induction hn with
  | hnil => rw [rowsOf_nil]; exact (Nat.min_zero n).symm
  | hrow vec hvec ih =>
    rw [rowsOf_cons hn hvec, columnsOf, List.map_cons, List.foldr_cons]
    rw [columnsOf] at ih
    rw [ih, List.length_take, List.length_drop]
    omega

section
variable {n : ℕ}

/-- The default row length, by how much the number exceeds the square below it. -/
theorem defaultRow_eq {r k : ℕ} (hr : 0 < r) (hk : k ≤ 2 * r) (hn : n = r * r + k) :
    defaultRow n = .ok (if k = 2 * r then (r : ℤ) + 1 else r) := by
  have hsqrt : n.sqrt = r := by
    rw [hn]
    exact Nat.sqrt_add_eq r (by omega)
  have hdiv : n / r = r + k / r := by
    rw [hn, Nat.mul_comm, Nat.mul_add_div hr]
  unfold defaultRow
  simp only [hsqrt]
  rw [if_neg hr.ne', hdiv, Nat.add_sub_cancel_left]
  split_ifs with heq
  · rw [heq, Nat.mul_div_cancel _ hr]
    rfl
  · have hsmall : k / r < 2 := (Nat.div_lt_iff_lt_mul hr).2 (by omega)
    rw [Nat.div_eq_of_lt hsmall]
    rfl

/-- The rows of the default layout. -/
theorem defaultRows_length {r k : ℕ} (hr : 0 < r) (hk : k ≤ 2 * r) :
    (r * r + k + ((if k = 2 * r then r + 1 else r) - 1)) / (if k = 2 * r then r + 1 else r) =
      if k = 0 then r else if k ≤ r ∨ k = 2 * r then r + 1 else r + 2 := by
  by_cases hfull : k = 2 * r
  · rw [if_pos hfull, if_neg (by omega), if_pos (Or.inr hfull)]
    have hsum : r * r + k + (r + 1 - 1) = (r + 1) * (r + 1) + (r - 1) := by
      have : (r + 1) * (r + 1) = r * r + 2 * r + 1 := by ring
      omega
    rw [hsum, Nat.mul_add_div (Nat.succ_pos r), Nat.div_eq_of_lt (by omega), Nat.add_zero]
  · rw [if_neg hfull, Nat.add_assoc, Nat.mul_add_div hr]
    split_ifs with hzero hhalf
    · rw [Nat.div_eq_of_lt (by omega), Nat.add_zero]
    · rw [Nat.div_eq_of_lt_le (by omega) (by omega : k + (r - 1) < (1 + 1) * r)]
    · rw [Nat.div_eq_of_lt_le (by omega) (by omega : k + (r - 1) < (2 + 1) * r)]

/-- What is promised of the default layout of `n` widgets of one size: there is no
    division by zero, the rows have a length of at least 1, and the numbers of rows
    and columns differ by at most 1. -/
def NearSquare (n : ℕ) (size : QSize) (pos : QPoint) (space : ℤ) (isReverse : Bool) : Prop :=
  ∃ row wide placed, defaultRow n = .ok row ∧ (1 ≤ n → 1 ≤ row) ∧
    moveGroup (List.replicate n size) pos space (-1) (-1) isReverse = .ok (wide, placed) ∧
    -- the widgets stand in these rows, their coordinates being `int`s
    placed.map Placed.wrap =
      (placeRows space pos (rowsOf row.toNat (List.replicate n size))).map Placed.wrap ∧
    |((rowsOf row.toNat (List.replicate n size)).length : ℤ) -
      columnsOf (rowsOf row.toNat (List.replicate n size))| ≤ 1

variable {size : QSize} {pos : QPoint} {space : ℤ} {isReverse : Bool}

theorem not_nearSquare_zero : ¬ NearSquare 0 size pos space isReverse := by
  rintro ⟨row, wide, placed, hrow, -⟩
  rw [defaultRow, Nat.sqrt_zero, if_pos rfl] at hrow
  cases hrow

variable (size pos space isReverse) in
/-- The default layout stands in rows of the default length. -/
theorem moveGroup_default {row : ℕ} (hrow : defaultRow n = .ok row) (hpos : 0 < row) :
    ∃ wide placed, moveGroup (List.replicate n size) pos space (-1) (-1) isReverse = .ok (wide, placed) ∧
      placed.map Placed.wrap =
        (placeRows space pos (rowsOf row (List.replicate n size))).map Placed.wrap := by
  have hplaced := foldl_rows pos space (-1) (Int.natCast_pos.2 hpos) (List.replicate n size) (.start pos) rfl rfl
  have hwraps := wraps_foldl pos space row (-1) (List.replicate n size) (Wraps.start pos)
  rw [MoveState.start, List.nil_append, Int.toNat_natCast] at hplaced
  rw [moveGroup, if_pos ⟨by decide, by decide⟩, List.length_replicate, hrow, List.reverse_replicate,
    ite_self]
  refine ⟨_, _, rfl, ?_⟩
  rw [← hplaced]
  exact hwraps.placed

/-- The numbers of rows and columns, for a row length that there are widgets for. -/
theorem nearSquare_of_row {row : ℕ} (hrow : defaultRow n = .ok row) (hpos : 0 < row) (hle : row ≤ n) :
    NearSquare n size pos space isReverse ↔ |(((n + (row - 1)) / row : ℕ) : ℤ) - row| ≤ 1 := by
  obtain ⟨wide, placed, hcall, hplaced⟩ := moveGroup_default size pos space isReverse hrow hpos
  have hcolumns : columnsOf (rowsOf row (List.replicate n size)) = row := by
    rw [columnsOf_rowsOf hpos, List.length_replicate, Nat.min_eq_left hle]
  have hrows : (rowsOf row (List.replicate n size)).length = (n + (row - 1)) / row := by
    rw [length_rowsOf hpos, List.length_replicate]
  constructor
  · rintro ⟨row', wide', placed', hrow', -, -, -, hdiff⟩
    rw [hrow, Except.ok.injEq] at hrow'
    rwa [← hrow', Int.toNat_natCast, hrows, hcolumns] at hdiff
  · intro hdiff
    refine ⟨row, wide, placed, hrow, fun _ => by omega, hcall, ?_, ?_⟩
    · rwa [Int.toNat_natCast]
    · rwa [Int.toNat_natCast, hrows, hcolumns]

/-- By how much the number of widgets may exceed a square. -/
theorem nearSquare_of_excess {r k : ℕ} (hr : 0 < r) (hk : k ≤ 2 * r) (hn : n = r * r + k) :
    NearSquare n size pos space isReverse ↔ k ≤ r ∨ k = 2 * r := by
  have hrow := defaultRow_eq hr hk hn
  have hrows := defaultRows_length hr hk
  have hcast : (if k = 2 * r then (r : ℤ) + 1 else r) = ((if k = 2 * r then r + 1 else r : ℕ) : ℤ) := by
    split_ifs
    · push_cast; rfl
    · rfl
  rw [hcast] at hrow
  rw [← hn] at hrows
  have hsquare : r ≤ r * r := Nat.le_mul_self r
  rw [nearSquare_of_row hrow (by split_ifs <;> omega) (by split_ifs <;> omega), hrows, abs_le]
  split_ifs
  all_goals omega

end

/-- **When the default layout is nearly square**: iff there is a widget, and their number
    is not strictly between `r * r + r` and `r * r + 2 * r`, where `r` is its integer
    square root. -/
theorem nearSquare_iff (n : ℕ) (size : QSize) (pos : QPoint) (space : ℤ) (isReverse : Bool) :
    NearSquare n size pos space isReverse ↔
      1 ≤ n ∧ (n ≤ n.sqrt * n.sqrt + n.sqrt ∨ n = n.sqrt * n.sqrt + 2 * n.sqrt) := by
  rcases Nat.eq_zero_or_pos n with rfl | hpos
  · exact iff_of_false not_nearSquare_zero fun h => absurd h.1 (by decide)
  · have hr : 0 < n.sqrt := Nat.sqrt_pos.2 hpos
    have hle := Nat.sqrt_le n
    have hlt := Nat.lt_succ_sqrt n
    have hsquare : n.sqrt.succ * n.sqrt.succ = n.sqrt * n.sqrt + 2 * n.sqrt + 1 := by
      rw [Nat.succ_eq_add_one]; ring
    rw [nearSquare_of_excess (k := n - n.sqrt * n.sqrt) hr (by omega) (by omega)]
    omega

/-- **No widgets, and seven of them**: a division by zero, and four rows of two. -/
theorem not_nearSquare_seven :
    ¬ NearSquare 0 ⟨10, 10⟩ ⟨0, 0⟩ 5 false ∧ ¬ NearSquare 7 ⟨10, 10⟩ ⟨0, 0⟩ 5 false := by
  refine ⟨not_nearSquare_zero, fun h => ?_⟩
  rw [nearSquare_of_excess (r := 2) (k := 3) (by decide) (by decide) rfl] at h
  exact absurd h (by decide)

end SimpleChat
