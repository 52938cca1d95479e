/-
  wid_msg_abs.h, wid_message.cpp, wid_chat_output.cpp, qarea_wid.cpp: where the messages
  of a chat stand.

  * `updateMsg`: the size of a bubble; `makeMsgBox`: the bubble, the icon and the tips in
    the box of the message; `QareaWid.addWid`: the boxes below each other;
  * `BoxLaid`: the widgets of a box are apart and in it; `box_laid`: they are, since no
    bubble is wider than `msg_width`;
  * `chat_laid`: so in every chat, whatever its messages, fonts and pictures are, no two
    widgets overlap and none leaves the area, until the area is as high as a widget can be.
-/
import SimpleChat.ChatWindow
import SimpleChat.MovePos
import SimpleChat.WrapText

namespace SimpleChat

open Lib

/-- What a message takes of Qt: texts, the metrics of its two fonts, and pictures. -/
structure Gui where
  codec : Utf8Codec
  /-- The font of size 12. -/
  textFont : QFontMetrics
  /-- The font of size 10. -/
  hintFont : QFontMetrics
  /-- `QPixmap::load`: the size of the picture in a file. -/
  load : QString → Option QSize
  /-- `QPixmap::scaled` with `KeepAspectRatio` -/
  scaled : QSize → QSize → QSize
  /-- The size of a child widget that was not resized. -/
  unsized : QSize
  load_nonneg : ∀ file s, load file = some s → 0 ≤ s.width ∧ 0 ≤ s.height
  scaled_within : ∀ s bound, (scaled s bound).width ≤ max 0 bound.width
  unsized_eq : unsized = ⟨100, 30⟩

/-! ## The code -/

/-- `_fsize_message_` -/
def msgSpace : ℤ := 5
def msgPadding : ℤ := 5
def msgIcon : ℤ := 50
def msgMaxWidth : ℤ := 500 - msgSpace * 3
def msgWidth : ℤ := msgMaxWidth - msgIcon * 2 - msgSpace * 2

/-- `_fsize_ioput_` -/
def spaceMsg : ℤ := 10
def maxWidth : ℤ := 500
def heightOutput : ℤ := 330 + 10

/-- `qframe_line::calc_size` -/
def calcSize (max : QSize) (padding : ℤ) : QSize := ⟨max.width - padding * 2, max.height - padding * 2⟩

/-- `QWidget::resize` -/
def QSize.resize (size : QSize) : QSize := ⟨resizeLength size.width, resizeLength size.height⟩

/-- `qframe_line::move_center`: the size of the frame around a widget. -/
def moveCenter (wid : QSize) (padding : ℤ) : QSize :=
  QSize.resize ⟨wid.width + padding * 2, wid.height + padding * 2⟩

/-- `move_x` -/
def moveX (vec : List QSize) (pos : QPoint) (space : ℤ) : Outcome (QSize × List Placed) :=
  moveGroup vec pos space (-1) 1 false

/-- `move_xr` -/
def moveXr (vec : List QSize) (pos : QPoint) (space : ℤ) : Outcome (QSize × List Placed) :=
  moveGroup vec pos space (-1) 1 true

/-- The box of a message (`wid_message`) and its widgets, in the order of their moves. -/
structure MessageBox where
  size : QSize
  widgets : List Placed

section
variable (g : Gui)

/-- `qlab_img::update_img` behind `set_img` and `set_keep(true,size)` -/
def updateImg (file : QString) (size : QSize) : QSize :=
  match g.load file with
  | some pix => (g.scaled pix (if size.width ≠ 0 then size else pix)).resize
  | none => g.unsized

/-- `update_msg` of the three subclasses of `wid_msg_abs`. -/
def updateMsg (area : WidMsgAbs) (content : QString) (maxWidth padding : ℤ) : QSize :=
  match area with
  | .text =>
    let lab := QlabWrap.updateText g.textFont
      ⟨maxWidth - padding * 2, content, [], g.unsized.width, g.unsized.height⟩
    moveCenter ⟨lab.width, lab.height⟩ padding
  | .img =>
    -- a picture that cannot be loaded is null, and has the width 0
    let pix := (g.load content).getD ⟨0, 0⟩
    let width := (if maxWidth < pix.width then maxWidth else pix.width) - padding * 2
    moveCenter (updateImg g content ⟨width, width⟩) padding
  | .hint =>
    let lab := QlabWrap.updateText g.hintFont
      ⟨maxWidth - padding * 2, content, [], g.unsized.width, g.unsized.height⟩
    moveCenter ⟨lab.width, lab.height⟩ 0

/-- `wid_message::make_msg`, on the size of the bubble -/
def makeMsgBox (msg : QSize) (flg : Align) (img : Str) : Outcome MessageBox :=
  if flg = .center ∧ img = [] then
    .ok ⟨QSize.resize ⟨msgMaxWidth, msg.height⟩, [⟨⟨msgMaxWidth.tdiv 2 - msg.width.tdiv 2, 0⟩, msg⟩]⟩
  else
    let widthMsg := msg.width + msgSpace * 2 + msgIcon * 2
    let icon : QSize := ⟨msgIcon, msgIcon⟩
    let tips : QSize := ⟨msgIcon, msgIcon⟩
    let size := QSize.resize ⟨msgMaxWidth, if msgIcon < msg.height then msg.height else msgIcon⟩
    match flg with
    | .left => moveX [icon, msg, tips] ⟨0, 0⟩ msgSpace >>= fun r => .ok ⟨size, r.2⟩
    | .right => moveXr [icon, msg, tips] ⟨msgMaxWidth - widthMsg, 0⟩ msgSpace >>= fun r => .ok ⟨size, r.2⟩
    -- nothing is moved
    | .center => .ok ⟨size, [⟨⟨0, 0⟩, icon⟩, ⟨⟨0, 0⟩, msg⟩, ⟨⟨0, 0⟩, tips⟩]⟩

/-- The box of a message of the chat. -/
def WidMessage.box (w : WidMessage) : Outcome MessageBox :=
  makeMsgBox (updateMsg g w.area (g.codec.fromStdString w.content) msgWidth msgPadding) w.flg w.icon

end

/-- `qarea_wid`: the size of the area that is scrolled, and the boxes in it. -/
structure QareaWid where
  size : QSize
  boxes : List (QPoint × MessageBox)

namespace QareaWid

/-- `init_size` -/
def initSize (size : QSize) : QareaWid := ⟨QSize.resize ⟨size.width - 5, 0⟩, []⟩

/-- `add_wid` -/
def addWid (area : QareaWid) (wid : MessageBox) (space : ℤ) : QareaWid :=
  ⟨QSize.resize ⟨area.size.width, area.size.height + (wid.size.height + space)⟩,
    area.boxes ++ [(⟨0, area.size.height⟩, wid)]⟩

end QareaWid

/-- The area of a chat that was made. -/
def chatArea : QareaWid := .initSize (calcSize ⟨maxWidth, heightOutput⟩ 5)

/-- `add_message` of messages that `make_msg` made. -/
def addMessages (g : Gui) (icons : Icons) (area : QareaWid) (cts : List CtMsgType) : Outcome QareaWid :=
  cts.foldlM (fun area ct => makeMsg icons ct >>= fun w => w.box g >>= fun b =>
    .ok (area.addWid b spaceMsg)) area

/-! ## Widgets in their places -/

/-- A widget of a box, in the coordinates of the area. -/
def Placed.shift (a : Placed) (p : QPoint) : Placed := ⟨⟨p.x + a.pos.x, p.y + a.pos.y⟩, a.size⟩

/-- All widgets of the chat. -/
def QareaWid.widgets (area : QareaWid) : List Placed :=
  area.boxes.flatMap fun b => b.2.widgets.map fun a => a.shift b.1

/-- The widget lies within a rectangle at the origin. -/
def Placed.Within (a : Placed) (size : QSize) : Prop :=
  (0 ≤ a.pos.x ∧ a.pos.x + a.size.width ≤ size.width) ∧ 0 ≤ a.pos.y ∧ a.pos.y + a.size.height ≤ size.height

/-- The widgets of a box are apart and in it, and the box is as wide as the messages. -/
structure BoxLaid (b : MessageBox) : Prop where
  width_eq : b.size.width = msgMaxWidth
  height_nonneg : 0 ≤ b.size.height
  apart : b.widgets.Pairwise fun a a' => Disjoint a.points a'.points
  within : ∀ a ∈ b.widgets, a.Within b.size

/-- The bubble of a message stands beside the icon of its side, or in the middle. -/
def Aligned (ct : CtMsgType) (b : QPoint × MessageBox) : Prop :=
  b.1.x = 0 ∧ ∃ msg : QSize,
    if ct.object = objectAL then
      b.2.widgets = [⟨⟨0, 0⟩, ⟨50, 50⟩⟩, ⟨⟨55, 0⟩, msg⟩, ⟨⟨60 + msg.width, 0⟩, ⟨50, 50⟩⟩]
    else if ct.object = objectAR then
      b.2.widgets = [⟨⟨375 - msg.width, 0⟩, ⟨50, 50⟩⟩, ⟨⟨430 - msg.width, 0⟩, msg⟩, ⟨⟨435, 0⟩, ⟨50, 50⟩⟩]
    else ∃ x, b.2.widgets = [⟨⟨x, 0⟩, msg⟩] ∧ 484 ≤ 2 * x + msg.width ∧ 2 * x + msg.width ≤ 485

/-- What a chat should look like: no two widgets overlap, none leaves the area, and
    every message stands on its side. -/
structure ChatLaid (area : QareaWid) (cts : List CtMsgType) : Prop where
  apart : area.widgets.Pairwise fun a b => Disjoint a.points b.points
  inside : ∀ a ∈ area.widgets, a.points ⊆ (Placed.mk ⟨0, 0⟩ area.size).points
  aligned : List.Forall₂ Aligned cts area.boxes

section
variable {g : Gui} {a b : Placed} {size : QSize}

/-- Widgets beside each other. -/
theorem disjoint_of_beside (h : a.pos.x + a.size.width ≤ b.pos.x) : Disjoint a.points b.points := by
  rw [Set.disjoint_left]
  intro p hpa hpb
  simp only [Placed.points, Set.mem_ofPred_eq] at hpa hpb
  omega

/-- Widgets below each other. -/
theorem disjoint_of_below (h : a.pos.y + a.size.height ≤ b.pos.y) : Disjoint a.points b.points := by
  rw [Set.disjoint_left]
  intro p hpa hpb
  simp only [Placed.points, Set.mem_ofPred_eq] at hpa hpb
  omega

theorem Placed.Within.points_subset (h : a.Within size) : a.points ⊆ (Placed.mk ⟨0, 0⟩ size).points := by
  intro p hp
  simp only [Placed.points, Set.mem_ofPred_eq, Placed.Within] at hp h ⊢
  omega

/-- A shift moves the points, so that widgets apart stay apart. -/
theorem disjoint_shift (p : QPoint) (h : Disjoint a.points b.points) :
    Disjoint (a.shift p).points (b.shift p).points := by
  rw [Set.disjoint_left] at h ⊢
  rintro ⟨x, y⟩ hxa hxb
  refine h (a := (x - p.x, y - p.y)) ?_ ?_
  · simp only [Placed.points, Placed.shift, Set.mem_ofPred_eq] at hxa ⊢
    omega
  · simp only [Placed.points, Placed.shift, Set.mem_ofPred_eq] at hxb ⊢
    omega

/-! ## Bubbles -/

/-- A size that a widget may have. -/
def QSize.Allowed (size : QSize) : Prop :=
  (0 ≤ size.width ∧ size.width ≤ widgetsizeMax) ∧ 0 ≤ size.height ∧ size.height ≤ widgetsizeMax

theorem allowed_resize (size : QSize) : size.resize.Allowed :=
  ⟨⟨resizeLength_nonneg _, (resizeLength_le _).2⟩, resizeLength_nonneg _, (resizeLength_le _).2⟩

theorem QSize.Allowed.resize_eq (h : size.Allowed) : size.resize = size := by
  rw [QSize.resize, resizeLength_eq h.1, resizeLength_eq h.2]

/-- The text fits the width that it is given. -/
theorem updateText_width_le (fm : QFontMetrics) (lab : QlabWrap) (hwidth : 0 ≤ lab.maxWidth) :
    (lab.updateText fm).width ≤ lab.maxWidth := by
  refine (resizeLength_le _).1.trans (max_le hwidth ?_)
  split_ifs
  · exact le_rfl
  · omega

/-- The picture is scaled down to the width, or is not there. -/
theorem updateImg_width_le (g : Gui) (file : QString) {pix : QSize} (hpix : (g.load file).getD ⟨0, 0⟩ = pix)
    {width : ℤ} (hwidth : width = (if msgWidth < pix.width then msgWidth else pix.width) - msgPadding * 2) :
    (updateImg g file ⟨width, width⟩).width ≤ msgWidth - msgPadding * 2 := by
  unfold updateImg
  cases hload : g.load file with
  | none =>
    simp only [g.unsized_eq]
    decide
  | some pix' =>
    rw [hload, Option.getD_some] at hpix
    subst hpix
    obtain ⟨hnonneg, -⟩ := g.load_nonneg file pix' hload
    have hbound : (if width ≠ 0 then QSize.mk width width else pix').width ≤ msgWidth - msgPadding * 2 := by
      -- a picture whose width is the padding is not scaled
      rw [apply_ite QSize.width]
      simp only [msgWidth, msgMaxWidth, msgSpace, msgIcon, msgPadding] at hwidth ⊢
      split_ifs at hwidth ⊢ <;> omega
    have hroom : 0 ≤ msgWidth - msgPadding * 2 := by decide
    have hscaled := g.scaled_within pix' (if width ≠ 0 then ⟨width, width⟩ else pix')
    exact (resizeLength_le _).1.trans (max_le hroom (hscaled.trans (max_le hroom hbound)))

/-- **No bubble is wider than a message may be.** -/
theorem updateMsg_size (g : Gui) (area : WidMsgAbs) (content : QString) :
    (updateMsg g area content msgWidth msgPadding).Allowed ∧
      (updateMsg g area content msgWidth msgPadding).width ≤ msgWidth := by
  have hframe : ∀ (wid : QSize) (padding : ℤ), wid.width + padding * 2 ≤ msgWidth →
      (moveCenter wid padding).Allowed ∧ (moveCenter wid padding).width ≤ msgWidth := by
    intro wid padding hle
    exact ⟨allowed_resize _, (resizeLength_le _).1.trans (max_le (by decide) hle)⟩
  have hroom : msgWidth - msgPadding * 2 = 365 ∧ msgWidth = 375 ∧ msgPadding = 5 := by decide
  have hwidth : 0 ≤ msgWidth - msgPadding * 2 := by decide
  cases area with
  | text =>
    have hlab := updateText_width_le g.textFont
      ⟨msgWidth - msgPadding * 2, content, [], g.unsized.width, g.unsized.height⟩ hwidth
    refine hframe _ _ ?_
    simp only at hlab ⊢
    omega
  | hint =>
    have hlab := updateText_width_le g.hintFont
      ⟨msgWidth - msgPadding * 2, content, [], g.unsized.width, g.unsized.height⟩ hwidth
    refine hframe _ _ ?_
    simp only at hlab ⊢
    omega
  | img =>
    have himg := updateImg_width_le g content rfl rfl
    refine hframe _ _ ?_
    omega

/-! ## Boxes -/

/-- `move_x` puts three widgets beside each other. -/
theorem moveX_three {a b c : QSize} {pos : QPoint} {space y z : ℤ}
    (hy : narrow32 (pos.x + a.width + space) = y) (hz : narrow32 (y + b.width + space) = z) :
    ∃ size, moveX [a, b, c] pos space = .ok (size, [⟨pos, a⟩, ⟨⟨y, pos.y⟩, b⟩, ⟨⟨z, pos.y⟩, c⟩]) := by
  subst hz hy
  exact ⟨_, rfl⟩

/-- `move_xr` begins with the last one. -/
theorem moveXr_three {a b c : QSize} {pos : QPoint} {space y z : ℤ}
    (hy : narrow32 (pos.x + c.width + space) = y) (hz : narrow32 (y + b.width + space) = z) :
    ∃ size, moveXr [a, b, c] pos space = .ok (size, [⟨pos, c⟩, ⟨⟨y, pos.y⟩, b⟩, ⟨⟨z, pos.y⟩, a⟩]) := by
  subst hz hy
  exact ⟨_, rfl⟩

/-- The height of the box beside the icons. -/
def boxHeight (msg : QSize) : ℤ := if 50 < msg.height then msg.height else 50

variable {msg : QSize}

theorem boxHeight_size (hmsg : msg.Allowed) :
    (50 ≤ boxHeight msg ∧ msg.height ≤ boxHeight msg) ∧
      QSize.resize ⟨msgMaxWidth, boxHeight msg⟩ = ⟨485, boxHeight msg⟩ := by
  obtain ⟨-, -, hmax⟩ := hmsg
  have hsmall : widgetsizeMax = 16777215 := rfl
  have hle : 50 ≤ boxHeight msg ∧ msg.height ≤ boxHeight msg ∧ boxHeight msg ≤ widgetsizeMax := by
    unfold boxHeight
    split_ifs <;> omega
  have hallowed : QSize.Allowed ⟨msgMaxWidth, boxHeight msg⟩ :=
    ⟨(by decide : 0 ≤ msgMaxWidth ∧ msgMaxWidth ≤ widgetsizeMax), by simp only; omega, hle.2.2⟩
  exact ⟨⟨hle.1, hle.2.1⟩, hallowed.resize_eq⟩

theorem makeMsgBox_left (hmsg : msg.Allowed) (img : Str) :
    makeMsgBox msg .left img = .ok ⟨⟨485, boxHeight msg⟩,
      [⟨⟨0, 0⟩, ⟨50, 50⟩⟩, ⟨⟨55, 0⟩, msg⟩, ⟨⟨60 + msg.width, 0⟩, ⟨50, 50⟩⟩]⟩ := by
  obtain ⟨⟨hlow, hmax⟩, -⟩ := id hmsg
  have hsmall : widgetsizeMax = 16777215 := rfl
  have hspace : msgSpace = 5 := rfl
  have hz : narrow32 (55 + msg.width + msgSpace) = 60 + msg.width := by
    rw [narrow32_of_range ⟨by omega, by omega⟩]
    omega
  obtain ⟨size, hmove⟩ : ∃ size, moveX [⟨msgIcon, msgIcon⟩, msg, ⟨msgIcon, msgIcon⟩] ⟨0, 0⟩ msgSpace =
      .ok (size, [⟨⟨0, 0⟩, ⟨50, 50⟩⟩, ⟨⟨55, 0⟩, msg⟩, ⟨⟨60 + msg.width, 0⟩, ⟨50, 50⟩⟩]) :=
    moveX_three rfl hz
  rw [makeMsgBox, if_neg fun h => by cases h.1]
  simp only [hmove, ok_bind]
  exact congrArg (fun size => Except.ok (MessageBox.mk size _)) (boxHeight_size hmsg).2

theorem makeMsgBox_right (hmsg : msg.Allowed) (img : Str) :
    makeMsgBox msg .right img = .ok ⟨⟨485, boxHeight msg⟩,
      [⟨⟨375 - msg.width, 0⟩, ⟨50, 50⟩⟩, ⟨⟨430 - msg.width, 0⟩, msg⟩, ⟨⟨435, 0⟩, ⟨50, 50⟩⟩]⟩ := by
  obtain ⟨⟨hlow, hmax⟩, -⟩ := id hmsg
  have hsmall : widgetsizeMax = 16777215 := rfl
  have hsizes : msgMaxWidth = 485 ∧ msgIcon = 50 ∧ msgSpace = 5 := by decide
  have hx : msgMaxWidth - (msg.width + msgSpace * 2 + msgIcon * 2) = 375 - msg.width := by omega
  have hy : narrow32 (375 - msg.width + msgIcon + msgSpace) = 430 - msg.width := by
    rw [narrow32_of_range ⟨by omega, by omega⟩]
    omega
  have hz : narrow32 (430 - msg.width + msg.width + msgSpace) = 435 := by
    rw [narrow32_of_range ⟨by omega, by omega⟩]
    omega
  obtain ⟨size, hmove⟩ : ∃ size, moveXr [⟨msgIcon, msgIcon⟩, msg, ⟨msgIcon, msgIcon⟩]
      ⟨msgMaxWidth - (msg.width + msgSpace * 2 + msgIcon * 2), 0⟩ msgSpace =
        .ok (size, [⟨⟨375 - msg.width, 0⟩, ⟨50, 50⟩⟩, ⟨⟨430 - msg.width, 0⟩, msg⟩, ⟨⟨435, 0⟩, ⟨50, 50⟩⟩]) := by
    rw [hx]
    exact moveXr_three hy hz
  rw [makeMsgBox, if_neg fun h => by cases h.1]
  simp only [hmove, ok_bind]
  exact congrArg (fun size => Except.ok (MessageBox.mk size _)) (boxHeight_size hmsg).2

/-- The bubble between two icons. -/
theorem boxLaid_row {x y z : ℤ} {msg : QSize} {height : ℤ} (hx : 0 ≤ x) (hy : x + 50 ≤ y)
    (hz : y + msg.width ≤ z) (hend : z + 50 ≤ 485) (hwidth : 0 ≤ msg.width)
    (hheight : 50 ≤ height ∧ msg.height ≤ height) :
    BoxLaid ⟨⟨485, height⟩, [⟨⟨x, 0⟩, ⟨50, 50⟩⟩, ⟨⟨y, 0⟩, msg⟩, ⟨⟨z, 0⟩, ⟨50, 50⟩⟩]⟩ := by
  have hnonneg : 0 ≤ height := by omega
  refine ⟨rfl, hnonneg, ?_, fun a ha => ?_⟩
  · refine List.pairwise_cons.2 ⟨fun a ha => disjoint_of_beside ?_, List.pairwise_cons.2
      ⟨fun a ha => disjoint_of_beside ?_, List.pairwise_singleton _ _⟩⟩
    · rcases List.mem_pair.1 ha with rfl | rfl <;> simp only <;> omega
    · obtain rfl := List.mem_singleton.1 ha
      exact hz
  · simp only [List.mem_cons, List.not_mem_nil, or_false] at ha
    rcases ha with rfl | rfl | rfl <;> simp only [Placed.Within] <;> omega

/-- **The box of a message** is laid well, with the bubble on the side of the message. -/
theorem box_laid {icons : Icons} {ct : CtMsgType} {w : WidMessage} (hw : makeMsg icons ct = .ok w) :
    ∃ b, w.box g = .ok b ∧ BoxLaid b ∧ ∀ y, Aligned ct (⟨0, y⟩, b) := by
  obtain ⟨hmsg, hwidth⟩ := updateMsg_size g w.area (g.codec.fromStdString w.content)
  have hside : (w.flg, w.icon) = if ct.object = objectAL then (Align.left, icons.left)
      else if ct.object = objectAR then (.right, icons.right) else (.center, []) := by
    unfold makeMsg at hw
    cases hnew : newMsg ct.types with
    | none => simp [hnew] at hw
    | some area =>
      simp only [hnew, Except.ok.injEq] at hw
      rw [← hw]
  unfold WidMessage.box
  generalize updateMsg g w.area (g.codec.fromStdString w.content) msgWidth msgPadding = msg at hmsg hwidth
  obtain ⟨⟨hlow, -⟩, hheight, hmax⟩ := id hmsg
  replace hwidth : msg.width ≤ 375 := hwidth
  have hicon := (boxHeight_size hmsg).1
  by_cases hleft : ct.object = objectAL
  · rw [if_pos hleft, Prod.mk.injEq] at hside
    rw [hside.1, makeMsgBox_left hmsg]
    refine ⟨_, rfl, boxLaid_row ?_ ?_ ?_ ?_ hlow hicon, fun y => ⟨rfl, msg, ?_⟩⟩
    case refine_5 => rw [if_pos hleft]
    all_goals omega
  · rw [if_neg hleft] at hside
    by_cases hright : ct.object = objectAR
    · rw [if_pos hright, Prod.mk.injEq] at hside
      rw [hside.1, makeMsgBox_right hmsg]
      refine ⟨_, rfl, boxLaid_row ?_ ?_ ?_ ?_ hlow hicon, fun y => ⟨rfl, msg, ?_⟩⟩
      case refine_5 => rw [if_neg hleft, if_pos hright]
      all_goals omega
    · rw [if_neg hright, Prod.mk.injEq] at hside
      have hmiddle : msgMaxWidth.tdiv 2 - msg.width.tdiv 2 = 242 - msg.width / 2 := by
        rw [Int.tdiv_eq_ediv_of_nonneg hlow]
        rfl
      have hbox : QSize.resize ⟨msgMaxWidth, msg.height⟩ = ⟨485, msg.height⟩ :=
        QSize.Allowed.resize_eq ⟨(by decide : 0 ≤ msgMaxWidth ∧ msgMaxWidth ≤ widgetsizeMax), hheight, hmax⟩
      rw [hside.1, hside.2, makeMsgBox, if_pos ⟨rfl, rfl⟩, hmiddle, hbox]
      refine ⟨_, rfl, ⟨rfl, hheight, List.pairwise_singleton _ _, fun a ha => ?_⟩, fun y => ⟨rfl, msg, ?_⟩⟩
      · obtain rfl := List.mem_singleton.1 ha
        change (0 ≤ 242 - msg.width / 2 ∧ 242 - msg.width / 2 + msg.width ≤ 485) ∧ (0 : ℤ) ≤ 0 ∧
          0 + msg.height ≤ msg.height
        omega
      · rw [if_neg hleft, if_neg hright]
        exact ⟨242 - msg.width / 2, rfl, by omega, by omega⟩

/-! ## The area -/

/-- What holds of the area after some messages: the boxes are laid well, one below the
    other, and the area is as high as they are. -/
structure Stacked (area : QareaWid) (cts : List CtMsgType) : Prop where
  width_eq : area.size.width = msgMaxWidth
  height_nonneg : 0 ≤ area.size.height
  laid : ∀ b ∈ area.boxes, BoxLaid b.2 ∧ b.1.x = 0 ∧ 0 ≤ b.1.y ∧
    b.1.y + b.2.size.height ≤ area.size.height
  below : area.boxes.Pairwise fun b b' => b.1.y + b.2.size.height ≤ b'.1.y
  aligned : List.Forall₂ Aligned cts area.boxes

theorem stacked_chatArea : Stacked chatArea [] :=
  ⟨rfl, le_rfl, fun _ hb => absurd hb List.not_mem_nil, List.Pairwise.nil, .nil⟩

/-- An area that is not as high as a widget can be has grown by the whole box. -/
theorem height_addWid {area : QareaWid} {b : MessageBox} (harea : 0 ≤ area.size.height) (hb : 0 ≤ b.size.height)
    (hroom : (area.addWid b spaceMsg).size.height < widgetsizeMax) :
    (area.addWid b spaceMsg).size.height = area.size.height + (b.size.height + spaceMsg) := by
  have hspace : spaceMsg = 10 := rfl
  have hnonneg : 0 ≤ area.size.height + (b.size.height + spaceMsg) := by omega
  exact resizeLength_eq ⟨hnonneg, (lt_of_resizeLength_lt hroom).le⟩

/-- **A message more** stands below the others. -/
theorem Stacked.addWid {area : QareaWid} {cts : List CtMsgType} (h : Stacked area cts) {b : MessageBox}
    {ct : CtMsgType} (hb : BoxLaid b) (hct : Aligned ct (⟨0, area.size.height⟩, b))
    (hroom : (area.addWid b spaceMsg).size.height < widgetsizeMax) :
    Stacked (area.addWid b spaceMsg) (cts ++ [ct]) := by
  have hspace : 0 ≤ spaceMsg := by decide
  have hheight := hb.height_nonneg
  have hnonneg := h.height_nonneg
  have hgrows := height_addWid hnonneg hheight hroom
  have hwidth : (area.addWid b spaceMsg).size.width = msgMaxWidth := by
    have hresize : resizeLength msgMaxWidth = msgMaxWidth := by decide
    rw [← hresize, ← h.width_eq]
    rfl
  refine ⟨hwidth, by omega, fun b' hb' => ?_, ?_, List.rel_append h.aligned (.cons hct .nil)⟩
  · rcases List.mem_append.1 hb' with hb' | hb'
    · obtain ⟨hlaid, hx, hy, hend⟩ := h.laid b' hb'
      exact ⟨hlaid, hx, hy, by omega⟩
    · obtain rfl := List.mem_singleton.1 hb'
      refine ⟨hb, rfl, hnonneg, ?_⟩
      simp only
      omega
  · refine List.pairwise_append.2 ⟨h.below, List.pairwise_singleton _ _, fun b' hb' c hc => ?_⟩
    obtain rfl := List.mem_singleton.1 hc
    exact (h.laid b' hb').2.2.2

/-- The widgets of such an area. -/
theorem Stacked.chatLaid {area : QareaWid} {cts : List CtMsgType} (h : Stacked area cts) : ChatLaid area cts := by
  -- a widget of a box lies between the upper and the lower edge of the box
  have hwithin : ∀ b ∈ area.boxes, ∀ a ∈ b.2.widgets.map fun a => a.shift b.1,
      (0 ≤ a.pos.x ∧ a.pos.x + a.size.width ≤ msgMaxWidth) ∧
        b.1.y ≤ a.pos.y ∧ a.pos.y + a.size.height ≤ b.1.y + b.2.size.height := by
    intro b hb a ha
    obtain ⟨a', ha', rfl⟩ := List.mem_map.1 ha
    obtain ⟨hlaid, hx, -⟩ := h.laid b hb
    have hin := hlaid.within a' ha'
    have hwidth := hlaid.width_eq
    simp only [Placed.Within, Placed.shift] at hin ⊢
    omega
  refine ⟨?_, fun a ha => ?_, h.aligned⟩
  · refine List.pairwise_flatMap.2 ⟨fun b hb => ?_, h.below.imp_of_mem fun hb hb' hbelow a ha a' ha' => ?_⟩
    · exact List.pairwise_map.2 ((h.laid b hb).1.apart.imp fun hdisj => disjoint_shift b.1 hdisj)
    · have := hwithin _ hb a ha
      have := hwithin _ hb' a' ha'
      exact disjoint_of_below (by omega)
  · obtain ⟨b, hb, ha⟩ := List.mem_flatMap.1 ha
    obtain ⟨-, -, hy, hend⟩ := h.laid b hb
    have hin := hwithin b hb a ha
    have hwidth := h.width_eq
    refine Placed.Within.points_subset ?_
    simp only [Placed.Within]
    omega

/-- A message of `addMessages`. -/
theorem addMessages_cons {icons : Icons} {area area' : QareaWid} {ct : CtMsgType} {cts : List CtMsgType}
    (hadd : addMessages g icons area (ct :: cts) = .ok area') :
    ∃ b, BoxLaid b ∧ Aligned ct (⟨0, area.size.height⟩, b) ∧
      addMessages g icons (area.addWid b spaceMsg) cts = .ok area' := by
  unfold addMessages at hadd
  rw [List.foldlM_cons] at hadd
  obtain ⟨area₁, hstep, hadd⟩ := bind_eq_ok.1 hadd
  obtain ⟨w, hw, hstep⟩ := bind_eq_ok.1 hstep
  obtain ⟨b, hb, hlaid, haligned⟩ := box_laid (g := g) hw
  rw [hb, ok_bind] at hstep
  obtain rfl := Except.ok.inj hstep
  exact ⟨b, hlaid, haligned _, hadd⟩

/-- The area does not get lower. -/
theorem height_addMessages {icons : Icons} {area area' : QareaWid} {cts : List CtMsgType}
    (hadd : addMessages g icons area cts = .ok area') (hroom : area'.size.height < widgetsizeMax) :
    area.size.height < widgetsizeMax := by
  induction cts generalizing area with
  | nil =>
    obtain rfl := Except.ok.inj hadd
    exact hroom
  | cons ct cts ih =>
    obtain ⟨b, hlaid, -, hadd⟩ := addMessages_cons hadd
    have hlt : area.size.height + (b.size.height + spaceMsg) < widgetsizeMax := lt_of_resizeLength_lt (ih hadd)
    have hheight := hlaid.height_nonneg
    have hspace : 0 ≤ spaceMsg := by decide
    omega

theorem addMessages_stacked {icons : Icons} {area area' : QareaWid} {cts cts' : List CtMsgType}
    (h : Stacked area cts) (hadd : addMessages g icons area cts' = .ok area')
    (hroom : area'.size.height < widgetsizeMax) : Stacked area' (cts ++ cts') := by
  induction cts' generalizing area cts with
  | nil =>
    obtain rfl := Except.ok.inj hadd
    rwa [List.append_nil]
  | cons ct cts' ih =>
    obtain ⟨b, hlaid, haligned, hadd⟩ := addMessages_cons hadd
    rw [List.append_cons]
    exact ih (h.addWid hlaid haligned (height_addMessages hadd hroom)) hadd

/-- **The chat is laid well** until its area is as high as a widget can be: whatever
    messages were shown in it, and whatever their fonts and pictures are, no two widgets
    overlap, none leaves the area, and the bubble of every message stands beside the icon
    of its side. -/
theorem chat_laid {icons : Icons} {cts : List CtMsgType} {area : QareaWid}
    (h : addMessages g icons chatArea cts = .ok area) (hroom : area.size.height < widgetsizeMax) :
    ChatLaid area cts :=
  (addMessages_stacked stacked_chatArea h hroom).chatLaid

end

/-- No picture can be loaded. -/
def Gui.noPictures : Gui where
  codec := Utf8Codec.ascii
  textFont := ⟨fun _ => 8, 20⟩
  hintFont := ⟨fun _ => 7, 16⟩
  load _ := none
  scaled _ _ := ⟨0, 0⟩
  unsized := ⟨100, 30⟩
  load_nonneg _ _ h := by cases h
  scaled_within _ _ := le_max_left _ _
  unsized_eq := rfl

/-- A message of the friend, a picture of the user and a hint. -/
def helloMessages : List CtMsgType :=
  [⟨7, typesText, objectAL, lit "hello"⟩, ⟨8, typesImg, objectAR, lit "a.png"⟩, ⟨9, typesHint, lit "SYS", lit "ok"⟩]

theorem chat_laid_hello : ∃ area, addMessages Gui.noPictures ⟨lit "l", lit "r"⟩ chatArea helloMessages = .ok area ∧
    area.size = ⟨485, 146⟩ ∧ ChatLaid area helloMessages := by
  obtain ⟨area, harea, hsize⟩ : ∃ area, addMessages Gui.noPictures ⟨lit "l", lit "r"⟩ chatArea helloMessages =
      .ok area ∧ area.size = ⟨485, 146⟩ := ⟨_, rfl, by decide⟩
  exact ⟨area, harea, hsize, chat_laid harea (by rw [hsize]; decide)⟩

end SimpleChat
