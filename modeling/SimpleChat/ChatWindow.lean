/-
  wid_chat_input.{h,cpp}: what is typed or dropped into a chat, and the widgets
  that its messages become.

  * `makeMsg`: the widget of a message, by its type; a type without a widget
    leaves a null pointer, which is dereferenced;
  * `sendText`, `sendDrop`: the messages that the input emits;
  * `Displayable`: the types that have a widget.
-/
import SimpleChat.History

namespace SimpleChat

open Lib

/-- The types of messages. -/
def typesImg : Str := lit "Img"
def typesText : Str := lit "Text"
def typesFile : Str := lit "File"
def typesHint : Str := lit "Hint"

/-- The subclasses of `wid_msg_abs`. -/
inductive WidMsgAbs where
  | text | hint | img
  deriving DecidableEq

inductive Align where
  | left | right | center
  deriving DecidableEq

/-- `wid_message`: what is shown of a message, beside an icon. -/
structure WidMessage where
  area : WidMsgAbs
  content : Str
  flg : Align
  icon : Str
  deriving DecidableEq

/-- `set_icon` of the input: the icons of the friend and of the user. -/
structure Icons where
  left : Str
  right : Str

/-- The subclass that `make_msg` creates; `none` is the null pointer. -/
def newMsg (types : Str) : Option WidMsgAbs :=
  if types = typesText then some .text
  else if types = typesHint then some .hint
  else if types = typesImg then some .img
  else none

/-- `make_msg` -/
def makeMsg (icons : Icons) (ct : CtMsgType) : Outcome WidMessage :=
  let (flg, icon) :=
    if ct.object = objectAL then (Align.left, icons.left)
    else if ct.object = objectAR then (.right, icons.right)
    else (.center, [])
  match newMsg ct.types with
  | some area => .ok ⟨area, ct.content, flg, icon⟩
  -- `msg->update_msg(..)` through the null pointer
  | none => .error .trap

/-- `send_text`: the message that it emits. -/
def sendText (now : Int64) (txt : Str) : List CtMsgType :=
  if txt ≠ [] then [⟨now, typesText, objectAR, txt⟩] else []

/-- The handler of `sn_send_drop`: the messages it emits for the dropped files,
    each with the time at which it is reached.  `isImg` is `QImageReader::canRead`. -/
def sendDrop (isImg : Str → Bool) (ls : List (Int64 × Str)) : List CtMsgType :=
  (ls.filter fun file => isImg file.2).map fun file => ⟨file.1, typesFile, objectAR, file.2⟩

/-! ## Which messages have a widget -/

/-- The types that `make_msg` knows. -/
def Displayable (types : Str) : Prop := types = typesText ∨ types = typesHint ∨ types = typesImg

instance (types : Str) : Decidable (Displayable types) := inferInstanceAs (Decidable (_ ∨ _ ∨ _))

end SimpleChat
