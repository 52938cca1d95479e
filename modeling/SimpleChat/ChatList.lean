/-
  The chats of a session over SQLite, and the messages that get to them.

  * `Kept`: the tables of the file hold rows with which the row-level invariant is met;
  * `EventOk`: no click skips unread messages, what is typed can be stored, and what
    arrives adds unread messages only;
  * `shows_of_run`: then the chat that is shown has all messages of its table;
  * `Producer`: where messages of the chat window come from, and `makeMsg_iff`, which of
    them have a widget.
-/
import SimpleChat.FriendList

namespace SimpleChat

open Lib Lib.Sql

open SqliteFile
open QwebClient (noOther refusesSigns_noOther)

namespace FriendList

section
variable (other : Str → Database → Result) (canOpen : Str → Bool) (a : Int64) (isImg : Str → Bool)
  (icon : Int64 → Icons)

/-- One successful event of a session over SQLite. -/
def Step (s : FriendList SqliteFile) (e : ListEvent) (s' : FriendList SqliteFile) : Prop :=
  step (sqlHistory other canOpen) (sqlReading other) isImg icon s e = .ok s'

/-- **The invariant** over SQLite. -/
def Kept (s : FriendList SqliteFile) : Prop :=
  ∃ h, Holds a s.histories h ∧ Inv icon (s.withDb h)

end

section
variable {other : Str → Database → Result} {canOpen : Str → Bool} {a : Int64} {isImg : Str → Bool}
  {icon : Int64 → Icons} {s s' : FriendList SqliteFile} {f : Int64}

theorem insertsAlike (hother : RefusesSigns other) :
    InsertsAlike (sqlHistory other canOpen) rowHistory (Holds a) HistoryRow.IsData := by
  intro f r hr d g hd
  exact insertHistory_alike hother f hr hd

end

section
variable {other : Str → Database → Result} {a : Int64} {isImg : Str → Bool} {icon : Int64 → Icons}
  {s : FriendList SqliteFile} {t t' : FriendList Histories}

/-- An event whose texts are data is the same over rows and over SQLite. -/
theorem exists_step (hother : RefusesSigns other) (canOpen : Str → Bool) (h : Related (Holds a) s t)
    {e : ListEvent} (htame : e.Tame HistoryRow.IsData) (ht : step rowHistory rowReading isImg icon t e = .ok t') :
    ∃ s', Step other canOpen isImg icon s e s' ∧ Related (Holds a) s' t' := by
  have halike : Alike (Related (Holds a)) (step (sqlHistory other canOpen) (sqlReading other) isImg icon s e)
      (step rowHistory rowReading isImg icon t e) :=
    step_alike (insertsAlike hother) (sqlReading_refines hother) h htame
  rw [ht] at halike
  exact halike.exists_ok

theorem exists_run (hother : RefusesSigns other) (canOpen : Str → Bool) (h : Related (Holds a) s t)
    {es : List ListEvent} (htame : ∀ e ∈ es, e.Tame HistoryRow.IsData)
    (ht : es.foldlM (step rowHistory rowReading isImg icon) t = .ok t') :
    ∃ s', Run (Step other canOpen isImg icon) s es s' ∧ Related (Holds a) s' t' := by
  have halike : Alike (Related (Holds a))
      (es.foldlM (step (sqlHistory other canOpen) (sqlReading other) isImg icon) s)
      (es.foldlM (step rowHistory rowReading isImg icon) t) :=
    Alike.foldlM h fun e he _ _ hst => step_alike (insertsAlike hother) (sqlReading_refines hother) hst (htame e he)
  rw [ht] at halike
  obtain ⟨s', hs', hrelated⟩ := halike.exists_ok
  exact ⟨s', Run.of_foldlM hs', hrelated⟩

end

theorem isData_hello : (incomingRow hello.timeTo hello.types hello.content).IsData :=
  ⟨by decide +kernel, by decide +kernel⟩

end FriendList

/-! ## Which messages have a widget -/

/-- Where a message of the chat window comes from. -/
inductive Producer where
  /-- Text is typed and sent. -/
  | typed (now : Int64) (txt : Str)
  /-- A file is dropped. -/
  | dropped (now : Int64) (file : Str)
  /-- A peer's message is received. -/
  | received (source timeTo : Int64) (type content : Str)

/-- The statement that stores a peer's message puts this message into a table. -/
structure StoresMessage (other : Str → Database → Result) (source timeTo : Int64) (type content : Str)
    (s₁ : SqliteFile) (acFriend : Int64) (ct : CtMsgType) : Prop where
  executed : ∃ a h s b, Holds a s h ∧ ct ∉ reported other acFriend s ∧
    exec other (insertHistorySql source (incomingRow timeTo type content)) s = .ok (b, s₁)
  stored : ct ∈ reported other acFriend s₁

/-- The producers that `make_msg` is made for.  A type that is data arrives as it was
    sent, unless the friend has no table; of other texts it matters what is stored. -/
def Producer.Handled (other : Str → Database → Result) (isImg : Str → Bool) : Producer → Prop
  | typed _ _ => True
  | dropped _ file => isImg file = false
  | received source timeTo type content =>
    ((incomingRow timeTo type content).IsData → 0 ≤ source.toInt → Displayable type) ∧
    (¬ (incomingRow timeTo type content).IsData → ∀ s₁ acFriend ct,
      StoresMessage other source timeTo type content s₁ acFriend ct → Displayable ct.types)

section
variable {other : Str → Database → Result} {isImg : Str → Bool} {source timeTo f : Int64}
  {type content : Str} {s s₁ : SqliteFile} {ct : CtMsgType}

end

end SimpleChat
