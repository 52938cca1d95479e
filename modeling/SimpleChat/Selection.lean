/-
  wid_friend_list.cpp, qbutt_line.cpp: the button and the chat that are selected.

  * `QbuttLine`: a button of three states, which `keep_status` holds up;
  * `FriendView.step`: `add_friend`, the mouse on a button, `update_connect`, and the
    widgets that take turns in the area of the chat;
  * `Listing`: what the list is for, without widgets: the friends, the one clicked last,
    where the mouse is and which widget was asked for;
  * `Mirrors`: the view looks like a listing; `selection_mirrored`: it does in every run.
-/
import SimpleChat.WebProtocol

namespace SimpleChat

open Lib

/-! ## Buttons -/

/-- The colours of the list. -/
inductive Col where
  | darkGray | darkGreen | darkRed
  deriving DecidableEq, Repr

/-- `qbutt_line::status` -/
inductive ButtStatus where
  | leave | enter | press
  deriving DecidableEq, Repr

/-- The value of an enumerator. -/
def ButtStatus.val : ButtStatus → ℕ
  | leave => 0
  | enter => 1
  | press => 2

/-- What is drawn of a `qbutt_line`, and what it keeps. -/
structure QbuttLine where
  keep : Bool
  kepSt : ButtStatus
  status : ButtStatus
  col : Col
  deriving DecidableEq, Repr

namespace QbuttLine

/-- A new button; `_kep_st` is whatever it is until `keep_status` sets it. -/
def new (kepSt : ButtStatus) : QbuttLine := ⟨false, kepSt, .leave, .darkGray⟩

variable (b : QbuttLine)

/-- `switch_status` -/
def switchStatus (st : ButtStatus) : QbuttLine :=
  { b with status := if b.keep then (if b.kepSt.val ≤ st.val then st else b.kepSt) else st }

/-- `keep_status`, with its default for the status. -/
def keepStatus (keep : Bool) : QbuttLine := { b with keep, kepSt := .enter }.switchStatus .leave

/-- `set_col` -/
def setCol (col : Col) : QbuttLine := { b with col }

/-- A kept button does not fall below its status. -/
theorem status_switchStatus_of_keep (hk : b.keep = true) (he : b.kepSt = .enter) (st : ButtStatus) :
    (b.switchStatus st).status ≠ .leave := by
  simp only [switchStatus, hk, he, if_true]
  cases st <;> simp [ButtStatus.val]

theorem status_switchStatus_of_not (hk : b.keep = false) (st : ButtStatus) :
    (b.switchStatus st).status = st := by
  simp [switchStatus, hk]

end QbuttLine

/-! ## The code -/

/-- A record of the list (`ct_friend`): the account and `online` of its status, its
    button with the frame, and whether its chat is visible; `none` while it is null. -/
structure ViewRecord where
  friends : Int64
  online : Bool
  butt : QbuttLine
  frame : Col
  chat : Option Bool
  deriving DecidableEq, Repr

/-- The widgets of `_vec_extend`. -/
inductive ExtendWid where
  | chat | setting | person
  deriving DecidableEq, Repr

/-- `wid_friend_list`.  The records are numbered in the order of their buttons, and each
    makes a chat of its own, so that two records with one chat are one record.  What the
    chats show is not part of it. -/
structure FriendView where
  records : List ViewRecord
  mapFriends : Int64 → Option ℕ
  showFriend : Option ℕ
  /-- Which widgets of `_vec_extend` are visible. -/
  vecExtend : ExtendWid → Bool

inductive ViewEvent where
  /-- `add_friend`; the button begins with some value of `_kep_st`. -/
  | addFriend (friends : Int64) (online : Bool) (kepSt : ButtStatus)
  /-- `enterEvent`, `mousePressEvent` and `leaveEvent` of a button -/
  | mouse (k : ℕ) (st : ButtStatus)
  /-- `mouseReleaseEvent`, over the button or beside it. -/
  | release (k : ℕ) (inside : Bool)
  | updateConnect (account : Int64) (online : Bool)
  | addPersonFriends (account : Int64)
  /-- `sn_show_extend` -/
  | showExtend
  deriving DecidableEq, Repr

/-- The colour of a connection. -/
def connectCol (online : Bool) : Col := if online then .darkGreen else .darkRed

namespace ViewRecord

variable (r : ViewRecord)

/-- `ch_connect_col` -/
def chConnectCol (online : Bool) : ViewRecord := { r with frame := connectCol online }

/-- `ch_keep_col` -/
def chKeepCol (online : Bool) : ViewRecord :=
  { r with butt := (r.butt.keepStatus true).setCol (connectCol online) }

/-- `make_chat`: a new widget is not visible. -/
def makeChat : ViewRecord :=
  match r.chat with
  | some _ => r
  | none => { r with chat := some false }

@[simp] theorem friends_makeChat : r.makeChat.friends = r.friends := by
  unfold makeChat; split <;> rfl

@[simp] theorem online_makeChat : r.makeChat.online = r.online := by
  unfold makeChat; split <;> rfl

@[simp] theorem butt_makeChat : r.makeChat.butt = r.butt := by
  unfold makeChat; split <;> rfl

@[simp] theorem frame_makeChat : r.makeChat.frame = r.frame := by
  unfold makeChat; split <;> rfl

/-- There is a chat then. -/
theorem exists_chat_makeChat : ∃ v, r.makeChat.chat = some v := by
  unfold makeChat
  split
  · exact ⟨_, ‹_›⟩
  · exact ⟨false, rfl⟩

/-- The button and the chat that were shown before. -/
def deselect : ViewRecord :=
  { r with butt := (r.butt.keepStatus false).setCol .darkGray, chat := r.chat.map fun _ => false }

/-- `chat->show()` -/
def showChat : ViewRecord := { r with chat := r.chat.map fun _ => true }

end ViewRecord

namespace FriendView

variable (s : FriendView)

/-- A change of one record. -/
def modify (k : ℕ) (f : ViewRecord → ViewRecord) : FriendView :=
  { s with records := s.records.modify k f }

/-- `show_wid_extend` -/
def showWidExtend (wid : ExtendWid) : FriendView := { s with vecExtend := fun a => decide (a = wid) }

/-- `update_show_friend` -/
def updateShowFriend (k : ℕ) : FriendView :=
  let s := match s.showFriend with
    | some j => if j ≠ k then s.modify j ViewRecord.deselect else s
    | none => s
  { s with showFriend := some k }.modify k ViewRecord.showChat

/-- The slot of a friend's button. -/
def click (k : ℕ) : FriendView :=
  let s := s.modify k ViewRecord.makeChat
  let s := s.modify k fun r => r.chKeepCol r.online
  (s.updateShowFriend k).showWidExtend .chat

/-- `add_friend` -/
def addFriend (friends : Int64) (online : Bool) (kepSt : ButtStatus) : FriendView :=
  let r : ViewRecord := ⟨friends, online, .new kepSt, .darkGray, none⟩
  { s with
    records := s.records ++ [r.chConnectCol online]
    mapFriends := match s.mapFriends friends with
      | some _ => s.mapFriends
      | none => Function.update s.mapFriends friends (some s.records.length) }

/-- `update_connect` -/
def updateConnect (account : Int64) (online : Bool) : FriendView :=
  match s.mapFriends account with
  | some it => s.modify it fun r => { r with online }.chConnectCol online
  | none => s

/-- `add_person_friends` -/
def addPersonFriends (account : Int64) : FriendView :=
  match s.mapFriends account with
  | some _ => s.showWidExtend .person
  | none => s

def step : ViewEvent → FriendView
  | .addFriend friends online kepSt => s.addFriend friends online kepSt
  | .mouse k st => s.modify k fun r => { r with butt := r.butt.switchStatus st }
  | .release k inside =>
    -- without the button nothing is released
    let s := if inside ∧ k < s.records.length then s.click k else s
    s.modify k fun r => { r with butt := r.butt.switchStatus .enter }
  | .updateConnect account online => s.updateConnect account online
  | .addPersonFriends account => s.addPersonFriends account
  | .showExtend => s.showWidExtend .setting

/-- The list behind its constructor. -/
def start : FriendView := ⟨[], fun _ => none, none, fun a => decide (a = .chat)⟩

def run (es : List ViewEvent) : FriendView := es.foldl step start

end FriendView

/-! ## What the list is for -/

/-- The friends in the order in which they were added, each with its connection; the
    friend that was chosen last, with the connection that he had then; the buttons that
    the mouse is on; and the widget that is shown in the area of the chat. -/
structure Listing where
  friends : List (Int64 × Bool)
  chosen : Option (ℕ × Bool)
  hovered : ℕ → Bool
  widget : ExtendWid

namespace Listing

variable (c : Listing)

/-- The place of an account: that of its first button. -/
def place (account : Int64) : Option ℕ := c.friends.findIdx? fun a => a.1 == account

/-- The connection with which the friend at a place was chosen. -/
def chosenAt (k : ℕ) : Option Bool := c.chosen.bind fun x => if x.1 = k then some x.2 else none

def step : ViewEvent → Listing
  | .addFriend friends online _ => { c with friends := c.friends ++ [(friends, online)] }
  | .mouse k st => { c with hovered := Function.update c.hovered k (decide (st ≠ .leave)) }
  | .release k inside =>
    let c := { c with hovered := Function.update c.hovered k true }
    match c.friends[k]? with
    | some a => if inside then { c with chosen := some (k, a.2), widget := .chat } else c
    | none => c
  | .updateConnect account online =>
    match c.place account with
    | some k => { c with friends := c.friends.modify k fun a => (a.1, online) }
    | none => c
  | .addPersonFriends account => if (c.place account).isSome then { c with widget := .person } else c
  | .showExtend => { c with widget := .setting }

def start : Listing := ⟨[], none, fun _ => false, .chat⟩

def run (es : List ViewEvent) : Listing := es.foldl step start

end Listing

/-! ## How it looks -/

/-- How the record of a friend looks: the frame has the colour of his connection; his
    button is kept and his chat visible if he was chosen last, in the colour of the
    connection that he had then; a button that is lit is kept or under the mouse. -/
structure Looks (r : ViewRecord) (a : Int64 × Bool) (chosen : Option Bool) (hovered : Bool) : Prop where
  status : (r.friends, r.online) = a
  frame : r.frame = connectCol a.2
  keep : r.butt.keep = chosen.isSome
  col : r.butt.col = chosen.elim .darkGray connectCol
  chat : r.chat = some true ↔ chosen.isSome
  kepSt : chosen.isSome → r.butt.kepSt = .enter
  high : chosen.isSome → r.butt.status ≠ .leave
  lit : r.butt.status ≠ .leave → chosen.isSome ∨ hovered = true

/-- The view looks like the listing. -/
structure Mirrors (s : FriendView) (c : Listing) : Prop where
  length_eq : s.records.length = c.friends.length
  looks : ∀ k r a, s.records[k]? = some r → c.friends[k]? = some a →
    Looks r a (c.chosenAt k) (c.hovered k)
  map_eq : ∀ account, s.mapFriends account = c.place account
  show_eq : s.showFriend = c.chosen.map Prod.fst
  chosen_lt : ∀ x, c.chosen = some x → x.1 < c.friends.length
  extend_eq : ∀ a, s.vecExtend a = true ↔ a = c.widget

section
variable {r : ViewRecord} {a : Int64 × Bool} {chosen : Option Bool} {hovered : Bool}

theorem looks_new (friends : Int64) (online : Bool) (kepSt : ButtStatus) (hovered : Bool) :
    Looks (ViewRecord.chConnectCol ⟨friends, online, .new kepSt, .darkGray, none⟩ online)
      (friends, online) none hovered := by
  refine ⟨rfl, rfl, rfl, rfl, ⟨fun h => ?_, fun h => ?_⟩, fun h => ?_, fun h => ?_, fun h => absurd rfl h⟩
  all_goals cases h

/-- The mouse lights a button while it is on it, and a kept one stays lit. -/
theorem Looks.mouse (h : Looks r a chosen hovered) (st : ButtStatus) :
    Looks { r with butt := r.butt.switchStatus st } a chosen (decide (st ≠ .leave)) := by
  refine ⟨h.status, h.frame, h.keep, h.col, h.chat, h.kepSt, fun hc => ?_, fun hlit => ?_⟩
  · exact r.butt.status_switchStatus_of_keep (h.keep.trans hc) (h.kepSt hc) st
  · cases hc : chosen with
    | some o => exact Or.inl rfl
    | none =>
      have hk : r.butt.keep = false := by rw [h.keep, hc]; rfl
      rw [r.butt.status_switchStatus_of_not hk] at hlit
      exact Or.inr (decide_eq_true hlit)

theorem Looks.chConnectCol (h : Looks r a chosen hovered) (online : Bool) :
    Looks ({ r with online }.chConnectCol online) (a.1, online) chosen hovered := by
  have hfriends : r.friends = a.1 := congrArg Prod.fst h.status
  exact ⟨Prod.ext hfriends rfl, rfl, h.keep, h.col, h.chat, h.kepSt, h.high, h.lit⟩

/-- The friend that was chosen before. -/
theorem Looks.deselect (h : Looks r a chosen hovered) : Looks r.deselect a none hovered := by
  refine ⟨h.status, h.frame, rfl, rfl, ⟨fun hc => ?_, fun hc => ?_⟩, fun hc => ?_, fun hc => ?_,
    fun hlit => absurd rfl hlit⟩
  · simp only [ViewRecord.deselect, Option.map_eq_some_iff] at hc
    obtain ⟨_, -, hc⟩ := hc
    cases hc
  all_goals cases hc

/-- The friend that is chosen. -/
theorem Looks.select (h : Looks r a chosen hovered) :
    Looks (r.makeChat.chKeepCol r.online).showChat a (some a.2) hovered := by
  have honline : r.online = a.2 := congrArg Prod.snd h.status
  obtain ⟨v, hv⟩ := r.exists_chat_makeChat
  refine ⟨?_, ?_, rfl, ?_, iff_of_true ?_ rfl, fun _ => rfl, fun _ => ?_, fun _ => Or.inl rfl⟩
  · simpa [ViewRecord.showChat, ViewRecord.chKeepCol] using h.status
  · simpa [ViewRecord.showChat, ViewRecord.chKeepCol] using h.frame
  · exact congrArg connectCol honline
  · simp [ViewRecord.showChat, ViewRecord.chKeepCol, hv]
  · intro hleave
    cases hleave

end

section
variable {s : FriendView} {c : Listing}

/-- **What a click does to every record.** -/
theorem FriendView.records_click (s : FriendView) (k i : ℕ) : (s.click k).records[i]? =
    s.records[i]?.map fun r =>
      if i = k then (r.makeChat.chKeepCol r.online).showChat
      else if s.showFriend = some i then r.deselect else r := by
  have hmodify : ∀ (l : List ViewRecord) (j : ℕ) (f : ViewRecord → ViewRecord),
      (l.modify j f)[i]? = l[i]?.map fun r => if i = j then f r else r := by
    intro l j f
    rw [List.getElem?_modify, Option.map_eq_map]
    congr 1
    funext r
    exact if_congr eq_comm rfl rfl
  -- what is left is the order of the changes to one record
  simp only [click, showWidExtend, updateShowFriend, modify]
  cases hshow : s.showFriend with
  | none =>
    simp only [hmodify, Option.map_map]
    congr 1
    funext r
    by_cases hi : i = k <;> simp [hi]
  | some j =>
    by_cases hj : j = k
    · simp only [hj, ne_eq, not_true_eq_false, if_false, hmodify, Option.map_map]
      congr 1
      funext r
      by_cases hi : i = k
      · simp [hi]
      · simp [hi, Ne.symm hi]
    · simp only [ne_eq, hj, not_false_eq_true, if_true, hmodify, Option.map_map]
      congr 1
      funext r
      by_cases hi : i = k
      · simp [hi, Ne.symm hj]
      · simp [hi, eq_comm (a := i)]

theorem mirrors_start : Mirrors .start .start := by
  refine ⟨rfl, fun k r a hr => ?_, fun _ => rfl, rfl, fun x hx => ?_, fun a => ?_⟩
  · cases hr
  · cases hx
  · exact decide_eq_true_iff

/-- A change of one record, and of what the listing says of it. -/
theorem Mirrors.modify (h : Mirrors s c) {k : ℕ} {f : ViewRecord → ViewRecord} {c' : Listing}
    (hlen : c'.friends.length = c.friends.length) (hplace : ∀ account, c'.place account = c.place account)
    (hchosen : c'.chosen = c.chosen) (hwidget : c'.widget = c.widget)
    (hother : ∀ i, i ≠ k → c'.friends[i]? = c.friends[i]? ∧ c'.hovered i = c.hovered i)
    (hk : ∀ r a a', c.friends[k]? = some a → c'.friends[k]? = some a' →
      Looks r a (c.chosenAt k) (c.hovered k) → Looks (f r) a' (c.chosenAt k) (c'.hovered k)) :
    Mirrors (s.modify k f) c' := by
  have hat : ∀ i, c'.chosenAt i = c.chosenAt i := fun i => by rw [Listing.chosenAt, hchosen, Listing.chosenAt]
  refine ⟨?_, fun i r' a' hr' ha' => ?_, fun account => ?_, ?_, fun x hx => ?_, fun a => ?_⟩
  · rw [FriendView.modify, List.length_modify, h.length_eq, hlen]
  · rw [FriendView.modify, List.getElem?_modify, Option.map_eq_map, Option.map_eq_some_iff] at hr'
    obtain ⟨r, hr, rfl⟩ := hr'
    rw [hat]
    by_cases hi : i = k
    · subst hi
      obtain ⟨a, ha⟩ : ∃ a, c.friends[i]? = some a := by
        obtain ⟨hlt, -⟩ := List.getElem?_eq_some_iff.1 ha'
        exact ⟨_, List.getElem?_eq_getElem (hlen ▸ hlt)⟩
      rw [if_pos rfl]
      exact hk r a a' ha ha' (h.looks i r a hr ha)
    · obtain ⟨hfriends, hhovered⟩ := hother i hi
      rw [if_neg (Ne.symm hi), hhovered]
      exact h.looks i r a' hr (hfriends ▸ ha')
  · exact (h.map_eq account).trans (hplace account).symm
  · exact h.show_eq.trans (by rw [hchosen])
  · rw [hlen]
    exact h.chosen_lt x (hchosen ▸ hx)
  · rw [hwidget]
    exact h.extend_eq a

/-- The mouse enters a button, presses it or leaves it. -/
theorem Mirrors.mouse (h : Mirrors s c) (k : ℕ) (st : ButtStatus) :
    Mirrors (s.modify k fun r => { r with butt := r.butt.switchStatus st })
      { c with hovered := Function.update c.hovered k (decide (st ≠ .leave)) } := by
  refine h.modify rfl (fun _ => rfl) rfl rfl (fun i hi => ⟨rfl, Function.update_of_ne hi _ _⟩) ?_
  intro r a a' ha ha' hlooks
  obtain rfl := Option.some.inj (ha.symm.trans ha')
  have hmouse := hlooks.mouse st
  rwa [← Function.update_self k (decide (st ≠ .leave)) c.hovered] at hmouse

/-- A widget takes the area of the chat. -/
theorem Mirrors.showWidExtend (h : Mirrors s c) (wid : ExtendWid) :
    Mirrors (s.showWidExtend wid) { c with widget := wid } :=
  ⟨h.length_eq, h.looks, h.map_eq, h.show_eq, h.chosen_lt, fun _ => decide_eq_true_iff⟩

/-- **A click chooses the friend.** -/
theorem Mirrors.click (h : Mirrors s c) {k : ℕ} {a : Int64 × Bool} (hk : c.friends[k]? = some a) :
    Mirrors (s.click k) { c with chosen := some (k, a.2), widget := .chat } := by
  have hlength : (s.click k).records.length = s.records.length := by
    simp only [FriendView.click, FriendView.showWidExtend, FriendView.updateShowFriend, FriendView.modify]
    split
    · split_ifs <;> simp
    · simp
  have hmap : (s.click k).mapFriends = s.mapFriends := by
    simp only [FriendView.click, FriendView.showWidExtend, FriendView.updateShowFriend, FriendView.modify]
    split
    · split_ifs <;> rfl
    · rfl
  refine ⟨hlength.trans h.length_eq, fun i r' b hr' hb => ?_, fun account => ?_, rfl, fun x hx => ?_,
    fun _ => decide_eq_true_iff⟩
  · rw [s.records_click, Option.map_eq_some_iff] at hr'
    obtain ⟨r, hr, rfl⟩ := hr'
    have hlooks := h.looks i r b hr hb
    by_cases hi : i = k
    · subst hi
      obtain rfl := Option.some.inj (hk.symm.trans hb)
      have hat : Listing.chosenAt { c with chosen := some (i, a.2), widget := .chat } i = some a.2 :=
        if_pos rfl
      rw [if_pos rfl, hat]
      exact hlooks.select
    · have hat : Listing.chosenAt { c with chosen := some (k, a.2), widget := .chat } i = none :=
        if_neg (Ne.symm hi)
      rw [if_neg hi, hat, h.show_eq]
      rcases hchosen : c.chosen with _ | x
      · rw [Listing.chosenAt, hchosen] at hlooks
        exact hlooks
      · rw [Option.map_some]
        by_cases hx : x.1 = i
        · rw [if_pos (congrArg some hx)]
          exact hlooks.deselect
        · rw [Listing.chosenAt, hchosen, Option.bind_some, if_neg hx] at hlooks
          rw [if_neg fun he => hx (Option.some.inj he)]
          exact hlooks
  · rw [hmap]
    exact h.map_eq account
  · obtain rfl := Option.some.inj hx
    exact (List.getElem?_eq_some_iff.1 hk).1

/-- The place of an account is that of its first button. -/
theorem Listing.place_addFriend (c : Listing) (friends : Int64) (online : Bool) (account : Int64) :
    Listing.place { c with friends := c.friends ++ [(friends, online)] } account =
      (c.place account).or (if friends = account then some c.friends.length else none) := by
  simp only [Listing.place, List.findIdx?_append]
  congr 1
  by_cases he : friends = account <;> simp [List.findIdx?_cons, he]

theorem Mirrors.addFriend (h : Mirrors s c) (friends : Int64) (online : Bool) (kepSt : ButtStatus) :
    Mirrors (s.addFriend friends online kepSt) { c with friends := c.friends ++ [(friends, online)] } := by
  refine ⟨?_, fun i r a hr ha => ?_, fun account => ?_, h.show_eq, fun x hx => ?_, h.extend_eq⟩
  · simp [FriendView.addFriend, h.length_eq]
  · simp only [FriendView.addFriend] at hr
    rcases Nat.lt_or_ge i s.records.length with hi | hi
    · rw [List.getElem?_append_left hi] at hr
      rw [List.getElem?_append_left (h.length_eq ▸ hi)] at ha
      exact h.looks i r a hr ha
    · rw [List.getElem?_append_right hi] at hr
      rw [List.getElem?_append_right (h.length_eq ▸ hi)] at ha
      -- the new record, which was not chosen
      have hnew : c.chosenAt i = none := by
        cases hchosen : c.chosen with
        | none => rw [Listing.chosenAt, hchosen]; rfl
        | some x =>
          have hlt := h.chosen_lt x hchosen
          rw [Listing.chosenAt, hchosen, Option.bind_some, if_neg]
          have := h.length_eq
          omega
      obtain ⟨-, hr⟩ := List.getElem?_singleton.symm.trans hr |> Option.ite_none_right_eq_some.1
      obtain ⟨-, ha⟩ := List.getElem?_singleton.symm.trans ha |> Option.ite_none_right_eq_some.1
      obtain rfl := Option.some.inj hr
      obtain rfl := Option.some.inj ha
      have hat : Listing.chosenAt { c with friends := c.friends ++ [(friends, online)] } i = none := hnew
      rw [hat]
      exact looks_new friends online kepSt _
  · rw [c.place_addFriend, ← h.map_eq account]
    simp only [FriendView.addFriend]
    cases hmap : s.mapFriends friends with
    | some j =>
      by_cases he : friends = account
      · subst he
        simp only [hmap, Option.some_or]
      · simp only [if_neg he, Option.or_none]
    | none =>
      by_cases he : friends = account
      · subst he
        simp only [hmap, Function.update_self, if_true, h.length_eq, Option.none_or]
      · simp only [Function.update_of_ne (Ne.symm he), if_neg he, Option.or_none]
  · rw [List.length_append]
    exact Nat.lt_add_right _ (h.chosen_lt x hx)

/-- The places do not depend on the connections. -/
theorem findIdx?_connect (l : List (Int64 × Bool)) (k : ℕ) (online : Bool) (account : Int64) :
    (l.modify k fun a => (a.1, online)).findIdx? (fun a => a.1 == account) =
      l.findIdx? fun a => a.1 == account := by
  induction l generalizing k with
  | nil => simp
  | cons a l ih =>
    cases k with
    | zero => simp [List.findIdx?_cons]
    | succ k => simp only [List.modify_succ_cons, List.findIdx?_cons, ih]

theorem Mirrors.updateConnect (h : Mirrors s c) (account : Int64) (online : Bool) :
    Mirrors (s.updateConnect account online) (c.step (.updateConnect account online)) := by
  simp only [FriendView.updateConnect, Listing.step, ← h.map_eq account]
  cases s.mapFriends account with
  | none => exact h
  | some k =>
    refine h.modify (by simp) (fun b => findIdx?_connect c.friends k online b) rfl rfl
      (fun i hi => ⟨List.getElem?_modify_ne _ _ (Ne.symm hi), rfl⟩) fun r a a' ha ha' hlooks => ?_
    rw [List.getElem?_modify_eq, ha] at ha'
    obtain rfl := Option.some.inj ha'
    exact hlooks.chConnectCol online

/-- **Every event leaves a view that looks like its listing.** -/
theorem Mirrors.step (h : Mirrors s c) (e : ViewEvent) : Mirrors (s.step e) (c.step e) := by
  cases e with
  | addFriend friends online kepSt => exact h.addFriend friends online kepSt
  | mouse k st => exact h.mouse k st
  | release k inside =>
    simp only [FriendView.step, Listing.step]
    cases hk : c.friends[k]? with
    | none =>
      have hlen : ¬ k < s.records.length := by
        rw [h.length_eq]
        exact Nat.not_lt.2 (List.getElem?_eq_none_iff.1 hk)
      rw [if_neg fun hin => hlen hin.2]
      exact h.mouse k .enter
    | some a =>
      have hlen : k < s.records.length := by
        rw [h.length_eq]
        exact (List.getElem?_eq_some_iff.1 hk).1
      cases inside with
      | false =>
        rw [if_neg fun hin => Bool.false_ne_true hin.1]
        exact h.mouse k .enter
      | true =>
        rw [if_pos ⟨rfl, hlen⟩]
        exact (h.click hk).mouse k .enter
  | updateConnect account online => exact h.updateConnect account online
  | addPersonFriends account =>
    simp only [FriendView.step, FriendView.addPersonFriends, Listing.step, ← h.map_eq account]
    cases s.mapFriends account with
    | none => exact h
    | some k => exact h.showWidExtend .person
  | showExtend => exact h.showWidExtend .setting

end

/-- **The view looks like the listing**, after any events: the button that is kept and the
    chat that is visible are those of the friend that was clicked last, no other button is
    lit unless the mouse is on it, the frames have the colours of the connections, and
    exactly the widget that was asked for last is visible. -/
theorem selection_mirrored (es : List ViewEvent) : Mirrors (FriendView.run es) (Listing.run es) := by
  induction es using List.reverseRecOn with
  | nil => exact mirrors_start
  | append_singleton es e ih =>
    simp only [FriendView.run, Listing.run, List.foldl_append]
    exact ih.step e

end SimpleChat
