/-
  wid_friend_list.cpp: the records of the friend list.

  * `FriendRegistry.step`: `add_friend`, a click on a button, and the messages of the
    network;
  * `Coherent`: the record that a button captured is the record of `_map_friends` for its
    account;
  * `OpensChat`: a click shows the history of the friend in a chat that it opens, and no
    null chat is dereferenced;
  * `sound_iff`: both hold for every button iff no account was added twice.

  The records are numbered in the order of their buttons: `add_friend` makes one of each,
  and the map keeps the first of an account.
-/
import SimpleChat.ChatWindow
import SimpleChat.FriendPanel

namespace SimpleChat

open Lib

/-- `wid_chat`: the icons of its input, and what its output shows. -/
structure WidChat where
  icons : Icons
  output : List WidMessage

/-- The null pointers that the list can dereference. -/
inductive NullPointer where
  /-- `it->chat` in `show_msg_history` -/
  | chat
  /-- `msg` in `make_msg` -/
  | msg
  deriving DecidableEq, Repr

/-- `wid_friend_list` and the history that its signals lead to. -/
structure FriendRegistry where
  /-- The status in the record of each button. -/
  status : List FriendsInit
  /-- The chat in the record of each button; `none` while it is null. -/
  chats : ℕ → Option WidChat
  mapFriends : Int64 → Option ℕ
  showFriend : Option ℕ
  histories : Histories

inductive RegistryEvent where
  | addFriend (ct : FriendsInit)
  /-- A button of the list is clicked. -/
  | click (k : ℕ)
  /-- The network thread inserts the row of a message. -/
  | stored (ct : SwapMsg)
  | addRecvMsg (ct : SwapMsg)

namespace FriendRegistry

/-! ## The code -/

/-- `add_friend` -/
def addFriend (s : FriendRegistry) (ct : FriendsInit) : FriendRegistry :=
  let ct := FriendPanel.withPathIcon ct
  { s with
    status := s.status ++ [ct]
    mapFriends := match s.mapFriends ct.friends with
      | some _ => s.mapFriends
      | none => Function.update s.mapFriends ct.friends (some s.status.length) }

/-- `show_msg_history` -/
def showMsgHistory (it : ℕ) (s : FriendRegistry) (ct : CtMsgType) : Except NullPointer FriendRegistry :=
  match s.chats it with
  | none => .error .chat
  | some chat =>
    match makeMsg chat.icons ct with
    | .ok msg => .ok { s with
        chats := Function.update s.chats it (some { chat with output := chat.output ++ [msg] }) }
    | .error _ => .error .msg

/-- `set_history_msg` -/
def setHistoryMsg (account : Int64) (vec : List CtMsgType) (s : FriendRegistry) :
    Except NullPointer FriendRegistry :=
  match s.mapFriends account with
  | some it => vec.foldlM (showMsgHistory it) s
  | none => .ok s

/-- The slot of `sn_history_read_ac` -/
def historyReadAc (account : Int64) (isNonRead : Bool) (s : FriendRegistry) :
    Except NullPointer FriendRegistry :=
  let r := if isNonRead then s.histories.readHistoryNonRead account else s.histories.readHistory account
  setHistoryMsg account r.1 { s with histories := r.2 }

section
/- `_icon` -/
variable (icon : Str)

/-- `make_chat` -/
def makeChat (k : ℕ) (ct : FriendsInit) (s : FriendRegistry) : Except NullPointer FriendRegistry :=
  match s.chats k with
  | some _ => .ok s
  | none => historyReadAc ct.friends false
      { s with chats := Function.update s.chats k (some ⟨⟨ct.icon, icon⟩, []⟩) }

/-- The slot of a button; without the button nothing is clicked. -/
def click (k : ℕ) (s : FriendRegistry) : Except NullPointer FriendRegistry :=
  match s.status[k]? with
  | some ct => makeChat icon k ct s >>= fun s => .ok { s with showFriend := some k }
  | none => .ok s

/-- `add_recv_msg` -/
def addRecvMsg (ct : SwapMsg) (s : FriendRegistry) : Except NullPointer FriendRegistry :=
  match s.mapFriends ct.source with
  | some it =>
    if (s.chats it).isSome ∧ s.showFriend = some it then historyReadAc ct.source true s else .ok s
  | none => .ok s

def step (s : FriendRegistry) : RegistryEvent → Except NullPointer FriendRegistry
  | .addFriend ct => .ok (s.addFriend ct)
  | .click k => click icon k s
  | .stored ct => .ok { s with
      histories := (s.histories.insertHistory ct.source (incomingRow ct.timeTo ct.types ct.content)).2 }
  | .addRecvMsg ct => addRecvMsg ct s

end

/-- The list before any friend was added, with the history of earlier sessions. -/
def start (histories : Histories) : FriendRegistry := ⟨[], fun _ => none, fun _ => none, none, histories⟩

/-! ## What the registry should be -/

/-- The accounts in the order of the buttons. -/
def accounts (s : FriendRegistry) : List Int64 := s.status.map FriendsInit.friends

/-- Every button captured the record that the map holds for its account. -/
def Coherent (s : FriendRegistry) : Prop :=
  ∀ k account, s.accounts[k]? = some account → s.mapFriends account = some k

/-- A click on the button does not dereference a null chat, and a chat that it opens shows
    the history of the account. -/
def OpensChat (icon : Str) (s : FriendRegistry) (k : ℕ) : Prop :=
  click icon k s ≠ .error .chat ∧
    ∀ s' account, click icon k s = .ok s' → s.accounts[k]? = some account → s.chats k = none →
      ∃ chat, s'.chats k = some chat ∧ s'.showFriend = some k ∧
        List.Forall₂ (fun ct msg => makeMsg chat.icons ct = .ok msg)
          (s.histories.table account).messages chat.output

/-- The registry is coherent, clicks show histories, and no message finds a null chat. -/
structure Sound (icon : Str) (s : FriendRegistry) : Prop where
  coherent : Coherent s
  opens : ∀ k, OpensChat icon s k
  recv : ∀ ct, addRecvMsg ct s ≠ .error .chat

/-- The accounts that a run adds. -/
def added : List RegistryEvent → List Int64 :=
  List.filterMap fun
    | .addFriend ct => some ct.friends
    | _ => none

section
variable {icon : Str} {s s' : FriendRegistry} {k it : ℕ} {account : Int64} {chat : WidChat} {vec : List CtMsgType}

/-! ## Reading into a chat -/

/-- **A read into a chat** shows every message, or finds one without a widget. -/
theorem foldlM_showMsgHistory (vec : List CtMsgType) (hc : s.chats it = some chat) :
    vec.foldlM (showMsgHistory it) s = .error .msg ∨
      ∃ msgs, List.Forall₂ (fun ct msg => makeMsg chat.icons ct = .ok msg) vec msgs ∧
        vec.foldlM (showMsgHistory it) s = .ok { s with
          chats := Function.update s.chats it (some { chat with output := chat.output ++ msgs }) } := by
  induction vec generalizing s chat with
  | nil =>
    refine Or.inr ⟨[], .nil, ?_⟩
    rw [List.append_nil, ← hc, Function.update_eq_self]
    rfl
  | cons ct vec ih =>
    rw [List.foldlM_cons]
    cases hmsg : makeMsg chat.icons ct with
    | error e =>
      have hstep : showMsgHistory it s ct = .error .msg := by simp only [showMsgHistory, hc, hmsg]
      exact Or.inl (by rw [hstep]; rfl)
    | ok msg =>
      have hstep : showMsgHistory it s ct = .ok { s with
          chats := Function.update s.chats it (some { chat with output := chat.output ++ [msg] }) } := by
        simp only [showMsgHistory, hc, hmsg]
      rw [hstep]
      show vec.foldlM (showMsgHistory it) _ = _ ∨ ∃ msgs, _ ∧ vec.foldlM (showMsgHistory it) _ = _
      have hnext := ih (s := ⟨s.status, Function.update s.chats it (some ⟨chat.icons, chat.output ++ [msg]⟩),
        s.mapFriends, s.showFriend, s.histories⟩) (Function.update_self ..)
      rcases hnext with h | ⟨msgs, hmsgs, h⟩
      · exact Or.inl h
      · refine Or.inr ⟨msg :: msgs, .cons hmsg hmsgs, ?_⟩
        rw [h]
        simp

/-- A read through the map finds the chat. -/
theorem historyReadAc_of_chat (isNonRead : Bool) (hmap : s.mapFriends account = some it)
    (hc : s.chats it = some chat) :
    historyReadAc account isNonRead s = .error .msg ∨
      ∃ msgs histories, List.Forall₂ (fun ct msg => makeMsg chat.icons ct = .ok msg)
        (if isNonRead then (s.histories.table account).unread.map HistoryRow.ct
          else (s.histories.table account).messages) msgs ∧
        historyReadAc account isNonRead s = .ok { s with
          histories := histories
          chats := Function.update s.chats it (some { chat with output := chat.output ++ msgs }) } := by
  obtain ⟨hvec, -⟩ := Histories.read_spec (h := s.histories) (f := account) isNonRead rfl
  simp only [historyReadAc, setHistoryMsg, hmap]
  rw [← hvec]
  generalize (if isNonRead then s.histories.readHistoryNonRead account else s.histories.readHistory account) = r
  rcases foldlM_showMsgHistory (s := { s with histories := r.2 }) r.1 hc with h | ⟨msgs, hmsgs, h⟩
  · exact Or.inl h
  · exact Or.inr ⟨msgs, _, hmsgs, h⟩

/-! ## What stays -/

/-- Reading keeps the buttons and the map. -/
theorem showMsgHistory_frame {ct : CtMsgType} (h : showMsgHistory it s ct = .ok s') :
    s'.status = s.status ∧ s'.mapFriends = s.mapFriends := by
  unfold showMsgHistory at h
  cases hc : s.chats it with
  | none => simp [hc] at h
  | some chat =>
    simp only [hc] at h
    cases hmsg : makeMsg chat.icons ct with
    | error e => simp [hmsg] at h
    | ok msg =>
      simp only [hmsg] at h
      obtain rfl := Except.ok.inj h
      exact ⟨rfl, rfl⟩

theorem foldlM_frame (h : vec.foldlM (showMsgHistory it) s = .ok s') :
    s'.status = s.status ∧ s'.mapFriends = s.mapFriends := by
  induction vec generalizing s with
  | nil =>
    obtain rfl := Except.ok.inj h
    exact ⟨rfl, rfl⟩
  | cons ct vec ih =>
    rw [List.foldlM_cons] at h
    obtain ⟨s₁, h₁, h⟩ := bind_eq_ok.1 h
    obtain ⟨hstatus, hmap⟩ := showMsgHistory_frame h₁
    obtain ⟨hstatus', hmap'⟩ := ih h
    exact ⟨hstatus'.trans hstatus, hmap'.trans hmap⟩

theorem historyReadAc_frame {isNonRead : Bool} (h : historyReadAc account isNonRead s = .ok s') :
    s'.status = s.status ∧ s'.mapFriends = s.mapFriends := by
  unfold historyReadAc setHistoryMsg at h
  cases hmap : s.mapFriends account with
  | none =>
    simp only [hmap] at h
    obtain rfl := Except.ok.inj h
    exact ⟨rfl, rfl⟩
  | some it =>
    simp only [hmap] at h
    obtain ⟨hstatus, hmap'⟩ := foldlM_frame h
    exact ⟨hstatus, hmap'⟩

theorem click_frame (h : click icon k s = .ok s') :
    s'.status = s.status ∧ s'.mapFriends = s.mapFriends := by
  unfold click at h
  cases hk : s.status[k]? with
  | none =>
    simp only [hk] at h
    obtain rfl := Except.ok.inj h
    exact ⟨rfl, rfl⟩
  | some ct =>
    simp only [hk] at h
    obtain ⟨s₁, h₁, h⟩ := bind_eq_ok.1 h
    obtain rfl := Except.ok.inj h
    unfold makeChat at h₁
    cases hc : s.chats k with
    | some chat =>
      simp only [hc] at h₁
      obtain rfl := Except.ok.inj h₁
      exact ⟨rfl, rfl⟩
    | none =>
      simp only [hc] at h₁
      obtain ⟨hstatus, hmap⟩ := historyReadAc_frame h₁
      exact ⟨hstatus, hmap⟩

theorem addRecvMsg_frame {ct : SwapMsg} (h : addRecvMsg ct s = .ok s') :
    s'.status = s.status ∧ s'.mapFriends = s.mapFriends := by
  unfold addRecvMsg at h
  cases hmap : s.mapFriends ct.source with
  | none =>
    simp only [hmap] at h
    obtain rfl := Except.ok.inj h
    exact ⟨rfl, rfl⟩
  | some it =>
    simp only [hmap] at h
    split_ifs at h
    · exact historyReadAc_frame h
    · obtain rfl := Except.ok.inj h
      exact ⟨rfl, rfl⟩

/-! ## The buttons of an account -/

/-- The map holds the first button of every account. -/
def KeepsFirst (s : FriendRegistry) : Prop := ∀ account, s.mapFriends account = s.accounts.idxOf? account

theorem KeepsFirst.of_frame (h : s'.status = s.status ∧ s'.mapFriends = s.mapFriends) (hs : KeepsFirst s) :
    KeepsFirst s' ∧ s'.accounts = s.accounts := by
  have haccounts : s'.accounts = s.accounts := congrArg (List.map FriendsInit.friends) h.1
  refine ⟨fun account => ?_, haccounts⟩
  rw [h.2, haccounts]
  exact hs account

/-- A button more: only a new account gets an entry. -/
theorem KeepsFirst.addFriend (h : KeepsFirst s) (ct : FriendsInit) :
    KeepsFirst (s.addFriend ct) ∧ (s.addFriend ct).accounts = s.accounts ++ [ct.friends] := by
  have haccounts : (s.addFriend ct).accounts = s.accounts ++ [ct.friends] := List.map_append
  refine ⟨fun account => ?_, haccounts⟩
  have hlength : s.accounts.length = s.status.length := List.length_map _
  rw [haccounts, List.idxOf?, List.findIdx?_append, ← List.idxOf?, ← h account, hlength]
  show (match s.mapFriends ct.friends with
    | some _ => s.mapFriends
    | none => Function.update s.mapFriends ct.friends (some s.status.length)) account = _
  rcases eq_or_ne account ct.friends with rfl | hne
  · cases hmap : s.mapFriends ct.friends with
    | some k => simp [hmap]
    | none => simp
  · have hnone : [ct.friends].idxOf? account = none := by simp [hne.symm]
    rw [hnone, Option.map_none, Option.or_none]
    cases s.mapFriends ct.friends with
    | some k => rfl
    | none => exact Function.update_of_ne hne ..

/-- **Coherence** is that no account has two buttons. -/
theorem coherent_iff (h : KeepsFirst s) : Coherent s ↔ s.accounts.Nodup := by
  constructor
  · intro hc
    rw [List.nodup_iff_getElem?_ne_getElem?]
    intro i j hij hj heq
    have hi := hc j _ (List.getElem?_eq_getElem hj)
    rw [hc i _ (heq.trans (List.getElem?_eq_getElem hj))] at hi
    exact absurd (Option.some.inj hi) (Nat.ne_of_lt hij)
  · intro hn k account hk
    obtain ⟨hlt, rfl⟩ := List.getElem?_eq_some_iff.1 hk
    rw [h, List.idxOf?_eq_some_iff]
    refine ⟨hlt, rfl, fun j hj heq => ?_⟩
    exact absurd (hn.getElem_inj_iff.1 heq) (Nat.ne_of_lt hj)

/-- A click on a button whose record the map holds. -/
theorem opensChat_of_coherent (hc : Coherent s) (k : ℕ) : OpensChat icon s k := by
  unfold OpensChat click
  cases hk : s.status[k]? with
  | none =>
    have hnone : s.accounts[k]? = none := by simp [accounts, hk]
    rw [hnone]
    refine ⟨ok_ne_error, fun s' account _ h => ?_⟩
    exact absurd h.symm (Option.some_ne_none account)
  | some ct =>
    have hsome : s.accounts[k]? = some ct.friends := by simp [accounts, hk]
    rw [hsome]
    dsimp only [makeChat]
    cases hchat : s.chats k with
    | some chat =>
      refine ⟨ok_ne_error, fun s' account _ _ h => ?_⟩
      exact absurd h (Option.some_ne_none chat)
    | none =>
      have hread := historyReadAc_of_chat (s := { s with
        chats := Function.update s.chats k (some ⟨⟨ct.icon, icon⟩, []⟩) })
        false (hc k ct.friends hsome) (Function.update_self ..)
      rcases hread with h | ⟨msgs, histories, hmsgs, h⟩
      · dsimp only
        rw [h]
        refine ⟨fun h => ?_, fun s' account h => absurd h.symm ok_ne_error⟩
        exact absurd (Except.error.inj h) (by decide)
      · dsimp only
        rw [h]
        refine ⟨ok_ne_error, fun s' account h' haccount _ => ?_⟩
        obtain rfl := Except.ok.inj h'
        obtain rfl := Option.some.inj haccount
        exact ⟨_, Function.update_self .., rfl, hmsgs⟩

/-- A message of the network is only read into a chat that is shown. -/
theorem addRecvMsg_ne_null (s : FriendRegistry) (ct : SwapMsg) : addRecvMsg ct s ≠ .error .chat := by
  unfold addRecvMsg
  cases hmap : s.mapFriends ct.source with
  | none => exact ok_ne_error
  | some it =>
    dsimp only
    split_ifs with hshown
    · obtain ⟨chat, hchat⟩ := Option.isSome_iff_exists.1 hshown.1
      rcases historyReadAc_of_chat true hmap hchat with h | ⟨msgs, histories, -, h⟩
      · rw [h]
        exact fun h => absurd (Except.error.inj h) (by decide)
      · rw [h]
        exact ok_ne_error
    · exact ok_ne_error

/-! ## Runs -/

theorem added_append (evs : List RegistryEvent) (ev : RegistryEvent) :
    added (evs ++ [ev]) = added evs ++ added [ev] := List.filterMap_append

/-- **One event** keeps the first button of every account in the map. -/
theorem keepsFirst_step {ev : RegistryEvent} (hs : KeepsFirst s) (h : step icon s ev = .ok s') :
    KeepsFirst s' ∧ s'.accounts = s.accounts ++ added [ev] := by
  cases ev with
  | addFriend ct =>
    obtain rfl := Except.ok.inj h
    exact hs.addFriend ct
  | click k =>
    rw [show added [.click k] = [] from rfl, List.append_nil]
    exact KeepsFirst.of_frame (click_frame h) hs
  | stored ct =>
    obtain rfl := Except.ok.inj h
    rw [show added [.stored ct] = [] from rfl, List.append_nil]
    exact KeepsFirst.of_frame ⟨rfl, rfl⟩ hs
  | addRecvMsg ct =>
    rw [show added [.addRecvMsg ct] = [] from rfl, List.append_nil]
    exact KeepsFirst.of_frame (addRecvMsg_frame h) hs

theorem keepsFirst_of_run {histories : Histories} {evs : List RegistryEvent}
    (h : Run (fun s ev s' => step icon s ev = .ok s') (start histories) evs s) :
    KeepsFirst s ∧ s.accounts = added evs := by
  induction h with
  | start => exact ⟨fun _ => rfl, rfl⟩
  | next _ hstep ih =>
    obtain ⟨hkeeps, haccounts⟩ := keepsFirst_step ih.1 hstep
    exact ⟨hkeeps, by rw [haccounts, ih.2, added_append]⟩

/-- **The friend registry.**  In every state that is reached, the registry is coherent and
    clicks show histories iff no account was added twice. -/
theorem sound_iff (icon : Str) (histories : Histories) (evs : List RegistryEvent)
    (h : Run (fun s ev s' => step icon s ev = .ok s') (start histories) evs s) :
    Sound icon s ↔ (added evs).Nodup := by
  obtain ⟨hkeeps, haccounts⟩ := keepsFirst_of_run h
  rw [← haccounts, ← coherent_iff hkeeps]
  constructor
  · intro hsound
    exact hsound.coherent
  · intro hc
    exact ⟨hc, opensChat_of_coherent hc, addRecvMsg_ne_null s⟩

end

/-! ## A friend who is added twice -/

/-- A table with one message. -/
def oneMessage : HistoryTable where
  rows := [incomingRow 7 typesText [104]]
  keyed := List.pairwise_singleton _ _
  checked r hr := by
    rw [List.mem_singleton.1 hr]
    exact incomingRow_checked ..

def addTwice : List RegistryEvent :=
  [.addFriend (FriendPanel.friendOf 1 []), .addFriend (FriendPanel.friendOf 1 [])]

/-- The list with both buttons. -/
def twoButtons : FriendRegistry :=
  ((start fun _ => some oneMessage).addFriend (FriendPanel.friendOf 1 [])).addFriend (FriendPanel.friendOf 1 [])

/-- The list with two friends. -/
def twoFriends : FriendRegistry :=
  ((start fun _ => some oneMessage).addFriend (FriendPanel.friendOf 1 [])).addFriend (FriendPanel.friendOf 2 [])

/-- The history of the first one is shown behind a click, and the second one can be clicked. -/
theorem sound_two : ∃ s, click [] 0 twoFriends = .ok s ∧ Sound [] s ∧
    ((s.chats 0).map fun chat => chat.output.map WidMessage.content) = some [[104]] ∧
      (click [] 1 s).toOption.bind FriendRegistry.showFriend = some 1 := by
  obtain ⟨s, hclick, hshown, hnext⟩ : ∃ s, click [] 0 twoFriends = .ok s ∧
      ((s.chats 0).map fun chat => chat.output.map WidMessage.content) = some [[104]] ∧
      (click [] 1 s).toOption.bind FriendRegistry.showFriend = some 1 := ⟨_, rfl, rfl, rfl⟩
  have hadded : Run (fun s ev s' => step [] s ev = .ok s') (start fun _ => some oneMessage)
      [.addFriend (FriendPanel.friendOf 1 []), .addFriend (FriendPanel.friendOf 2 [])] twoFriends :=
    .next (.next .start rfl) rfl
  have hrun : Run (fun s ev s' => step [] s ev = .ok s') (start fun _ => some oneMessage)
      [.addFriend (FriendPanel.friendOf 1 []), .addFriend (FriendPanel.friendOf 2 []), .click 0] s :=
    .next hadded hclick
  exact ⟨s, hclick, (sound_iff [] (fun _ => some oneMessage) _ hrun).2 (by decide), hshown, hnext⟩

/-- The second button opens a chat that the history does not reach. -/
theorem not_sound_twice : Run (fun s ev s' => step [] s ev = .ok s') (start fun _ => some oneMessage)
      addTwice twoButtons ∧ click [] 1 twoButtons = .error .chat ∧ ¬ Sound [] twoButtons := by
  have hclick : click [] 1 twoButtons = .error .chat := rfl
  refine ⟨.next (.next .start rfl) rfl, hclick, fun h => ?_⟩
  exact (h.opens 1).1 hclick

end FriendRegistry

end SimpleChat
