/-
  wid_friend_list.cpp: the records of the list, and the chats of the accounts.

  A button captures its record, a message finds its record through the map.  While no
  account has two records, it does not matter which way is taken:

  * `RecordList`: the records with the queued signals; `RecordList.step`: the events of a
    session, on them;
  * `Stands`: the records stand for the chats of the accounts;
  * `list_refined`: whatever happens, the records end like the list that is keyed by the
    account: both with the same chats, tables and chat shown, or both at a null pointer.
-/
import SimpleChat.FriendList
import SimpleChat.FriendRegistry

namespace SimpleChat

open Lib

/-! ## Calls that end at a null pointer -/

/-- Two calls end alike: with values that are related, or both with a fault. -/
inductive EndsAlike {α β : Type} (R : α → β → Prop) : Except NullPointer α → Outcome β → Prop
  | ok {a : α} {b : β} : R a b → EndsAlike R (.ok a) (.ok b)
  | error (e : NullPointer) (f : Fault) : EndsAlike R (.error e) (.error f)

theorem EndsAlike.bind {α β α' β' : Type} {R : α → β → Prop} {R' : α' → β' → Prop}
    {x : Except NullPointer α} {y : Outcome β} {f : α → Except NullPointer α'} {g : β → Outcome β'}
    (h : EndsAlike R x y) (hf : ∀ a b, R a b → EndsAlike R' (f a) (g b)) :
    EndsAlike R' (x >>= f) (y >>= g) := by
  cases h with
  | ok hab => exact hf _ _ hab
  | error e f => exact .error e f

theorem EndsAlike.exists_ok {α β : Type} {R : α → β → Prop} {x : Except NullPointer α} {b : β}
    (h : EndsAlike R x (.ok b)) : ∃ a, x = .ok a ∧ R a b := by
  cases h with
  | ok hab => exact ⟨_, rfl, hab⟩

/-- Folds of calls that keep what is related. -/
theorem EndsAlike.foldlM {α β ε : Type} {R : α → β → Prop} {f : α → ε → Except NullPointer α}
    {g : β → ε → Outcome β} (hf : ∀ a b e, R a b → EndsAlike R (f a e) (g b e)) (es : List ε) {a : α} {b : β}
    (h : R a b) : EndsAlike R (es.foldlM f a) (es.foldlM g b) := by
  induction es generalizing a b with
  | nil => exact .ok h
  | cons e es ih =>
    rw [List.foldlM_cons, List.foldlM_cons]
    exact (hf a b e h).bind fun _ _ => ih

/-! ## The code, on records -/

/-- `wid_friend_list`, and the `sn_recv_msg` of the network thread that are queued. -/
structure RecordList extends FriendRegistry where
  signals : List SwapMsg

namespace RecordList

section
variable (isImg : Str → Bool) (icon : Str)

/-- A slot that changes the records. -/
def onRecords (f : FriendRegistry → Except NullPointer FriendRegistry) (s : RecordList) :
    Except NullPointer RecordList :=
  f s.toFriendRegistry >>= fun r => .ok { s with toFriendRegistry := r }

/-- The two slots of the input's `sn_send_msg` in the chat of a record: the message is
    shown, and stored for the friend of the record, unless the insertion fails. -/
def sendMsg (k : ℕ) (friends : Int64) (s : FriendRegistry) (msg : CtMsgType) :
    Except NullPointer FriendRegistry :=
  FriendRegistry.showMsgHistory k s msg >>= fun s =>
    .ok { s with histories := (s.histories.insertHistory friends
      (outgoingRow msg.time msg.types msg.content)).2 }

/-- The messages that the input of the shown chat emits. -/
def emit (msgs : List CtMsgType) (s : FriendRegistry) : Except NullPointer FriendRegistry :=
  match s.showFriend with
  | none => .ok s
  | some k =>
    match s.status[k]? with
    | none => .ok s
    | some ct => msgs.foldlM (sendMsg k ct.friends) s

def step (s : RecordList) : ListEvent → Except NullPointer RecordList
  | .click acFriend =>
    match s.accounts.idxOf? acFriend with
    | some k => s.onRecords (FriendRegistry.click icon k)
    | none => .ok s
  | .recv ct => .ok { s with
      histories := (s.histories.insertHistory ct.source (incomingRow ct.timeTo ct.types ct.content)).2
      signals := s.signals ++ [ct] }
  | .deliver =>
    match s.signals with
    | [] => .ok s
    | ct :: rest => { s with signals := rest }.onRecords (FriendRegistry.addRecvMsg ct)
  | .typed now txt => s.onRecords (emit (sendText now txt))
  | .dropped ls => s.onRecords (emit (sendDrop isImg ls))

end

/-- The list after the friends were added, with the history of earlier sessions. -/
def opened (histories : Histories) (cts : List FriendsInit) : RecordList :=
  ⟨cts.foldl FriendRegistry.addFriend (.start histories), []⟩

end RecordList

/-! ## What the records stand for -/

/-- The records of the accounts and the queued signals stand for the chats of the
    accounts; `icons` are those that a chat of the account gets. -/
structure StandsFor (icon : Str) (icons : Int64 → Icons) (accounts : List Int64) (signals : List SwapMsg)
    (s : FriendRegistry) (l : FriendList Histories) : Prop where
  accounts_eq : s.accounts = accounts
  mapFriends : ∀ account k, s.mapFriends account = some k ↔ accounts[k]? = some account
  friends : ∀ account, account ∈ l.friends ↔ account ∈ accounts
  icons_eq : ∀ (k : ℕ) (ct : FriendsInit), s.status[k]? = some ct → icons ct.friends = ⟨ct.icon, icon⟩
  histories : l.histories = s.histories
  signals_eq : l.signals = signals
  chats : ∀ (k : ℕ) account, accounts[k]? = some account →
    l.chats account = (s.chats k).map WidChat.output
  chat_icons : ∀ (k : ℕ) account chat, accounts[k]? = some account → s.chats k = some chat →
    chat.icons = icons account
  shown : l.showFriend = s.showFriend.bind fun k => accounts[k]?
  valid : ∀ k, s.showFriend = some k → k < accounts.length

/-- The list of records stands for the list of accounts. -/
def Stands (icon : Str) (icons : Int64 → Icons) (accounts : List Int64) (s : RecordList) (l : FriendList Histories) : Prop :=
  StandsFor icon icons accounts s.signals s.toFriendRegistry l

section
variable {icon : Str} {icons : Int64 → Icons} {accounts : List Int64} {signals : List SwapMsg}
  {s : FriendRegistry} {l : FriendList Histories} {k : ℕ} {account : Int64}

namespace StandsFor

theorem mapFriends_eq_none (h : StandsFor icon icons accounts signals s l) :
    s.mapFriends account = none ↔ account ∉ l.friends := by
  rw [h.friends, Option.eq_none_iff_forall_ne_some, List.mem_iff_getElem?, not_exists]
  exact forall_congr' fun k => not_congr (h.mapFriends account k)

theorem index_inj (h : StandsFor icon icons accounts signals s l) {j : ℕ}
    (hj : accounts[j]? = some account) (hk : accounts[k]? = some account) : j = k :=
  Option.some.inj (((h.mapFriends account j).2 hj).symm.trans ((h.mapFriends account k).2 hk))

/-- The status of a friend. -/
theorem exists_status (h : StandsFor icon icons accounts signals s l) (hk : accounts[k]? = some account) :
    ∃ ct, s.status[k]? = some ct ∧ ct.friends = account := by
  rw [← h.accounts_eq, FriendRegistry.accounts, List.getElem?_map] at hk
  exact Option.map_eq_some_iff.1 hk

/-- Both change the tables alike. -/
theorem withHistories (h : StandsFor icon icons accounts signals s l) (histories : Histories) :
    StandsFor icon icons accounts signals { s with histories } { l with histories } :=
  ⟨h.accounts_eq, h.mapFriends, h.friends, h.icons_eq, rfl, h.signals_eq, h.chats, h.chat_icons, h.shown,
    h.valid⟩

/-- Both write to the chat of a friend. -/
theorem withChat (h : StandsFor icon icons accounts signals s l) (hk : accounts[k]? = some account)
    (output : List WidMessage) :
    StandsFor icon icons accounts signals
      { s with chats := Function.update s.chats k (some ⟨icons account, output⟩) }
      { l with chats := Function.update l.chats account (some output) } := by
  refine ⟨h.accounts_eq, h.mapFriends, h.friends, h.icons_eq, h.histories, h.signals_eq,
    fun j b hj => ?_, fun j b chat hj hchat => ?_, h.shown, h.valid⟩
  · by_cases he : j = k
    · subst he
      obtain rfl := Option.some.inj (hk.symm.trans hj)
      simp only [Function.update_self, Option.map_some]
    · have hb : b ≠ account := by
        rintro rfl
        exact he (h.index_inj hj hk)
      simp only [Function.update_of_ne he, Function.update_of_ne hb]
      exact h.chats j b hj
  · by_cases he : j = k
    · subst he
      obtain rfl := Option.some.inj (hk.symm.trans hj)
      simp only [Function.update_self] at hchat
      rw [← Option.some.inj hchat]
    · simp only [Function.update_of_ne he] at hchat
      exact h.chat_icons j b chat hj hchat

/-- Both show the chat of a friend. -/
theorem withShown (h : StandsFor icon icons accounts signals s l) (hk : accounts[k]? = some account) :
    StandsFor icon icons accounts signals { s with showFriend := some k }
      { l with showFriend := some account } := by
  refine ⟨h.accounts_eq, h.mapFriends, h.friends, h.icons_eq, h.histories, h.signals_eq, h.chats,
    h.chat_icons, hk.symm, ?_⟩
  rintro _ ⟨⟩
  exact (List.getElem?_eq_some_iff.1 hk).1

/-- The chat that is shown is that of the record. -/
theorem showFriend_iff (h : StandsFor icon icons accounts signals s l) (hk : accounts[k]? = some account) :
    l.showFriend = some account ↔ s.showFriend = some k := by
  rw [h.shown]
  constructor
  · intro hshown
    obtain ⟨j, hj, hat⟩ := Option.bind_eq_some_iff.1 hshown
    rw [hj, h.index_inj hat hk]
  · intro hshown
    rw [hshown]
    exact hk

/-! ## The calls -/

/-- `show_msg_history` -/
theorem showMsgHistory (h : StandsFor icon icons accounts signals s l) (hk : accounts[k]? = some account)
    (ct : CtMsgType) : EndsAlike (StandsFor icon icons accounts signals)
      (FriendRegistry.showMsgHistory k s ct) (FriendList.showMsgHistory icons account l ct) := by
  have hchat := h.chats k account hk
  unfold FriendRegistry.showMsgHistory FriendList.showMsgHistory
  cases hc : s.chats k with
  | none =>
    rw [hc, Option.map_none] at hchat
    simp only [hchat]
    exact .error _ _
  | some chat =>
    rw [hc, Option.map_some] at hchat
    have hicons := h.chat_icons k account chat hk hc
    simp only [hchat, ← hicons]
    cases hmsg : makeMsg chat.icons ct with
    | error f => exact .error _ _
    | ok msg =>
      have hwith := h.withChat hk (chat.output ++ [msg])
      rw [← hicons] at hwith
      exact .ok hwith

/-- The slot of `sn_history_read_ac`, for a friend or for somebody else. -/
theorem historyReadAc (h : StandsFor icon icons accounts signals s l) (account : Int64) (isNonRead : Bool) :
    EndsAlike (StandsFor icon icons accounts signals) (FriendRegistry.historyReadAc account isNonRead s)
      (FriendList.historyReadAc rowReading icons account isNonRead l) := by
  rw [FriendList.historyReadAc_rows, h.histories]
  unfold FriendRegistry.historyReadAc
  generalize (if isNonRead then s.histories.readHistoryNonRead account
    else s.histories.readHistory account) = r
  have hread := h.withHistories r.2
  unfold FriendRegistry.setHistoryMsg FriendList.setHistoryMsg
  cases hmap : s.mapFriends account with
  | none =>
    simp only [hmap, if_neg (h.mapFriends_eq_none.1 hmap)]
    exact .ok hread
  | some k =>
    have hfriend : account ∈ l.friends := by
      by_contra hnot
      rw [h.mapFriends_eq_none.2 hnot] at hmap
      cases hmap
    simp only [hmap, if_pos hfriend]
    exact EndsAlike.foldlM (fun _ _ ct h => h.showMsgHistory ((hread.mapFriends account k).1 hmap) ct) r.1 hread

/-- A click on the button of a friend. -/
theorem click (h : StandsFor icon icons accounts signals s l) (hk : accounts[k]? = some account) :
    EndsAlike (StandsFor icon icons accounts signals) (FriendRegistry.click icon k s)
      (FriendList.click rowReading icons account l) := by
  have hfriend : account ∈ l.friends := (h.friends account).2 (List.mem_of_getElem? hk)
  obtain ⟨ct, hct, rfl⟩ := h.exists_status hk
  have hchat := h.chats k ct.friends hk
  have hmake : EndsAlike (StandsFor icon icons accounts signals) (FriendRegistry.makeChat icon k ct s)
      (FriendList.makeChat rowReading icons ct.friends l) := by
    unfold FriendRegistry.makeChat FriendList.makeChat
    cases hc : s.chats k with
    | some chat =>
      rw [hc, Option.map_some] at hchat
      simp only [hchat]
      exact .ok h
    | none =>
      rw [hc, Option.map_none] at hchat
      have hnew := h.withChat hk []
      rw [h.icons_eq k ct hct] at hnew
      simp only [hchat]
      exact hnew.historyReadAc ct.friends false
  unfold FriendRegistry.click FriendList.click
  simp only [hct, if_pos hfriend]
  exact hmake.bind fun s' l' h' => .ok (h'.withShown hk)

/-- `add_recv_msg` -/
theorem addRecvMsg (h : StandsFor icon icons accounts signals s l) (ct : SwapMsg) :
    EndsAlike (StandsFor icon icons accounts signals) (FriendRegistry.addRecvMsg ct s)
      (FriendList.addRecvMsg rowReading icons ct l) := by
  unfold FriendRegistry.addRecvMsg FriendList.addRecvMsg
  cases hmap : s.mapFriends ct.source with
  | none =>
    rw [if_neg fun hcond => h.mapFriends_eq_none.1 hmap hcond.1]
    exact .ok h
  | some k =>
    have hk := (h.mapFriends ct.source k).1 hmap
    have hfriend : ct.source ∈ l.friends := (h.friends ct.source).2 (List.mem_of_getElem? hk)
    have hcond : (s.chats k).isSome ∧ s.showFriend = some k ↔
        ct.source ∈ l.friends ∧ (l.chats ct.source).isSome ∧ l.showFriend = some ct.source := by
      rw [h.chats k ct.source hk, Option.isSome_map, h.showFriend_iff hk]
      exact ⟨fun hc => ⟨hfriend, hc⟩, fun hc => hc.2⟩
    by_cases hc : (s.chats k).isSome ∧ s.showFriend = some k
    · simp only [if_pos hc, if_pos (hcond.1 hc)]
      exact h.historyReadAc ct.source true
    · simp only [if_neg hc, if_neg fun hl => hc (hcond.2 hl)]
      exact .ok h

/-- The slots of `sn_send_msg` -/
theorem sendMsg (h : StandsFor icon icons accounts signals s l) (hk : accounts[k]? = some account)
    (msg : CtMsgType) : EndsAlike (StandsFor icon icons accounts signals)
      (RecordList.sendMsg k account s msg) (FriendList.sendMsg rowHistory icons account l msg) := by
  refine (h.showMsgHistory hk msg).bind fun s' l' h' => ?_
  rw [h'.histories]
  exact .ok (h'.withHistories _)

/-- What the input of the shown chat emits. -/
theorem emit (h : StandsFor icon icons accounts signals s l) (msgs : List CtMsgType) :
    EndsAlike (StandsFor icon icons accounts signals) (RecordList.emit msgs s)
      (FriendList.emit rowHistory icons msgs l) := by
  unfold RecordList.emit FriendList.emit
  rw [h.shown]
  cases hshow : s.showFriend with
  | none => exact .ok h
  | some k =>
    obtain ⟨account, hk⟩ : ∃ account, accounts[k]? = some account :=
      ⟨_, List.getElem?_eq_getElem (h.valid k hshow)⟩
    obtain ⟨ct, hct, rfl⟩ := h.exists_status hk
    simp only [hct, Option.bind_some, hk]
    exact EndsAlike.foldlM (fun _ _ msg h => h.sendMsg hk msg) msgs h

end StandsFor

/-! ## Sessions -/

/-- **One event.** -/
theorem stands_step {isImg : Str → Bool} {s : RecordList} (h : Stands icon icons accounts s l) (e : ListEvent) :
    EndsAlike (Stands icon icons accounts) (s.step isImg icon e) (FriendList.step rowHistory rowReading isImg icons l e) := by
  -- a slot leaves the signals that are queued
  have hslot : ∀ {signals : List SwapMsg} {x : Except NullPointer FriendRegistry} {y : Outcome (FriendList Histories)},
      EndsAlike (StandsFor icon icons accounts signals) x y →
        EndsAlike (Stands icon icons accounts) (x >>= fun r => .ok ⟨r, signals⟩) y := by
    intro signals x y hxy
    cases hxy with
    | ok hr => exact .ok hr
    | error e f => exact .error e f
  cases e with
  | click acFriend =>
    simp only [RecordList.step]
    cases hk : s.accounts.idxOf? acFriend with
    | some k =>
      rw [h.accounts_eq, List.idxOf?_eq_some_iff] at hk
      obtain ⟨hlt, hat, -⟩ := hk
      exact hslot (h.click ((List.getElem?_eq_getElem hlt).trans (congrArg some hat)))
    | none =>
      rw [h.accounts_eq, List.idxOf?_eq_none_iff] at hk
      rw [FriendList.step, FriendList.click, if_neg fun hf => hk ((h.friends acFriend).1 hf)]
      exact .ok h
  | recv ct =>
    have hstored := h.withHistories (s.histories.insertHistory ct.source
      (incomingRow ct.timeTo ct.types ct.content)).2
    simp only [RecordList.step, FriendList.step, h.histories, h.signals_eq]
    exact .ok ⟨hstored.accounts_eq, hstored.mapFriends, hstored.friends, hstored.icons_eq, rfl, rfl,
      hstored.chats, hstored.chat_icons, hstored.shown, hstored.valid⟩
  | deliver =>
    simp only [RecordList.step, FriendList.step, h.signals_eq]
    cases s.signals with
    | nil => exact .ok h
    | cons ct rest =>
      have hrest : StandsFor icon icons accounts rest s.toFriendRegistry { l with signals := rest } :=
        ⟨h.accounts_eq, h.mapFriends, h.friends, h.icons_eq, h.histories, rfl, h.chats, h.chat_icons, h.shown,
          h.valid⟩
      exact hslot (hrest.addRecvMsg ct)
  | typed now txt => exact hslot (h.emit (sendText now txt))
  | dropped ls => exact hslot (h.emit (sendDrop isImg ls))

end

/-- The records of some friends. -/
theorem foldl_addFriend (histories : Histories) (cts : List FriendsInit) :
    let s := cts.foldl FriendRegistry.addFriend (.start histories)
    s.status = cts.map FriendPanel.withPathIcon ∧ s.KeepsFirst ∧ s.accounts = cts.map FriendsInit.friends ∧
      s.chats = (fun _ => none) ∧ s.showFriend = none ∧ s.histories = histories := by
  induction cts using List.reverseRecOn with
  | nil => exact ⟨rfl, fun _ => rfl, rfl, rfl, rfl, rfl⟩
  | append_singleton cts ct ih =>
    obtain ⟨hstatus, hkeeps, haccounts, hchats, hshow, hhistories⟩ := ih
    obtain ⟨hkeeps', haccounts'⟩ := hkeeps.addFriend ct
    rw [List.foldl_append]
    refine ⟨?_, hkeeps', ?_, hchats, hshow, hhistories⟩
    · rw [List.map_append, ← hstatus]
      rfl
    · rw [List.map_append, ← haccounts]
      exact haccounts'

/-- The list behind the login stands for the chats of the friends, if none is added twice. -/
theorem stands_opened {icon : Str} {icons : Int64 → Icons} {cts : List FriendsInit}
    (hnodup : (cts.map FriendsInit.friends).Nodup)
    (hicons : ∀ ct ∈ cts, icons ct.friends = ⟨(FriendPanel.withPathIcon ct).icon, icon⟩)
    (histories : Histories) :
    Stands icon icons (cts.map FriendsInit.friends) (.opened histories cts)
      ⟨histories, cts.map FriendsInit.friends, fun _ => none, none, []⟩ := by
  obtain ⟨hstatus, hkeeps, haccounts, hchats, hshow, hhistories⟩ := foldl_addFriend histories cts
  change StandsFor icon icons _ [] (cts.foldl FriendRegistry.addFriend (.start histories)) _
  generalize cts.foldl FriendRegistry.addFriend (.start histories) = s at *
  have hcoherent := (FriendRegistry.coherent_iff hkeeps).2 (haccounts ▸ hnodup)
  refine ⟨haccounts, fun account k => ⟨fun hmap => ?_, fun hat => ?_⟩, fun _ => Iff.rfl, fun k ct hct => ?_,
    hhistories.symm, rfl, fun k account _ => ?_, fun k account chat _ hchat => ?_, ?_, fun k hk => ?_⟩
  · rw [hkeeps, haccounts, List.idxOf?_eq_some_iff] at hmap
    obtain ⟨hlt, hat, -⟩ := hmap
    exact (List.getElem?_eq_getElem hlt).trans (congrArg some hat)
  · exact hcoherent k account (haccounts ▸ hat)
  · rw [hstatus, List.getElem?_map] at hct
    obtain ⟨ct', hct', rfl⟩ := Option.map_eq_some_iff.1 hct
    exact hicons ct' (List.mem_of_getElem? hct')
  · rw [hchats]
    rfl
  · rw [hchats] at hchat
    cases hchat
  · rw [hshow]
    rfl
  · rw [hshow] at hk
    cases hk

/-- **The records refine the chats of the accounts.**  If no friend is added twice, every
    session on the records ends like the session on the chats of the accounts: both with
    the same tables, outputs, queued signals and chat shown, or both at a null pointer. -/
theorem list_refined {icon : Str} {icons : Int64 → Icons} {cts : List FriendsInit}
    (hnodup : (cts.map FriendsInit.friends).Nodup)
    (hicons : ∀ ct ∈ cts, icons ct.friends = ⟨(FriendPanel.withPathIcon ct).icon, icon⟩)
    (isImg : Str → Bool) (histories : Histories) (es : List ListEvent) :
    EndsAlike (Stands icon icons (cts.map FriendsInit.friends))
      (es.foldlM (RecordList.step isImg icon) (.opened histories cts))
      (es.foldlM (FriendList.step rowHistory rowReading isImg icons)
        ⟨histories, cts.map FriendsInit.friends, fun _ => none, none, []⟩) :=
  EndsAlike.foldlM (fun _ _ e h => stands_step h e) es (stands_opened hnodup hicons histories)

/-- The friends 5 and 6. -/
def fiveAndSix : List FriendsInit := [FriendPanel.friendOf 5 [], FriendPanel.friendOf 6 []]

/-- The icons of their chats. -/
def iconsOfFriends (_ : Int64) : Icons := ⟨lit "../data/head_icon/i", []⟩

/-- Friend 5 is clicked, and a message of him is shown in the chat of his record. -/
theorem list_refined_hello : ∃ s l,
    [.click 5, .recv FriendList.hello, .deliver].foldlM (RecordList.step (fun _ => false) [])
      (.opened FriendList.twoFriends.histories fiveAndSix) = .ok s ∧
    Stands [] iconsOfFriends (fiveAndSix.map FriendsInit.friends) s l ∧
    s.showFriend = some 0 ∧ (s.chats 0).map (fun chat => chat.output.length) = some 1 := by
  have hnodup : (fiveAndSix.map FriendsInit.friends).Nodup := by decide
  have hicons : ∀ ct ∈ fiveAndSix,
      iconsOfFriends ct.friends = ⟨(FriendPanel.withPathIcon ct).icon, []⟩ := by
    intro ct hct
    rcases List.mem_pair.1 hct with rfl | rfl <;> rfl
  obtain ⟨l, hl, hobs⟩ := exists_ok (r := [.click 5, .recv FriendList.hello, .deliver].foldlM
      (FriendList.step rowHistory rowReading (fun _ => false) iconsOfFriends)
      ⟨FriendList.twoFriends.histories, fiveAndSix.map FriendsInit.friends, fun _ => none, none, []⟩)
    (p := fun l => l.showFriend = some 5 ∧ (l.chats 5).map List.length = some 1) (by decide +kernel)
  obtain ⟨hshow, hlength⟩ := of_decide_eq_true hobs
  have hrefined := list_refined hnodup hicons (fun _ => false) FriendList.twoFriends.histories
    [.click 5, .recv FriendList.hello, .deliver]
  rw [hl] at hrefined
  obtain ⟨s, hs, hstands⟩ := hrefined.exists_ok
  have hfive : (fiveAndSix.map FriendsInit.friends)[0]? = some 5 := rfl
  rw [hstands.chats 0 5 hfive, Option.map_map] at hlength
  exact ⟨s, l, hs, hstands, (hstands.showFriend_iff hfive).1 hshow, hlength⟩

end SimpleChat
