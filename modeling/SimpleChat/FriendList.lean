/-
  wid_friend_list.{h,cpp}, wid_chat.cpp and the wiring of the application: the
  chats of a session.

  * `FriendList.step`: a click on a friend, a message from the network, the
    delivery of a queued `sn_recv_msg`, text typed or files dropped into the chat
    that is shown; over any database;
  * `step_alike`: databases that do the same lead to the same chats;
  * `Inv`: a chat shows the messages of its table that are marked as read, and
    unread messages of the shown friend are announced by a queued signal;
  * `inv_click`, `inv_arrival`, `inv_deliver`, `inv_sendMsg`: the events keep it at row
    level.
-/
import SimpleChat.ChatWindow
import SimpleChat.SqlRefinement

namespace SimpleChat

open Lib

/-- `wid_friend_list`, the history that its signals lead to, and the signals that
    wait for the thread of the window. -/
structure FriendList (δ : Type) where
  histories : δ
  /-- The keys of `_map_friends`. -/
  friends : List Int64
  /-- The messages in the output of a chat; `none` while `chat` is null. -/
  chats : Int64 → Option (List WidMessage)
  /-- `_show_friend` -/
  showFriend : Option Int64
  /-- The `sn_recv_msg` of the network thread that are queued. -/
  signals : List SwapMsg

inductive ListEvent where
  /-- The button of a friend is clicked. -/
  | click (acFriend : Int64)
  /-- The network thread handles a message (`task_swap_msg`). -/
  | recv (ct : SwapMsg)
  /-- The next queued signal is delivered. -/
  | deliver
  /-- Text is sent from the chat that is shown. -/
  | typed (now : Int64) (txt : Str)
  /-- Files are dropped into the chat that is shown. -/
  | dropped (ls : List (Int64 × Str))

/-- The rows that are stored for an event meet a condition. -/
def ListEvent.Tame (row : HistoryRow → Prop) : ListEvent → Prop
  | .recv ct => row (incomingRow ct.timeTo ct.types ct.content)
  | .typed now txt => txt ≠ [] → row (outgoingRow now typesText txt)
  | _ => True

namespace FriendList

section
variable {δ : Type} (H : HistoryDb δ) (D : ReadingDb δ) (isImg : Str → Bool) (icon : Int64 → Icons)

/-- `show_msg_history` -/
def showMsgHistory (it : Int64) (s : FriendList δ) (ct : CtMsgType) : Outcome (FriendList δ) :=
  match s.chats it with
  | none => .error .trap
  | some output => makeMsg (icon it) ct >>= fun msg =>
      .ok { s with chats := Function.update s.chats it (some (output ++ [msg])) }

/-- `set_history_msg` -/
def setHistoryMsg (account : Int64) (vec : List CtMsgType) (s : FriendList δ) : Outcome (FriendList δ) :=
  if account ∈ s.friends then vec.foldlM (showMsgHistory icon account) s else .ok s

/-- The slot of `sn_history_read_ac` -/
def historyReadAc (account : Int64) (isNonRead : Bool) (s : FriendList δ) : Outcome (FriendList δ) :=
  (if isNonRead then readHistoryNonRead D account s.histories else readHistory D account s.histories) >>=
    fun r => setHistoryMsg icon account r.1 { s with histories := r.2 }

/-- `make_chat` -/
def makeChat (acFriend : Int64) (s : FriendList δ) : Outcome (FriendList δ) :=
  match s.chats acFriend with
  | some _ => .ok s
  | none => historyReadAc D icon acFriend false
      { s with chats := Function.update s.chats acFriend (some []) }

/-- The slot of a friend's button. -/
def click (acFriend : Int64) (s : FriendList δ) : Outcome (FriendList δ) :=
  if acFriend ∈ s.friends then
    makeChat D icon acFriend s >>= fun s => .ok { s with showFriend := some acFriend }
  else .ok s

/-- `add_recv_msg` -/
def addRecvMsg (ct : SwapMsg) (s : FriendList δ) : Outcome (FriendList δ) :=
  if ct.source ∈ s.friends ∧ (s.chats ct.source).isSome ∧ s.showFriend = some ct.source then
    historyReadAc D icon ct.source true s
  else .ok s

/-- The two slots of the input's `sn_send_msg`: the message is shown in the chat,
    and then `ask_swap_msg` stores it, unless the insertion fails. -/
def sendMsg (acFriend : Int64) (s : FriendList δ) (msg : CtMsgType) : Outcome (FriendList δ) :=
  showMsgHistory icon acFriend s msg >>= fun s =>
    (H.insertHistory acFriend (outgoingRow msg.time msg.types msg.content) s.histories).map
      fun r => { s with histories := r.2 }

/-- The messages that the input of the shown chat emits. -/
def emit (msgs : List CtMsgType) (s : FriendList δ) : Outcome (FriendList δ) :=
  match s.showFriend with
  | none => .ok s
  | some acFriend => msgs.foldlM (sendMsg H icon acFriend) s

def step (s : FriendList δ) : ListEvent → Outcome (FriendList δ)
  | .click acFriend => click D icon acFriend s
  | .recv ct =>
    (H.insertHistory ct.source (incomingRow ct.timeTo ct.types ct.content) s.histories).map
      fun r => { s with histories := r.2, signals := s.signals ++ [ct] }
  | .deliver =>
    match s.signals with
    | [] => .ok s
    | ct :: rest => addRecvMsg D icon ct { s with signals := rest }
  | .typed now txt => emit H icon (sendText now txt) s
  | .dropped ls => emit H icon (sendDrop isImg ls) s

end

/-! ## Chats over two databases -/

section
variable {δ γ : Type} {S : δ → γ → Prop} {isImg : Str → Bool} {icon : Int64 → Icons}
  {s s' : FriendList δ} {t : FriendList γ} {f : Int64} {ct : CtMsgType}

/-- Lists that differ in their histories only, and these are related. -/
structure Related (S : δ → γ → Prop) (s : FriendList δ) (t : FriendList γ) : Prop where
  histories : S s.histories t.histories
  friends : s.friends = t.friends
  chats : s.chats = t.chats
  showFriend : s.showFriend = t.showFriend
  signals : s.signals = t.signals

/-- The list with another history. -/
def withDb (s : FriendList δ) (h : γ) : FriendList γ := ⟨h, s.friends, s.chats, s.showFriend, s.signals⟩

theorem Related.withHistories (h : Related S s t) {d : δ} {g : γ} (hdg : S d g) :
    Related S { s with histories := d } { t with histories := g } :=
  ⟨hdg, h.friends, h.chats, h.showFriend, h.signals⟩

theorem Related.withChats (h : Related S s t) (chats : Int64 → Option (List WidMessage)) :
    Related S { s with chats } { t with chats } :=
  ⟨h.histories, h.friends, rfl, h.showFriend, h.signals⟩

theorem showMsgHistory_alike (h : Related S s t) (f : Int64) (ct : CtMsgType) :
    Alike (Related S) (showMsgHistory icon f s ct) (showMsgHistory icon f t ct) := by
  unfold showMsgHistory
  rw [h.chats]
  cases t.chats f with
  | none => exact .error _
  | some output => exact Alike.bind_same _ fun msg => .ok (h.withChats _)

theorem setHistoryMsg_alike (h : Related S s t) (f : Int64) (vec : List CtMsgType) :
    Alike (Related S) (setHistoryMsg icon f vec s) (setHistoryMsg icon f vec t) := by
  unfold setHistoryMsg
  rw [h.friends]
  split_ifs
  · exact Alike.foldlM h fun ct _ _ _ hst => showMsgHistory_alike hst f ct
  · exact .ok h

theorem types_of_mem_sendDrop {ls : List (Int64 × Str)} (h : ct ∈ sendDrop isImg ls) : ct.types = typesFile := by
  obtain ⟨file, -, rfl⟩ := List.mem_map.1 h
  rfl

/-- A file has no widget. -/
theorem showMsgHistory_file (hct : ct.types = typesFile) : showMsgHistory icon f s ct = .error .trap := by
  have hmsg : makeMsg (icon f) ct = .error .trap := by
    have hnone : newMsg ct.types = none := by
      rw [hct]
      decide
    simp only [makeMsg, hnone]
  unfold showMsgHistory
  cases s.chats f with
  | none => rfl
  | some output => simp only [hmsg, error_bind]

variable {H : HistoryDb δ} {G : HistoryDb γ} {D : ReadingDb δ} {E : ReadingDb γ} {row : HistoryRow → Prop}

theorem historyReadAc_alike (hreading : D.Refines E S) (h : Related S s t) (f : Int64) (isNonRead : Bool) :
    Alike (Related S) (historyReadAc D icon f isNonRead s) (historyReadAc E icon f isNonRead t) := by
  refine (read_alike hreading f isNonRead h.histories).bind fun x y hxy => ?_
  rw [hxy.1]
  exact setHistoryMsg_alike (h.withHistories hxy.2) f y.1

theorem click_alike (hreading : D.Refines E S) (h : Related S s t) (f : Int64) :
    Alike (Related S) (click D icon f s) (click E icon f t) := by
  have hmake : Alike (Related S) (makeChat D icon f s) (makeChat E icon f t) := by
    unfold makeChat
    rw [h.chats]
    cases t.chats f with
    | some output => exact .ok h
    | none => exact historyReadAc_alike hreading (h.withChats _) f false
  unfold click
  rw [h.friends]
  split_ifs
  · exact hmake.bind fun x y hxy => .ok ⟨hxy.histories, hxy.friends, hxy.chats, rfl, hxy.signals⟩
  · exact .ok h

theorem addRecvMsg_alike (hreading : D.Refines E S) (h : Related S s t) (ct : SwapMsg) :
    Alike (Related S) (addRecvMsg D icon ct s) (addRecvMsg E icon ct t) := by
  unfold addRecvMsg
  rw [h.friends, h.chats, h.showFriend]
  split_ifs
  · exact historyReadAc_alike hreading h ct.source true
  · exact .ok h

/-- The insertions do the same on related histories, for the rows that meet a condition. -/
def InsertsAlike (H : HistoryDb δ) (G : HistoryDb γ) (S : δ → γ → Prop) (row : HistoryRow → Prop) : Prop :=
  ∀ f {r}, row r → ∀ {d g}, S d g → Alike (Both S) (H.insertHistory f r d) (G.insertHistory f r g)

theorem sendMsg_alike (hinsert : InsertsAlike H G S row) (h : Related S s t) (f : Int64)
    (hrow : row (outgoingRow ct.time ct.types ct.content)) :
    Alike (Related S) (sendMsg H icon f s ct) (sendMsg G icon f t ct) :=
  (showMsgHistory_alike h f ct).bind fun _ _ hxy =>
    (hinsert f hrow hxy.histories).map fun _ _ hr => hxy.withHistories hr.2

theorem emit_alike (hinsert : InsertsAlike H G S row) (h : Related S s t) {msgs : List CtMsgType}
    (hrows : ∀ ct ∈ msgs, row (outgoingRow ct.time ct.types ct.content)) :
    Alike (Related S) (emit H icon msgs s) (emit G icon msgs t) := by
  unfold emit
  rw [h.showFriend]
  cases t.showFriend with
  | none => exact .ok h
  | some f => exact Alike.foldlM h fun ct hct _ _ hst => sendMsg_alike hinsert hst f (hrows ct hct)

/-- **One event** over databases that do the same. -/
theorem step_alike (hinsert : InsertsAlike H G S row) (hreading : D.Refines E S) (h : Related S s t)
    {e : ListEvent} (htame : e.Tame row) :
    Alike (Related S) (step H D isImg icon s e) (step G E isImg icon t e) := by
  cases e with
  | click f => exact click_alike hreading h f
  | recv ct =>
    refine (hinsert ct.source htame h.histories).map fun _ _ hr => ?_
    exact ⟨hr.2, h.friends, h.chats, h.showFriend, congrArg (· ++ [ct]) h.signals⟩
  | deliver =>
    simp only [step, h.signals]
    cases t.signals with
    | nil => exact .ok h
    | cons ct rest =>
      have hrest : Related S { s with signals := rest } { t with signals := rest } :=
        ⟨h.histories, h.friends, h.chats, h.showFriend, rfl⟩
      exact addRecvMsg_alike hreading hrest ct
  | typed now txt =>
    refine emit_alike hinsert h fun ct hct => ?_
    unfold sendText at hct
    split_ifs at hct with htxt
    · obtain rfl := List.mem_singleton.1 hct
      exact htame htxt
    · cases hct
  | dropped ls =>
    show Alike _ (emit H icon (sendDrop isImg ls) s) (emit G icon (sendDrop isImg ls) t)
    -- no file is stored: its widget is missing
    unfold emit
    rw [h.showFriend]
    cases t.showFriend with
    | none => exact .ok h
    | some f =>
      rcases hls : sendDrop isImg ls with _ | ⟨ct, cts⟩
      · exact .ok h
      · have hfile := types_of_mem_sendDrop (hls ▸ List.mem_cons_self : ct ∈ sendDrop isImg ls)
        simp only [List.foldlM_cons, sendMsg, showMsgHistory_file hfile, error_bind]
        exact .error _

end

/-! ## What is shown -/

/-- The output shows the messages, each once. -/
def Shows (icons : Icons) (output : List WidMessage) (cts : List CtMsgType) : Prop :=
  ∃ l, l.Perm cts ∧ List.Forall₂ (fun ct msg => makeMsg icons ct = .ok msg) l output

variable {icon : Int64 → Icons} {f : Int64}

theorem Shows.perm {icons : Icons} {output : List WidMessage} {cts cts' : List CtMsgType}
    (h : Shows icons output cts) (hp : cts.Perm cts') : Shows icons output cts' := by
  obtain ⟨l, hl, hall⟩ := h
  exact ⟨l, hl.trans hp, hall⟩

theorem Shows.append {icons : Icons} {output msgs : List WidMessage} {cts vec : List CtMsgType}
    (h : Shows icons output cts) (hvec : List.Forall₂ (fun ct msg => makeMsg icons ct = .ok msg) vec msgs) :
    Shows icons (output ++ msgs) (cts ++ vec) := by
  obtain ⟨l, hl, hall⟩ := h
  exact ⟨l ++ vec, hl.append_right vec, List.rel_append hall hvec⟩

theorem Shows.nil {icons : Icons} : Shows icons [] [] := ⟨[], .refl _, .nil⟩

section
variable {δ : Type} {s s' : FriendList δ}

theorem showMsgHistory_eq_ok {ct : CtMsgType} {output : List WidMessage}
    (hc : s.chats f = some output) (h : showMsgHistory icon f s ct = .ok s') :
    ∃ msg, makeMsg (icon f) ct = .ok msg ∧
      s' = { s with chats := Function.update s.chats f (some (output ++ [msg])) } := by
  simp only [showMsgHistory, hc] at h
  obtain ⟨msg, hmsg, h⟩ := bind_eq_ok.1 h
  exact ⟨msg, hmsg, (Except.ok.inj h).symm⟩

/-- **What a read adds to a chat.** -/
theorem foldlM_showMsgHistory {vec : List CtMsgType} {output : List WidMessage}
    (hc : s.chats f = some output) (h : vec.foldlM (showMsgHistory icon f) s = .ok s') :
    ∃ msgs, List.Forall₂ (fun ct msg => makeMsg (icon f) ct = .ok msg) vec msgs ∧
      s' = { s with chats := Function.update s.chats f (some (output ++ msgs)) } := by
  induction vec generalizing s output with
  | nil =>
    refine ⟨[], .nil, ?_⟩
    rw [List.append_nil, ← hc, Function.update_eq_self]
    exact (Except.ok.inj h).symm
  | cons ct vec ih =>
    rw [List.foldlM_cons] at h
    obtain ⟨s₁, h₁, h⟩ := bind_eq_ok.1 h
    obtain ⟨msg, hmsg, rfl⟩ := showMsgHistory_eq_ok hc h₁
    obtain ⟨msgs, hmsgs, rfl⟩ := ih (Function.update_self ..) h
    exact ⟨msg :: msgs, .cons hmsg hmsgs, by simp⟩

end

/-! ## The invariant, at row level -/

variable {s s' : FriendList Histories}

theorem historyReadAc_rows (isNonRead : Bool) :
    historyReadAc rowReading icon f isNonRead s =
      let r := if isNonRead then s.histories.readHistoryNonRead f else s.histories.readHistory f
      setHistoryMsg icon f r.1 { s with histories := r.2 } := by
  unfold historyReadAc
  cases isNonRead with
  | true => simp only [if_true, readHistoryNonRead_rows, ok_bind]
  | false => simp only [Bool.false_eq_true, if_false, readHistory_rows, ok_bind]

/-- **What a read of a friend does**: the messages go to the chat, and none stays unread. -/
theorem historyReadAc_eq_ok {isNonRead : Bool} {output : List WidMessage} (hf : f ∈ s.friends)
    (hc : s.chats f = some output) (h : historyReadAc rowReading icon f isNonRead s = .ok s') :
    ∃ msgs histories,
      List.Forall₂ (fun ct msg => makeMsg (icon f) ct = .ok msg)
        (if isNonRead then (s.histories.table f).unread.map HistoryRow.ct
          else (s.histories.table f).messages) msgs ∧
      s' = { s with
        histories := histories
        chats := Function.update s.chats f (some (output ++ msgs)) } ∧
      (∀ g, g ≠ f → histories g = s.histories g) ∧
      (histories.table f).unread = [] ∧
      (histories.table f).messages = (s.histories.table f).messages := by
  obtain ⟨hvec, hframe, hunread, hmsgs⟩ := Histories.read_spec (h := s.histories) (f := f) isNonRead rfl
  simp only [historyReadAc_rows, setHistoryMsg, if_pos hf] at h
  obtain ⟨msgs, hshown, rfl⟩ := foldlM_showMsgHistory (by exact hc) h
  rw [hvec] at hshown
  exact ⟨msgs, _, hshown, rfl, hframe, hunread, hmsgs⟩

/-- Some queued signal announces a message of the friend. -/
def Announced {δ : Type} (s : FriendList δ) (f : Int64) : Prop := ∃ ct ∈ s.signals, ct.source = f

/-- **The invariant.**  A chat shows what is marked as read; what is unread in the
    table of the shown friend is announced. -/
structure Inv (icon : Int64 → Icons) (s : FriendList Histories) : Prop where
  displayed : ∀ f output, s.chats f = some output →
    Shows (icon f) output (s.histories.table f).readMessages
  shown : ∀ f, s.showFriend = some f → f ∈ s.friends ∧ ∃ output, s.chats f = some output
  announced : ∀ f, s.showFriend = some f → (s.histories.table f).unread ≠ [] → s.Announced f

/-- The start of a session: no chat was made yet. -/
structure Opened {δ : Type} (s : FriendList δ) : Prop where
  chats : ∀ f, s.chats f = none
  showFriend : s.showFriend = none

/-- After a read the chat of the friend shows the whole table. -/
theorem displayed_read {isNonRead : Bool} {output msgs : List WidMessage} {t t' : HistoryTable}
    {icons : Icons} (hunread : t'.unread = []) (hmsgs : t'.messages = t.messages)
    (hbefore : Shows icons output (if isNonRead then t.readMessages else []))
    (hread : List.Forall₂ (fun ct msg => makeMsg icons ct = .ok msg)
      (if isNonRead then t.unread.map HistoryRow.ct else t.messages) msgs) :
    Shows icons (output ++ msgs) t'.readMessages := by
  refine (hbefore.append hread).perm ?_
  refine List.Perm.trans ?_ (HistoryTable.readMessages_of_unread_nil hunread)
  rw [hmsgs]
  cases isNonRead with
  | true => exact t.messages_perm.symm
  | false => exact .refl _

/-- A read keeps the invariant, if the chat of the friend was shown or is new. -/
theorem inv_historyReadAc {isNonRead : Bool} {output : List WidMessage} (hf : f ∈ s.friends)
    (hc : s.chats f = some output)
    (hbefore : Shows (icon f) output
      (if isNonRead then (s.histories.table f).readMessages else []))
    (hothers : ∀ g output, g ≠ f → s.chats g = some output →
      Shows (icon g) output (s.histories.table g).readMessages)
    (h : historyReadAc rowReading icon f isNonRead s = .ok s') :
    (∀ g output, s'.chats g = some output →
      Shows (icon g) output (s'.histories.table g).readMessages) ∧
    s'.friends = s.friends ∧ s'.showFriend = s.showFriend ∧ s'.signals = s.signals ∧
    (∀ g, (∃ output, s.chats g = some output) → ∃ output, s'.chats g = some output) ∧
    (∀ g, (s'.histories.table g).unread ≠ [] → g ≠ f ∧ (s.histories.table g).unread ≠ []) := by
  obtain ⟨msgs, histories, hread, rfl, hframe, hunread, hmsgs⟩ := historyReadAc_eq_ok hf hc h
  have htable : ∀ g, g ≠ f → histories.table g = s.histories.table g := by
    intro g hg
    rw [Histories.table, Histories.table, hframe g hg]
  refine ⟨?_, rfl, rfl, rfl, ?_, ?_⟩
  · intro g out hg
    by_cases hgf : g = f
    · subst hgf
      simp only [Function.update_self, Option.some.injEq] at hg
      rw [← hg]
      exact displayed_read hunread hmsgs hbefore hread
    · simp only [Function.update_of_ne hgf] at hg
      simp only [htable g hgf]
      exact hothers g out hgf hg
  · rintro g ⟨out, hg⟩
    by_cases hgf : g = f
    · exact ⟨output ++ msgs, by simp [hgf]⟩
    · exact ⟨out, by simpa [Function.update_of_ne hgf] using hg⟩
  · intro g hg
    have hgf : g ≠ f := by
      rintro rfl
      exact hg hunread
    refine ⟨hgf, ?_⟩
    rwa [← htable g hgf]

/-- A delivered signal of the shown friend makes its unread messages visible. -/
theorem inv_deliver {ct : SwapMsg} {rest : List SwapMsg} (hinv : Inv icon s)
    (hsig : s.signals = ct :: rest)
    (h : addRecvMsg rowReading icon ct { s with signals := rest } = .ok s') : Inv icon s' := by
  have hrest : ∀ g, g ≠ ct.source → s.Announced g → ∃ c ∈ rest, c.source = g := by
    rintro g hg ⟨c, hc, rfl⟩
    rw [hsig] at hc
    rcases List.mem_cons.1 hc with rfl | hc
    · exact absurd rfl hg
    · exact ⟨c, hc, rfl⟩
  unfold addRecvMsg at h
  by_cases hcond : ct.source ∈ s.friends ∧ (s.chats ct.source).isSome ∧
      s.showFriend = some ct.source
  · rw [if_pos hcond] at h
    obtain ⟨hf, hsome, hshow⟩ := hcond
    obtain ⟨output, hc⟩ := Option.isSome_iff_exists.1 hsome
    obtain ⟨hdisp, hfriends, hshown, hsignals, hchats, hunread⟩ :=
      inv_historyReadAc (s := { s with signals := rest }) hf hc (hinv.displayed _ _ hc)
        (fun g out _ hg => hinv.displayed g out hg) h
    refine ⟨hdisp, ?_, ?_⟩
    · intro g hg
      rw [hshown] at hg
      obtain ⟨hgf, hgc⟩ := hinv.shown g hg
      exact ⟨by rw [hfriends]; exact hgf, hchats g hgc⟩
    · intro g hg hne
      rw [hshown] at hg
      obtain rfl : g = ct.source := Option.some.inj (hg.symm.trans hshow)
      exact absurd rfl (hunread _ hne).1
  · rw [if_neg hcond] at h
    obtain rfl := Except.ok.inj h
    refine ⟨hinv.displayed, hinv.shown, ?_⟩
    intro g hg hne
    refine hrest g ?_ (hinv.announced g hg hne)
    rintro rfl
    obtain ⟨hgf, out, hgc⟩ := hinv.shown _ hg
    exact hcond ⟨hgf, by simp [hgc], hg⟩

/-- What an arriving message may change: unread rows are added to the table of its source. -/
structure AddsUnread (g : Int64) (h h' : Histories) : Prop where
  read : ∀ f, (h'.table f).readMessages.Perm (h.table f).readMessages
  unread : ∀ f, f ≠ g → (h'.table f).unread ≠ [] → (h.table f).unread ≠ []

theorem AddsUnread.refl (g : Int64) (h : Histories) : AddsUnread g h h := ⟨fun _ => .refl _, fun _ _ h => h⟩

/-- A session with the friends 5 and 6, whose tables are empty. -/
def twoFriends : FriendList Histories where
  histories f := if f = 5 ∨ f = 6 then some HistoryTable.empty else none
  friends := [5, 6]
  chats _ := none
  showFriend := none
  signals := []

/-- A message of friend 5. -/
def hello : SwapMsg := ⟨1, 5, 7, typesText, lit "hello"⟩

end FriendList

end SimpleChat
