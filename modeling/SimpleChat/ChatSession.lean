/-
  A session of the chat: the client, and the reader of its history
  (sqlite_read_history.h).

  * `ReadingDb`: the members of `sqlite_history` that the reader calls; `readHistory`,
    `readHistoryNonRead`: what it returns and marks as read;
  * `Session.step`: a frame is received, the user sends a message, a chat is read;
  * `HistoryDb.Refines`, `ReadingDb.Refines`: the members of one database do what those
    of another one do, on related states;
  * `Session.run_alike`: then whole sessions over the two end alike, with the same frames
    sent, the same signals and the same messages read.
-/
import SimpleChat.Delivery

namespace SimpleChat

open Lib Lib.Json

/-! ## The reader -/

/-- The members of `sqlite_history` that `sqlite_read_history` calls. -/
structure ReadingDb (δ : Type) where
  selectHistory : Int64 → δ → Outcome (Bool × List HistoryRow)
  selectNonRead : Int64 → δ → Outcome (Bool × List HistoryRow)
  updateNonRead : Int64 → Int64 → Int64 → δ → Outcome (Bool × δ)

section
variable {δ : Type} (D : ReadingDb δ) (account : Int64)

/-- The loop of the two reads: each row is handed over, and marked as read. -/
def readLoop (rows : List HistoryRow) (d : δ) : Outcome (List CtMsgType × δ) :=
  rows.foldlM (fun s r => (D.updateNonRead account r.sendTime 0 s.2).map fun q => (s.1 ++ [r.ct], q.2))
    ([], d)

/-- `read_history` -/
def readHistory (d : δ) : Outcome (List CtMsgType × δ) :=
  D.selectHistory account d >>= fun r => if r.1 then readLoop D account r.2 d else .ok ([], d)

/-- `read_history_non_read` -/
def readHistoryNonRead (d : δ) : Outcome (List CtMsgType × δ) :=
  D.selectNonRead account d >>= fun r => if r.1 then readLoop D account r.2 d else .ok ([], d)

end

/-! ## Sessions -/

/-- The client, and what the reads have returned. -/
structure Session (δ ρ : Type) where
  client : QwebClient δ ρ
  shown : List (Int64 × List CtMsgType)

inductive SessionEvent where
  /-- `sl_message` -/
  | received (sjson : Str)
  /-- `ask_swap_msg` -/
  | asked (msg : SwapMsg)
  /-- `sn_history_read_ac` -/
  | read (account : Int64) (isNonRead : Bool)

namespace Session

section
variable {δ ρ : Type} (J : JsonLib) (H : HistoryDb δ) (D : ReadingDb δ) (R : RecordDb ρ)
  (clock : ℕ → Int64)

def step (s : Session δ ρ) : SessionEvent → Outcome (Session δ ρ)
  | .received sjson =>
    (QwebClient.slMessage J H R clock sjson s.client).map fun c => { s with client := c }
  | .asked msg => (QwebClient.askSwapMsg J H msg s.client).map fun c => { s with client := c }
  | .read account isNonRead =>
    (if isNonRead then readHistoryNonRead D account s.client.dbh
      else readHistory D account s.client.dbh).map fun r =>
        ⟨{ s.client with dbh := r.2 }, s.shown ++ [(account, r.1)]⟩

/-- The events one after the other. -/
def run (s : Session δ ρ) (es : List SessionEvent) : Outcome (Session δ ρ) :=
  es.foldlM (step J H D R clock) s

end

end Session

/-! ## Databases that do the same -/

section
variable {δ γ : Type}

/-- The same report, and related databases. -/
def Both (S : δ → γ → Prop) (x : Bool × δ) (y : Bool × γ) : Prop := x.1 = y.1 ∧ S x.2 y.2

/-- The members of `H` do on related states what those of `G` do: for the friends and the
    rows that meet a condition. -/
structure HistoryDb.Refines (H : HistoryDb δ) (G : HistoryDb γ) (S : δ → γ → Prop)
    (friend : Int64 → Prop) (row : HistoryRow → Prop) : Prop where
  openHistory : ∀ a {d g}, S d g → Alike (Both S) (H.openHistory a d) (G.openHistory a g)
  createHistory : ∀ {f}, friend f → ∀ {d g}, S d g →
    Alike (Both S) (H.createHistory f d) (G.createHistory f g)
  insertHistory : ∀ f {r}, row r → ∀ {d g}, S d g →
    Alike (Both S) (H.insertHistory f r d) (G.insertHistory f r g)
  updateFeedBack : ∀ f k v {d g}, S d g →
    Alike (Both S) (H.updateFeedBack f k v d) (G.updateFeedBack f k v g)

structure ReadingDb.Refines (D : ReadingDb δ) (E : ReadingDb γ) (S : δ → γ → Prop) : Prop where
  selectHistory : ∀ f {d g}, S d g → D.selectHistory f d = E.selectHistory f g
  selectNonRead : ∀ f {d g}, S d g → D.selectNonRead f d = E.selectNonRead f g
  updateNonRead : ∀ f k v {d g}, S d g →
    Alike (Both S) (D.updateNonRead f k v d) (E.updateNonRead f k v g)

end

/-- A message on which the two databases agree. -/
def TameLeaf (J : JsonLib) (friend : Int64 → Prop) (row : HistoryRow → Prop) :
    Outcome (Task × Str) → Prop
  | .ok (.acLoginBack, sjson) => ∀ m, getAcLoginBack J sjson = .ok (some m) →
    ∀ x ∈ QwebClient.vecFriends J m.svecFriendsInfo, friend x.friends
  | .ok (.swapMsg, sjson) => ∀ m, getSwapMsg J sjson = .ok (some m) → row m.row
  | _ => True

/-- An event on which they agree. -/
def SessionEvent.Tame (J : JsonLib) (friend : Int64 → Prop) (row : HistoryRow → Prop) :
    SessionEvent → Prop
  | .received sjson => ∀ l ∈ QwebClient.leaves J sjson, TameLeaf J friend row l
  | .asked msg => row (outgoingRow msg.timeTo msg.types msg.content)
  | .read _ _ => True

/-! ## Clients over two databases -/

namespace QwebClient

section
variable {δ γ ρ : Type} {S : δ → γ → Prop}

/-- Clients that differ in their histories only, and these are related. -/
structure Related (S : δ → γ → Prop) (c : QwebClient δ ρ) (d : QwebClient γ ρ) : Prop where
  dbh : S c.dbh d.dbh
  dbr : c.dbr = d.dbr
  sent : c.sent = d.sent
  signals : c.signals = d.signals

variable {c : QwebClient δ ρ} {d : QwebClient γ ρ}

theorem Related.emit (h : Related S c d) (s : Signal) : Related S (c.emit s) (d.emit s) :=
  ⟨h.dbh, h.dbr, h.sent, congrArg (· ++ [s]) h.signals⟩

theorem Related.sendMsg (h : Related S c d) (t : Str) : Related S (c.sendMsg t) (d.sendMsg t) :=
  ⟨h.dbh, h.dbr, congrArg (· ++ [t]) h.sent, h.signals⟩

theorem Related.onHistory (h : Related S c d) {f : δ → Outcome (Bool × δ)} {g : γ → Outcome (Bool × γ)}
    (hfg : Alike (Both S) (f c.dbh) (g d.dbh)) :
    Alike (Both (Related S)) (c.onHistory f) (d.onHistory g) :=
  hfg.map fun _ _ hxy => ⟨hxy.1, hxy.2, h.dbr, h.sent, h.signals⟩

theorem Related.onRecord (h : Related S c d) (f : ρ → Outcome (Bool × ρ)) :
    Alike (Both (Related S)) (c.onRecord f) (d.onRecord f) := by
  unfold QwebClient.onRecord
  rw [h.dbr]
  cases f d.dbr with
  | error e => exact .error e
  | ok r => exact .ok ⟨rfl, h.dbh, rfl, h.sent, h.signals⟩

variable {J : JsonLib} {H : HistoryDb δ} {G : HistoryDb γ} {R : RecordDb ρ} {clock : ℕ → Int64}
  {friend : Int64 → Prop} {row : HistoryRow → Prop}

theorem Related.signalled (h : Related S c d) {α : Type} (r : Outcome (Option α)) (s : α → Signal) :
    Alike (Related S) (QwebClient.signalled r s c) (QwebClient.signalled r s d) := by
  cases r with
  | error e => exact .error e
  | ok m =>
    cases m with
    | none => exact .ok h
    | some m => exact .ok (h.emit (s m))

theorem Related.handled (h : Related S c d) {α : Type} {r : Outcome (Option α)}
    {f : α → QwebClient δ ρ → Outcome (QwebClient δ ρ)} {g : α → QwebClient γ ρ → Outcome (QwebClient γ ρ)}
    (hfg : ∀ m, r = .ok (some m) → Alike (Related S) (f m c) (g m d)) :
    Alike (Related S) (QwebClient.handled r f c) (QwebClient.handled r g d) := by
  cases r with
  | error e => exact .error e
  | ok m =>
    cases m with
    | none => exact .ok h
    | some m => exact hfg m rfl

theorem createTables_alike (hrefines : H.Refines G S friend row) {friends : List FriendsInit}
    (h : Related S c d) (hfriends : ∀ x ∈ friends, friend x.friends) :
    Alike (Related S) (createTables H friends c) (createTables G friends d) :=
  Alike.foldlM h fun x hx _ _ hcd =>
    (hcd.onHistory (hrefines.createHistory (hfriends x hx) hcd.dbh)).map fun _ _ hxy => hxy.2

theorem acLoginBack_alike (hrefines : H.Refines G S friend row) {m : AcLoginBack} (h : Related S c d)
    (hfriends : ∀ x ∈ vecFriends J m.svecFriendsInfo, friend x.friends) :
    Alike (Related S) (acLoginBack J H R m c) (acLoginBack J G R m d) := by
  refine (h.onHistory (hrefines.openHistory m.account h.dbh)).bind fun x y hxy => ?_
  refine (hxy.2.onRecord (R.openRecord m.account)).bind fun x y hxy => ?_
  refine (createTables_alike hrefines hxy.2 hfriends).bind fun c d hcd => ?_
  exact Alike.bind_same (setSwapCache J m.account) fun s => .ok ((hcd.emit _).sendMsg s)

theorem swapMsg_alike (hrefines : H.Refines G S friend row) {m : SwapMsg} (h : Related S c d)
    (hrow : row m.row) : Alike (Related S) (swapMsg J H clock m c) (swapMsg J G clock m d) := by
  refine (h.onHistory (hrefines.insertHistory m.source hrow h.dbh)).bind fun x y hxy => ?_
  have hsent : (x.2.emit (.recvMsg m)).sent = (y.2.emit (.recvMsg m)).sent := hxy.2.sent
  simp only [hsent]
  exact Alike.bind_same _ fun s => .ok ((hxy.2.emit _).sendMsg s)

/-- **One message.** -/
theorem runTask_alike (hrefines : H.Refines G S friend row) {t : Task} {sjson : Str}
    (h : Related S c d) (htame : TameLeaf J friend row (.ok (t, sjson))) :
    Alike (Related S) (runTask J H R clock t sjson c) (runTask J G R clock t sjson d) := by
  cases t with
  | acLoginBack => exact h.handled fun m hm => acLoginBack_alike hrefines h (htame m hm)
  | acRegisterBack => exact h.signalled _ _
  | acInfoAllBack => exact h.signalled _ _
  | acUpdateInfoBack => exact h.signalled _ _
  | acUpdateRemarksBack => exact h.signalled _ _
  | acUpdateFriendsBack => exact h.signalled _ _
  | swapFriensAdd =>
    refine h.handled fun m _ => (h.onRecord _).bind fun x y hxy => ?_
    obtain ⟨b, c'⟩ := x
    obtain ⟨b', d'⟩ := y
    obtain ⟨hb, hcd⟩ := hxy
    obtain rfl : b = b' := hb
    cases b with
    | true => exact .ok (hcd.emit .friendsAdd)
    | false => exact .ok hcd
  | swapCacheBack => exact .ok h
  | swapMsg => exact h.handled fun m hm => swapMsg_alike hrefines h (htame m hm)
  | swapMsgBack =>
    exact h.handled fun m _ =>
      (h.onHistory (hrefines.updateFeedBack m.source m.timeTo m.timeOk h.dbh)).map fun _ _ hxy => hxy.2
  | errorInfo =>
    show Alike _ ((getErrorInfo J sjson).map fun _ => c) ((getErrorInfo J sjson).map fun _ => d)
    cases getErrorInfo J sjson with
    | error e => exact .error e
    | ok m => exact .ok h

/-- **A received text.** -/
theorem slMessage_alike (hrefines : H.Refines G S friend row) {sjson : Str} (h : Related S c d)
    (htame : ∀ l ∈ leaves J sjson, TameLeaf J friend row l) :
    Alike (Related S) (slMessage J H R clock sjson c) (slMessage J G R clock sjson d) := by
  rw [slMessage_eq, slMessage_eq]
  refine Alike.foldlM h fun l hl c d hcd => ?_
  have hleaf := htame l hl
  cases l with
  | error e => exact .error e
  | ok leaf => exact runTask_alike hrefines hcd hleaf

/-- **A message of the user.** -/
theorem askSwapMsg_alike (hrefines : H.Refines G S friend row) {msg : SwapMsg} (h : Related S c d)
    (hrow : row (outgoingRow msg.timeTo msg.types msg.content)) :
    Alike (Related S) (askSwapMsg J H msg c) (askSwapMsg J G msg d) := by
  refine (h.onHistory (hrefines.insertHistory msg.target hrow h.dbh)).bind fun x y hxy => ?_
  obtain ⟨b, c'⟩ := x
  obtain ⟨b', d'⟩ := y
  obtain ⟨hb, hcd⟩ := hxy
  obtain rfl : b = b' := hb
  cases b with
  | true => exact Alike.bind_same _ fun s => .ok (hcd.sendMsg s)
  | false => exact .ok hcd

end

end QwebClient

/-! ## Sessions over two databases -/

section
variable {δ γ ρ : Type} {S : δ → γ → Prop} {J : JsonLib} {H : HistoryDb δ} {G : HistoryDb γ}
  {D : ReadingDb δ} {E : ReadingDb γ} {R : RecordDb ρ} {clock : ℕ → Int64} {friend : Int64 → Prop}
  {row : HistoryRow → Prop}

/-- What a read returns is the same. -/
theorem readLoop_alike (hreading : D.Refines E S) (account : Int64) (rows : List HistoryRow) {d : δ} {g : γ}
    (h : S d g) : Alike (fun x y => x.1 = y.1 ∧ S x.2 y.2) (readLoop D account rows d)
      (readLoop E account rows g) := by
  refine Alike.foldlM ⟨rfl, h⟩ fun r _ x y hxy => ?_
  refine (hreading.updateNonRead account r.sendTime 0 hxy.2).map fun p q hpq => ⟨?_, hpq.2⟩
  rw [hxy.1]

theorem read_alike (hreading : D.Refines E S) (account : Int64) (isNonRead : Bool) {d : δ} {g : γ}
    (h : S d g) : Alike (fun x y => x.1 = y.1 ∧ S x.2 y.2)
      (if isNonRead then readHistoryNonRead D account d else readHistory D account d)
      (if isNonRead then readHistoryNonRead E account g else readHistory E account g) := by
  have hloop : ∀ r : Bool × List HistoryRow, Alike (fun x y => x.1 = y.1 ∧ S x.2 y.2)
      (if r.1 then readLoop D account r.2 d else .ok ([], d))
      (if r.1 then readLoop E account r.2 g else .ok ([], g)) := by
    rintro ⟨b, rows⟩
    cases b with
    | true => exact readLoop_alike hreading account rows h
    | false => exact .ok ⟨rfl, h⟩
  cases isNonRead with
  | true =>
    simp only [if_true, readHistoryNonRead, hreading.selectNonRead account h]
    exact Alike.bind_same _ hloop
  | false =>
    simp only [Bool.false_eq_true, if_false, readHistory, hreading.selectHistory account h]
    exact Alike.bind_same _ hloop

namespace Session

/-- Sessions that differ in their histories only. -/
structure Related (S : δ → γ → Prop) (s : Session δ ρ) (t : Session γ ρ) : Prop where
  client : QwebClient.Related S s.client t.client
  shown : s.shown = t.shown

theorem step_alike (hrefines : H.Refines G S friend row) (hreading : D.Refines E S) {s : Session δ ρ}
    {t : Session γ ρ} (h : Related S s t) {e : SessionEvent} (htame : e.Tame J friend row) :
    Alike (Related S) (step J H D R clock s e) (step J G E R clock t e) := by
  cases e with
  | received sjson =>
    exact (QwebClient.slMessage_alike hrefines h.client htame).map fun _ _ hcd => ⟨hcd, h.shown⟩
  | asked msg =>
    exact (QwebClient.askSwapMsg_alike hrefines h.client htame).map fun _ _ hcd => ⟨hcd, h.shown⟩
  | read account isNonRead =>
    refine (read_alike hreading account isNonRead h.client.dbh).map fun x y hxy => ⟨?_, ?_⟩
    · exact ⟨hxy.2, h.client.dbr, h.client.sent, h.client.signals⟩
    · simp only [h.shown, hxy.1]

/-- **A whole session** over the one database ends as over the other one. -/
theorem run_alike (hrefines : H.Refines G S friend row) (hreading : D.Refines E S) {s : Session δ ρ}
    {t : Session γ ρ} (h : Related S s t) {es : List SessionEvent}
    (htame : ∀ e ∈ es, e.Tame J friend row) :
    Alike (Related S) (run J H D R clock s es) (run J G E R clock t es) :=
  Alike.foldlM h fun e he _ _ hst => step_alike hrefines hreading hst (htame e he)

end Session

end

end SimpleChat
