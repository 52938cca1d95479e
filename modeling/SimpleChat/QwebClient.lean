/-
  qweb_client.{h,cpp}: the chat client.

  * `HistoryDb`, `RecordDb`: the members of `sqlite_history` and `sqlite_record`
    that the client calls, on a state of their own;
  * `MsgType.codec`: a message that is written is recognised, read back, and handed to
    its own handler only;
  * `taskAcLoginBack` .. `taskErrorInfo`: the handlers of messages;
  * `slMessage`: what a received text does; a message of the cache hands the texts
    in it to `slMessage` again;
  * `leaves`, `slMessage_eq`: the messages in a text, one handler after the other;
  * `askSwapMsg`: a message that the user sends.
-/
import SimpleChat.History
import SimpleChat.Codec

namespace SimpleChat

open Lib Lib.Json

/-- The members of `sqlite_history` that the client calls. -/
structure HistoryDb (δ : Type) where
  openHistory : Int64 → δ → Outcome (Bool × δ)
  createHistory : Int64 → δ → Outcome (Bool × δ)
  insertHistory : Int64 → HistoryRow → δ → Outcome (Bool × δ)
  updateFeedBack : Int64 → Int64 → Int64 → δ → Outcome (Bool × δ)

/-- The members of `sqlite_record` that the client calls. -/
structure RecordDb (ρ : Type) where
  openRecord : Int64 → ρ → Outcome (Bool × ρ)
  insertRecord : Int64 → RecordRow → ρ → Outcome (Bool × ρ)

/-- The row that a received message becomes. -/
def SwapMsg.row (m : SwapMsg) : HistoryRow := incomingRow m.timeTo m.types m.content

theorem SwapMsg.row_checked (m : SwapMsg) : m.row.Checked := incomingRow_checked ..

/-- The signals of the client. -/
inductive Signal where
  | recvMsg (msg : SwapMsg)
  | friendsAdd
  | acLogin (account : Int64) (nickname icon : Str) (vecFriends : List FriendsInit)
  | acRegister (account : Int64) (passwd : Str) (ok : Bool)
  | acInfoAll (types : Int64) (info : AcInfo)
  | updateInfo (icon : Str) (ok : Bool)
  | updateRemarks (friends : Int64) (remarks : Str)
  | updateFriends (vec : List FriendsInit)
  deriving DecidableEq

/-- The client: its databases, what it sent and what it signalled. -/
structure QwebClient (δ ρ : Type) where
  dbh : δ
  dbr : ρ
  sent : List Str
  signals : List Signal

/-- The entries of `_map_fn`. -/
inductive Task where
  | acLoginBack | acRegisterBack | acInfoAllBack | acUpdateInfoBack | acUpdateRemarksBack
  | acUpdateFriendsBack | swapFriensAdd | swapCacheBack | swapMsg | swapMsgBack | errorInfo
  deriving DecidableEq, Repr

/-- `_map_fn.find(type)` -/
def mapFn (type : Str) : Option Task :=
  if type = lit "ac_login_back" then some .acLoginBack
  else if type = lit "ac_register_back" then some .acRegisterBack
  else if type = lit "ac_info_all_back" then some .acInfoAllBack
  else if type = lit "ac_update_info_back" then some .acUpdateInfoBack
  else if type = lit "ac_update_remarks_back" then some .acUpdateRemarksBack
  else if type = lit "ac_update_friends_back" then some .acUpdateFriendsBack
  else if type = lit "swap_friens_add" then some .swapFriensAdd
  else if type = lit "swap_cache_back" then some .swapCacheBack
  else if type = lit "swap_msg" then some .swapMsg
  else if type = lit "swap_msg_back" then some .swapMsgBack
  else if type = lit "error_info" then some .errorInfo
  else none

/-! ## The handler of a message -/

namespace MsgType

/-- The handler of the chat client for a message of a type. -/
def task : MsgType → Option Task
  | errorInfo => some .errorInfo
  | acLoginBack => some .acLoginBack
  | acRegisterBack => some .acRegisterBack
  | acInfoAllBack => some .acInfoAllBack
  | acUpdateInfoBack => some .acUpdateInfoBack
  | acUpdateRemarksBack => some .acUpdateRemarksBack
  | acUpdateFriendsBack => some .acUpdateFriendsBack
  | swapCacheBack => some .swapCacheBack
  | swapMsg => some .swapMsg
  | swapMsgBack => some .swapMsgBack
  | swapFriensAdd => some .swapFriensAdd
  | _ => none

section
variable (J : JsonLib) (fuel : ℕ) (a : Answers) (q : QwebFiles)

/-- The handler of the client of the file server for a message of a type. -/
def filesTask : MsgType → Option (Str → Outcome QwebFiles)
  | filesCreateUploadBack => some (q.taskFilesCreateUploadBack J a)
  | filesBeginUploadBack => some (q.taskFilesBeginUploadBack J fuel a)
  | filesFinishUploadBack => some (q.taskFilesFinishUploadBack J)
  | filesCreateDownloadBack => some (q.taskFilesCreateDownloadBack J a)
  | filesBeginDownloadBack => some (q.taskFilesBeginDownloadBack J a)
  | filesFinishDownloadBack => some (q.taskFilesFinishDownloadBack J a)
  | _ => none

theorem mapFn_name (T : MsgType) : mapFn T.name = T.task := by
  have key : ∀ T ∈ all, mapFn T.name = T.task := by decide +kernel
  exact key T (mem_all T)

theorem filesMapFn_name (T : MsgType) : QwebFiles.mapFn J fuel a q T.name = T.filesTask J fuel a q := by
  unfold QwebFiles.mapFn
  simp only [show lit "files_create_upload_back" = filesCreateUploadBack.name from rfl,
    show lit "files_begin_upload_back" = filesBeginUploadBack.name from rfl,
    show lit "files_finish_upload_back" = filesFinishUploadBack.name from rfl,
    show lit "files_create_download_back" = filesCreateDownloadBack.name from rfl,
    show lit "files_begin_download_back" = filesBeginDownloadBack.name from rfl,
    show lit "files_finish_download_back" = filesFinishDownloadBack.name from rfl, name_inj]
  cases T <;> rfl

end

/-- **The codec of the messages.**  A message of UTF-8 strings is written; it is
    recognised as declared and read back as its arguments; its type is not that of a
    message of another type; and every map of handlers, such as those of the two clients,
    hands it to the handler of its own type only. -/
theorem codec (J : JsonLib) (T : MsgType) (args : T.Args) (h : ∀ s ∈ T.strings args, validUtf8 s = true) :
    ∃ t, T.set J args = .ok t ∧ checkJson J t = .ok (some (T.stream, T.name)) ∧
      T.get J t = .ok (some args) ∧
      (∀ (T' : MsgType) (args' : T'.Args) (t' : Str) (stream' type' : Str), T' ≠ T →
        T'.set J args' = .ok t' → checkJson J t' = .ok (some (stream', type')) → type' ≠ T.name) ∧
      (∀ handled, dispatch handled T.name = if T ∈ handled then some T else none) ∧
      mapFn T.name = T.task ∧
      ∀ fuel a q, QwebFiles.mapFn J fuel a q T.name = T.filesTask J fuel a q := by
  obtain ⟨t, ht⟩ := exists_set J T args h
  refine ⟨t, ht, checkJson_set J ht, get_set J ht, ?_, fun handled => dispatch_name handled T, mapFn_name T,
    fun fuel a q => filesMapFn_name J fuel a q T⟩
  intro T' args' t' stream' type' hne ht' hcheck hname
  rw [checkJson_set J ht'] at hcheck
  cases hcheck
  exact hne (name_injective hname)

theorem codec_swapMsg : ∃ t, swapMsg.set jsonText ⟨2, 1, 5, lit "Text", lit "hi"⟩ = .ok t ∧
    checkJson jsonText t = .ok (some (streamCc, lit "swap_msg")) ∧ mapFn (lit "swap_msg") = some .swapMsg := by
  obtain ⟨t, hset, hcheck, -, -, -, htask, -⟩ :=
    codec jsonText swapMsg ⟨2, 1, 5, lit "Text", lit "hi"⟩ (by decide)
  exact ⟨t, hset, hcheck, htask⟩

end MsgType

namespace QwebClient

section
variable {δ ρ : Type} (J : JsonLib) (H : HistoryDb δ) (R : RecordDb ρ)
  -- the time of the system when so many messages have been sent
  (clock : ℕ → Int64)

/-- `send_msg` -/
def sendMsg (c : QwebClient δ ρ) (sjson : Str) : QwebClient δ ρ := { c with sent := c.sent ++ [sjson] }

def emit (c : QwebClient δ ρ) (s : Signal) : QwebClient δ ρ := { c with signals := c.signals ++ [s] }

/-- The friends in the text of a list; entries that cannot be read are left out. -/
def vecFriends (svecFriendsInfo : Str) : List FriendsInit :=
  (getJsonVec J svecFriendsInfo).filterMap (getFriendsInfoJson J)

/-- Call a member of `sqlite_history`. -/
def onHistory (c : QwebClient δ ρ) (f : δ → Outcome (Bool × δ)) : Outcome (Bool × QwebClient δ ρ) :=
  (f c.dbh).map fun r => (r.1, { c with dbh := r.2 })

/-- Call a member of `sqlite_record`. -/
def onRecord (c : QwebClient δ ρ) (f : ρ → Outcome (Bool × ρ)) : Outcome (Bool × QwebClient δ ρ) :=
  (f c.dbr).map fun r => (r.1, { c with dbr := r.2 })

/-- The tables of the friends of a login. -/
def createTables (friends : List FriendsInit) (c : QwebClient δ ρ) : Outcome (QwebClient δ ρ) :=
  friends.foldlM (fun c ct => (c.onHistory (H.createHistory ct.friends)).map Prod.snd) c

/-- What a login does, once its message is read. -/
def acLoginBack (m : AcLoginBack) (c : QwebClient δ ρ) : Outcome (QwebClient δ ρ) := do
  let (_, c) ← c.onHistory (H.openHistory m.account)
  let (_, c) ← c.onRecord (R.openRecord m.account)
  let vec := vecFriends J m.svecFriendsInfo
  let c ← createTables H vec c
  let c := c.emit (.acLogin m.account m.nickname m.icon vec)
  let s ← setSwapCache J m.account
  .ok (c.sendMsg s)

/-- What a friend request does. -/
def swapFriensAdd (m : FriendAdd) (c : QwebClient δ ρ) : Outcome (QwebClient δ ρ) := do
  let (ok, c) ← c.onRecord (R.insertRecord m.friends ⟨m.time, m.account, m.notes, m.remarks⟩)
  .ok (if ok then c.emit .friendsAdd else c)

/-- What a chat message does: it is stored, signalled and confirmed, whether it could
    be stored or not. -/
def swapMsg (m : SwapMsg) (c : QwebClient δ ρ) : Outcome (QwebClient δ ρ) := do
  let (_, c) ← c.onHistory (H.insertHistory m.source m.row)
  let c := c.emit (.recvMsg m)
  let timeOk := clock c.sent.length
  let s ← setSwapMsgBack J ⟨m.source, m.target, m.timeTo, timeOk⟩
  .ok (c.sendMsg s)

/-- What a receipt does. -/
def swapMsgBack (m : SwapMsgBack) (c : QwebClient δ ρ) : Outcome (QwebClient δ ρ) :=
  (c.onHistory (H.updateFeedBack m.source m.timeTo m.timeOk)).map Prod.snd

/-- The handlers that only signal what they read. -/
def signalled {α : Type} (r : Outcome (Option α)) (s : α → Signal) (c : QwebClient δ ρ) :
    Outcome (QwebClient δ ρ) :=
  r.map fun m => m.elim c fun m => c.emit (s m)

/-- A handler: the message is read, and ignored if that fails. -/
def handled {α : Type} (r : Outcome (Option α))
    (f : α → QwebClient δ ρ → Outcome (QwebClient δ ρ)) (c : QwebClient δ ρ) :
    Outcome (QwebClient δ ρ) :=
  r >>= fun m => m.elim (.ok c) fun m => f m c

def taskAcLoginBack (sjson : Str) : QwebClient δ ρ → Outcome (QwebClient δ ρ) :=
  handled (getAcLoginBack J sjson) (acLoginBack J H R)

def taskAcRegisterBack (sjson : Str) : QwebClient δ ρ → Outcome (QwebClient δ ρ) :=
  signalled (getAcRegisterBack J sjson) fun m => .acRegister m.1 m.2.1 m.2.2

def taskSwapFriensAdd (sjson : Str) : QwebClient δ ρ → Outcome (QwebClient δ ρ) :=
  handled (getSwapFriensAdd J sjson) (swapFriensAdd R)

/-- The friends are announced; no table is created. -/
def taskAcUpdateFriendsBack (sjson : Str) : QwebClient δ ρ → Outcome (QwebClient δ ρ) :=
  signalled (getAcUpdateFriendsBack J sjson) fun m => .updateFriends (vecFriends J m)

def taskAcInfoAllBack (sjson : Str) : QwebClient δ ρ → Outcome (QwebClient δ ρ) :=
  signalled (getAcInfoAllBack J sjson) fun m => .acInfoAll m.1 m.2

def taskAcUpdateInfoBack (sjson : Str) : QwebClient δ ρ → Outcome (QwebClient δ ρ) :=
  signalled (getAcUpdateInfoBack J sjson) fun m => .updateInfo m.2.1 m.2.2

def taskAcUpdateRemarksBack (sjson : Str) : QwebClient δ ρ → Outcome (QwebClient δ ρ) :=
  signalled (getAcUpdateRemarksBack J sjson) fun m => .updateRemarks m.2.1 m.2.2

def taskSwapMsg (sjson : Str) : QwebClient δ ρ → Outcome (QwebClient δ ρ) :=
  handled (getSwapMsg J sjson) (swapMsg J H clock)

def taskSwapMsgBack (sjson : Str) : QwebClient δ ρ → Outcome (QwebClient δ ρ) :=
  handled (getSwapMsgBack J sjson) (swapMsgBack H)

/-- The message is only logged. -/
def taskErrorInfo (sjson : Str) (c : QwebClient δ ρ) : Outcome (QwebClient δ ρ) :=
  (getErrorInfo J sjson).map fun _ => c

/-- The handlers, but for that of the cache. -/
def runTask (t : Task) (sjson : Str) (c : QwebClient δ ρ) : Outcome (QwebClient δ ρ) :=
  match t with
  | .acLoginBack => taskAcLoginBack J H R sjson c
  | .acRegisterBack => taskAcRegisterBack J sjson c
  | .acInfoAllBack => taskAcInfoAllBack J sjson c
  | .acUpdateInfoBack => taskAcUpdateInfoBack J sjson c
  | .acUpdateRemarksBack => taskAcUpdateRemarksBack J sjson c
  | .acUpdateFriendsBack => taskAcUpdateFriendsBack J sjson c
  | .swapFriensAdd => taskSwapFriensAdd J R sjson c
  | .swapMsg => taskSwapMsg J H clock sjson c
  | .swapMsgBack => taskSwapMsgBack J H sjson c
  | .errorInfo => taskErrorInfo J sjson c
  | .swapCacheBack => .ok c

/-- `ask_swap_msg`: the message is sent if it could be stored. -/
def askSwapMsg (msg : SwapMsg) (c : QwebClient δ ρ) : Outcome (QwebClient δ ρ) := do
  let (ok, c) ← c.onHistory (H.insertHistory msg.target (outgoingRow msg.timeTo msg.types msg.content))
  if ok then
    let sjson ← setSwapMsg J msg
    .ok (c.sendMsg sjson)
  else .ok c

end

/-! ## What the handlers do -/

section
variable {δ ρ : Type} {J : JsonLib} {H : HistoryDb δ} {R : RecordDb ρ} {clock : ℕ → Int64}
  {c c' : QwebClient δ ρ}

theorem onHistory_eq_ok {f : δ → Outcome (Bool × δ)} {r : Bool × QwebClient δ ρ} :
    c.onHistory f = .ok r ↔ ∃ d, f c.dbh = .ok (r.1, d) ∧ r.2 = { c with dbh := d } := by
  unfold onHistory
  cases hf : f c.dbh with
  | error e => simp [Except.map]
  | ok q =>
    obtain ⟨b, d⟩ := q
    obtain ⟨b', c'⟩ := r
    simp only [Except.map, Except.ok.injEq, Prod.mk.injEq]
    constructor
    · rintro ⟨rfl, rfl⟩
      exact ⟨d, ⟨rfl, rfl⟩, rfl⟩
    · rintro ⟨d', ⟨rfl, rfl⟩, rfl⟩
      exact ⟨rfl, rfl⟩

theorem onRecord_eq_ok {f : ρ → Outcome (Bool × ρ)} {r : Bool × QwebClient δ ρ} :
    c.onRecord f = .ok r ↔ ∃ d, f c.dbr = .ok (r.1, d) ∧ r.2 = { c with dbr := d } := by
  unfold onRecord
  cases hf : f c.dbr with
  | error e => simp [Except.map]
  | ok q =>
    obtain ⟨b, d⟩ := q
    obtain ⟨b', c'⟩ := r
    simp only [Except.map, Except.ok.injEq, Prod.mk.injEq]
    constructor
    · rintro ⟨rfl, rfl⟩
      exact ⟨d, ⟨rfl, rfl⟩, rfl⟩
    · rintro ⟨d', ⟨rfl, rfl⟩, rfl⟩
      exact ⟨rfl, rfl⟩

/-- The tables of a login, on the history alone. -/
def createAll (H : HistoryDb δ) (friends : List FriendsInit) (d : δ) : Outcome δ :=
  friends.foldlM (fun d ct => (H.createHistory ct.friends d).map Prod.snd) d

theorem createTables_eq (friends : List FriendsInit) (c : QwebClient δ ρ) :
    createTables H friends c = (createAll H friends c.dbh).map fun d => { c with dbh := d } := by
  unfold createTables createAll
  induction friends generalizing c with
  | nil => rfl
  | cons ct friends ih =>
    rw [List.foldlM_cons, List.foldlM_cons]
    unfold onHistory
    cases H.createHistory ct.friends c.dbh with
    | error e => rfl
    | ok r => exact ih { c with dbh := r.2 }

/-- **A login**: the files are opened, the tables created, the friends announced, and
    the cache asked for. -/
theorem acLoginBack_eq_ok {m : AcLoginBack} :
    acLoginBack J H R m c = .ok c' ↔
    ∃ b d b' r d' s, H.openHistory m.account c.dbh = .ok (b, d) ∧
      R.openRecord m.account c.dbr = .ok (b', r) ∧
      createAll H (vecFriends J m.svecFriendsInfo) d = .ok d' ∧
      setSwapCache J m.account = .ok s ∧
      c' = ⟨d', r, c.sent ++ [s], c.signals ++
        [.acLogin m.account m.nickname m.icon (vecFriends J m.svecFriendsInfo)]⟩ := by
  constructor
  · intro h
    obtain ⟨⟨b, c₁⟩, h₁, h⟩ := bind_eq_ok.1 h
    obtain ⟨⟨b', c₂⟩, h₂, h⟩ := bind_eq_ok.1 h
    obtain ⟨c₃, h₃, h⟩ := bind_eq_ok.1 h
    obtain ⟨s, hs, h⟩ := bind_eq_ok.1 h
    obtain ⟨d, hd, rfl⟩ := onHistory_eq_ok.1 h₁
    obtain ⟨r, hr, rfl⟩ := onRecord_eq_ok.1 h₂
    rw [createTables_eq] at h₃
    cases hd' : createAll H (vecFriends J m.svecFriendsInfo) d with
    | error e => rw [hd'] at h₃; cases h₃
    | ok d' =>
      rw [hd'] at h₃
      obtain rfl := Except.ok.inj h₃
      exact ⟨b, d, b', r, d', s, hd, hr, hd', hs, (Except.ok.inj h).symm⟩
  · rintro ⟨b, d, b', r, d', s, hd, hr, hd', hs, rfl⟩
    refine bind_eq_ok.2 ⟨(b, { c with dbh := d }), onHistory_eq_ok.2 ⟨d, hd, rfl⟩, ?_⟩
    refine bind_eq_ok.2 ⟨(b', { c with dbh := d, dbr := r }), onRecord_eq_ok.2 ⟨r, hr, rfl⟩, ?_⟩
    refine bind_eq_ok.2 ⟨{ c with dbh := d', dbr := r }, ?_, ?_⟩
    · rw [createTables_eq, hd']
      rfl
    · exact bind_eq_ok.2 ⟨s, hs, rfl⟩

/-- **A friend request.** -/
theorem swapFriensAdd_eq_ok {m : FriendAdd} :
    swapFriensAdd R m c = .ok c' ↔
      ∃ b r, R.insertRecord m.friends ⟨m.time, m.account, m.notes, m.remarks⟩ c.dbr = .ok (b, r) ∧
        c' = { c with dbr := r, signals := if b then c.signals ++ [.friendsAdd] else c.signals } := by
  constructor
  · intro h
    obtain ⟨⟨b, c₁⟩, h₁, h⟩ := bind_eq_ok.1 h
    obtain ⟨r, hr, rfl⟩ := onRecord_eq_ok.1 h₁
    refine ⟨b, r, hr, (Except.ok.inj h).symm.trans ?_⟩
    cases b <;> rfl
  · rintro ⟨b, r, hr, rfl⟩
    refine bind_eq_ok.2 ⟨(b, { c with dbr := r }), onRecord_eq_ok.2 ⟨r, hr, rfl⟩, ?_⟩
    cases b <;> rfl

/-- **A chat message.** -/
theorem swapMsg_eq_ok {m : SwapMsg} (h : swapMsg J H clock m c = .ok c') :
    ∃ b d s, H.insertHistory m.source m.row c.dbh = .ok (b, d) ∧
      setSwapMsgBack J ⟨m.source, m.target, m.timeTo, clock c.sent.length⟩ = .ok s ∧
      c' = { c with dbh := d, signals := c.signals ++ [.recvMsg m], sent := c.sent ++ [s] } := by
  obtain ⟨⟨b, c₁⟩, h₁, h⟩ := bind_eq_ok.1 h
  obtain ⟨d, hd, rfl⟩ := onHistory_eq_ok.1 h₁
  obtain ⟨s, hs, h⟩ := bind_eq_ok.1 h
  exact ⟨b, d, s, hd, hs, (Except.ok.inj h).symm⟩

/-- A handler of a message that can be read. -/
theorem handled_some {α : Type} {r : Outcome (Option α)} {m : α} (hr : r = .ok (some m))
    (f : α → QwebClient δ ρ → Outcome (QwebClient δ ρ)) (c : QwebClient δ ρ) :
    handled r f c = f m c := by
  rw [hr]
  rfl

end

/-! ## Texts within texts -/

section
variable {J : JsonLib} {t svec a : Str}

theorem size_le_of_index {js v : Json} {k : Str} (h : index js k = some v) : v.size ≤ js.size := by
  cases js with
  | obj fs =>
    simp only [index, Option.some.injEq] at h
    cases hf : find fs k with
    | none => rw [hf] at h; rw [← h]; exact Nat.zero_le _
    | some v' =>
      rw [hf] at h
      rw [← h]
      exact size_le_of_find hf
  | null =>
    simp only [index, Option.some.injEq] at h
    rw [← h]
  | _ => simp [index] at h

theorem length_lt_of_getString {j : Json} {s : Str} (h : getString j = some s) :
    s.length < j.size := by
  cases j with
  | str s' =>
    simp only [getString, Option.some.injEq] at h
    rw [← h]
    exact Nat.lt_succ_self _
  | _ => simp [getString] at h

/-- The text in a message of the cache is shorter than the message. -/
theorem getSwapCacheBack_length (h : getSwapCacheBack J t = .ok (some svec)) :
    svec.length < t.length := by
  unfold getSwapCacheBack csGet parse at h
  cases hp : J.parse t with
  | none => rw [hp] at h; cases h
  | some js =>
    rw [hp] at h
    have hbody := Except.ok.inj h
    obtain ⟨v, hv, hs⟩ := Option.bind_eq_some_iff.1 hbody
    have hsize : v.size ≤ js.size := by
      unfold getExtend at hv
      cases hi : index js (lit "extend") with
      | none => rw [hi] at hv; cases hv
      | some e =>
        rw [hi] at hv
        have hle := size_le_of_index hi
        cases e with
        | obj fs =>
          have hindex : index (.obj fs) (lit "svec_sjson") = some v := hv
          exact (size_le_of_index hindex).trans hle
        | _ => cases hv
    exact lt_of_lt_of_le (length_lt_of_getString hs) (hsize.trans (J.parse_size hp))

theorem exists_of_mem_mapM {js : List Json} {l : List Str} (hm : js.mapM getString = some l)
    (ha : a ∈ l) : ∃ j ∈ js, getString j = some a := by
  induction js generalizing l with
  | nil =>
    obtain rfl := Option.some.inj hm
    cases ha
  | cons j js ih =>
    rw [List.mapM_cons] at hm
    obtain ⟨b, hb, hm⟩ := Option.bind_eq_some_iff.1 hm
    obtain ⟨l', hl', hm⟩ := Option.bind_eq_some_iff.1 hm
    obtain rfl := Option.some.inj hm
    rcases List.mem_cons.1 ha with rfl | ha
    · exact ⟨j, List.mem_cons_self, hb⟩
    · obtain ⟨j', hj', hs⟩ := ih hl' ha
      exact ⟨j', List.mem_cons_of_mem _ hj', hs⟩

/-- The texts in a list are shorter than the list. -/
theorem getJsonVec_length (h : a ∈ getJsonVec J svec) : a.length < svec.length := by
  unfold getJsonVec at h
  split at h
  · rename_i js hjs
    obtain ⟨doc, hp, hi⟩ := Option.bind_eq_some_iff.1 hjs
    cases hm : js.mapM getString with
    | none => rw [hm] at h; cases h
    | some l =>
      rw [hm, Option.getD_some] at h
      obtain ⟨j, hj, hs⟩ := exists_of_mem_mapM hm h
      have hle := (size_le_of_mem hj).trans ((size_le_of_index hi).trans (J.parse_size hp))
      exact lt_of_lt_of_le (length_lt_of_getString hs) hle
  · cases h

end

/-! ## Received texts -/

section
variable {δ ρ : Type} (J : JsonLib) (H : HistoryDb δ) (R : RecordDb ρ) (clock : ℕ → Int64)

/-- The handler of a text, if it is a message for the client. -/
def route (sjson : Str) : Outcome (Option Task) :=
  (checkJson J sjson).map fun r => r.bind fun st =>
    if st.1 = streamSc ∨ st.1 = streamCc then mapFn st.2 else none

/-- `sl_message` -/
def slMessage (sjson : Str) (c : QwebClient δ ρ) : Outcome (QwebClient δ ρ) :=
  match route J sjson with
  | .error e => .error e
  | .ok none => .ok c
  | .ok (some .swapCacheBack) =>
    match _h : getSwapCacheBack J sjson with
    | .error e => .error e
    | .ok none => .ok c
    | .ok (some svec) => (getJsonVec J svec).attach.foldlM (fun c a => slMessage a.1 c) c
  | .ok (some task) => runTask J H R clock task sjson c
termination_by sjson.length
decreasing_by
  exact (getJsonVec_length a.2).trans (getSwapCacheBack_length _h)

/-- The messages in a text, in the order in which they are handled: each with its
    handler, or the fault that reading it ends with. -/
def leaves (sjson : Str) : List (Outcome (Task × Str)) :=
  match route J sjson with
  | .error e => [.error e]
  | .ok none => []
  | .ok (some .swapCacheBack) =>
    match _h : getSwapCacheBack J sjson with
    | .error e => [.error e]
    | .ok none => []
    | .ok (some svec) => (getJsonVec J svec).attach.flatMap fun a => leaves a.1
  | .ok (some task) => [.ok (task, sjson)]
termination_by sjson.length
decreasing_by
  exact (getJsonVec_length a.2).trans (getSwapCacheBack_length _h)

/-- Handle one of these messages. -/
def runLeaf (c : QwebClient δ ρ) (leaf : Outcome (Task × Str)) : Outcome (QwebClient δ ρ) :=
  leaf >>= fun l => runTask J H R clock l.1 l.2 c

variable {J H R clock}

theorem slMessage_of_task {t : Task} {sjson : Str} (hr : route J sjson = .ok (some t))
    (ht : t ≠ .swapCacheBack) (c : QwebClient δ ρ) :
    slMessage J H R clock sjson c = runTask J H R clock t sjson c := by
  rw [slMessage]
  cases t <;> first | exact absurd rfl ht | simp only [hr]

theorem leaves_of_task {t : Task} {sjson : Str} (hr : route J sjson = .ok (some t))
    (ht : t ≠ .swapCacheBack) : leaves J sjson = [.ok (t, sjson)] := by
  rw [leaves]
  cases t <;> first | exact absurd rfl ht | simp only [hr]

/-- The messages of a message of the cache. -/
theorem leaves_of_cache {sjson svec : Str} (hr : route J sjson = .ok (some .swapCacheBack))
    (hc : getSwapCacheBack J sjson = .ok (some svec)) :
    leaves J sjson = (getJsonVec J svec).flatMap (leaves J) := by
  have hattach : (getJsonVec J svec).attach.flatMap (fun a => leaves J a.1) =
      (getJsonVec J svec).flatMap (leaves J) := by
    conv_rhs => rw [← List.attach_map_subtype_val (getJsonVec J svec), List.flatMap_map]
  rw [leaves, ← hattach]
  simp only [hr]
  split
  · simp_all
  · simp_all
  · rename_i svec' h
    obtain rfl : svec' = svec := Option.some.inj (Except.ok.inj (h.symm.trans hc))
    rfl

/-- **A received text is handled message by message.** -/
theorem slMessage_eq (sjson : Str) (c : QwebClient δ ρ) :
    slMessage J H R clock sjson c = (leaves J sjson).foldlM (runLeaf J H R clock) c := by
  induction hn : sjson.length using Nat.strong_induction_on generalizing sjson c with
  | _ n ih =>
    rw [slMessage, leaves]
    cases hr : route J sjson with
    | error e => rfl
    | ok t =>
      cases t with
      | none => rfl
      | some t =>
        by_cases ht : t = .swapCacheBack
        · subst ht
          simp only
          split
          · rfl
          · rfl
          · rename_i svec hc
            have hlist : ∀ (l : List { a // a ∈ getJsonVec J svec }) (c : QwebClient δ ρ),
                l.foldlM (fun c a => slMessage J H R clock a.1 c) c =
                  (l.flatMap fun a => leaves J a.1).foldlM (runLeaf J H R clock) c := by
              intro l
              induction l with
              | nil => intro c; rfl
              | cons a l ihl =>
                intro c
                have hlt := (getJsonVec_length a.2).trans (getSwapCacheBack_length hc)
                rw [List.foldlM_cons, List.flatMap_cons, List.foldlM_append,
                  ih a.1.length (hn ▸ hlt) a.1 c rfl]
                exact congrArg _ (funext ihl)
            exact hlist _ c
        · cases t <;> first | exact absurd rfl ht | exact (bind_pure _).symm

/-- **The rule for what messages preserve.** -/
theorem slMessage_invariant {P : QwebClient δ ρ → Prop} {sjson : Str} {c c' : QwebClient δ ρ}
    (h : slMessage J H R clock sjson c = .ok c') (hc : P c)
    (hstep : ∀ l c c', .ok l ∈ leaves J sjson → P c → runTask J H R clock l.1 l.2 c = .ok c' → P c') :
    P c' := by
  rw [slMessage_eq] at h
  generalize leaves J sjson = ls at h hstep
  induction ls generalizing c with
  | nil =>
    obtain rfl := Except.ok.inj h
    exact hc
  | cons leaf ls ih =>
    rw [List.foldlM_cons] at h
    obtain ⟨c₁, h₁, h⟩ := bind_eq_ok.1 h
    obtain ⟨l, hl, hrun⟩ := bind_eq_ok.1 h₁
    exact ih (hstep l c c₁ (by simp [hl]) hc hrun) h fun l c c' hmem =>
      hstep l c c' (List.mem_cons_of_mem _ hmem)

/-! ## Messages that were written -/

theorem route_set {T : MsgType} {args : T.Args} {t : Str} (h : T.set J args = .ok t) :
    route J t = .ok (if T.stream = streamSc ∨ T.stream = streamCc then mapFn T.name else none) := by
  rw [route, MsgType.checkJson_set J h]
  rfl

theorem slMessage_acLoginBack {m : AcLoginBack} {t : Str} (h : setAcLoginBack J m = .ok t)
    (c : QwebClient δ ρ) : slMessage J H R clock t c = acLoginBack J H R m c := by
  have hset : MsgType.acLoginBack.set J m = .ok t := h
  rw [slMessage_of_task ((route_set hset).trans (by decide +kernel)) (t := .acLoginBack) (by decide)]
  exact handled_some (MsgType.get_set J hset) _ c

theorem slMessage_swapFriensAdd {m : FriendAdd} {t : Str} (h : setSwapFriensAdd J m = .ok t)
    (c : QwebClient δ ρ) : slMessage J H R clock t c = swapFriensAdd R m c := by
  have hset : MsgType.swapFriensAdd.set J m = .ok t := h
  rw [slMessage_of_task ((route_set hset).trans (by decide +kernel)) (t := .swapFriensAdd) (by decide)]
  exact handled_some (MsgType.get_set J hset) _ c

theorem slMessage_swapMsg {m : SwapMsg} {t : Str} (h : setSwapMsg J m = .ok t) (c : QwebClient δ ρ) :
    slMessage J H R clock t c = swapMsg J H clock m c := by
  have hset : MsgType.swapMsg.set J m = .ok t := h
  rw [slMessage_of_task ((route_set hset).trans (by decide +kernel)) (t := .swapMsg) (by decide)]
  exact handled_some (MsgType.get_set J hset) _ c

end

end QwebClient

end SimpleChat
