/-
  The messages of web_protocol.h: what is written is what is read.

  * `MsgType`: the types that `CS_MAKE_TYPE` declares, with their `set_` and
    `get_` functions;
  * `MsgType.checkJson_set`, `MsgType.get_set`: a message that is written is recognised,
    and read back;
  * `MsgType.routed_iff`: which messages between clients `check_swap` can route;
  * `frame_codec`: the frames of the file client.
-/
import SimpleChat.QwebFiles
import SimpleChat.Lib.JsonText

namespace SimpleChat

open Lib Lib.Json

/-! ## The declared types -/

/-- The types of messages. -/
inductive MsgType where
  | errorInfo | onlineStatus
  | acLogin | acLoginBack | acRegister | acRegisterBack | acInfoAll | acInfoAllBack
  | acUpdateInfo | acUpdateInfoBack | acUpdateRemarks | acUpdateRemarksBack
  | acUpdateFriends | acUpdateFriendsBack
  | swapCache | swapCacheBack | swapMsg | swapMsgBack | swapFriensAdd
  | filesCreateUpload | filesCreateUploadBack | filesBeginUpload | filesBeginUploadBack
  | filesFinishUpload | filesFinishUploadBack
  | filesCreateDownload | filesCreateDownloadBack | filesBeginDownload | filesBeginDownloadBack
  | filesFinishDownload | filesFinishDownloadBack
  deriving DecidableEq, Repr

namespace MsgType

/-- All the types. -/
def all : List MsgType :=
  [errorInfo, onlineStatus, acLogin, acLoginBack, acRegister, acRegisterBack, acInfoAll,
    acInfoAllBack, acUpdateInfo, acUpdateInfoBack, acUpdateRemarks, acUpdateRemarksBack,
    acUpdateFriends, acUpdateFriendsBack, swapCache, swapCacheBack, swapMsg, swapMsgBack,
    swapFriensAdd, filesCreateUpload, filesCreateUploadBack, filesBeginUpload, filesBeginUploadBack,
    filesFinishUpload, filesFinishUploadBack, filesCreateDownload, filesCreateDownloadBack,
    filesBeginDownload, filesBeginDownloadBack, filesFinishDownload, filesFinishDownloadBack]

theorem mem_all (T : MsgType) : T ∈ all := by
  cases T <;> decide

/-- The declared name. -/
def name : MsgType → Str
  | errorInfo => lit "error_info"
  | onlineStatus => lit "online_status"
  | acLogin => lit "ac_login"
  | acLoginBack => lit "ac_login_back"
  | acRegister => lit "ac_register"
  | acRegisterBack => lit "ac_register_back"
  | acInfoAll => lit "ac_info_all"
  | acInfoAllBack => lit "ac_info_all_back"
  | acUpdateInfo => lit "ac_update_info"
  | acUpdateInfoBack => lit "ac_update_info_back"
  | acUpdateRemarks => lit "ac_update_remarks"
  | acUpdateRemarksBack => lit "ac_update_remarks_back"
  | acUpdateFriends => lit "ac_update_friends"
  | acUpdateFriendsBack => lit "ac_update_friends_back"
  | swapCache => lit "swap_cache"
  | swapCacheBack => lit "swap_cache_back"
  | swapMsg => lit "swap_msg"
  | swapMsgBack => lit "swap_msg_back"
  | swapFriensAdd => lit "swap_friens_add"
  | filesCreateUpload => lit "files_create_upload"
  | filesCreateUploadBack => lit "files_create_upload_back"
  | filesBeginUpload => lit "files_begin_upload"
  | filesBeginUploadBack => lit "files_begin_upload_back"
  | filesFinishUpload => lit "files_finish_upload"
  | filesFinishUploadBack => lit "files_finish_upload_back"
  | filesCreateDownload => lit "files_create_download"
  | filesCreateDownloadBack => lit "files_create_download_back"
  | filesBeginDownload => lit "files_begin_download"
  | filesBeginDownloadBack => lit "files_begin_download_back"
  | filesFinishDownload => lit "files_finish_download"
  | filesFinishDownloadBack => lit "files_finish_download_back"

/-- The declared stream. -/
def stream : MsgType → Str
  | errorInfo | onlineStatus | acLoginBack | acRegisterBack | acInfoAllBack | acUpdateInfoBack
  | acUpdateRemarksBack | acUpdateFriendsBack | swapCacheBack | filesCreateUploadBack
  | filesBeginUploadBack | filesFinishUploadBack | filesCreateDownloadBack | filesBeginDownloadBack
  | filesFinishDownloadBack => streamSc
  | acLogin | acRegister | acInfoAll | acUpdateInfo | acUpdateRemarks | acUpdateFriends | swapCache
  | filesCreateUpload | filesBeginUpload | filesFinishUpload | filesCreateDownload
  | filesBeginDownload | filesFinishDownload => streamCs
  | swapMsg | swapMsgBack | swapFriensAdd => streamCc

/-- The arguments. -/
abbrev Args : MsgType → Type
  | errorInfo => Int32 × Str
  | onlineStatus => Int64 × Bool
  | acLogin => Int64 × Str
  | acLoginBack => AcLoginBack
  | acRegister => AcRegister
  | acRegisterBack => Int64 × Str × Bool
  | acInfoAll => Int64 × Int64
  | acInfoAllBack => Int64 × AcInfo
  | acUpdateInfo => AcInfo
  | acUpdateInfoBack => Int64 × Str × Bool
  | acUpdateRemarks | acUpdateRemarksBack => Int64 × Int64 × Str
  | acUpdateFriends => AcUpdateFriends
  | acUpdateFriendsBack => Str
  | swapCache => Int64
  | swapCacheBack => Str
  | swapMsg => SwapMsg
  | swapMsgBack => SwapMsgBack
  | swapFriensAdd => FriendAdd
  | filesCreateUpload => Int64 × Str × Str
  | filesCreateUploadBack => FilesCreateUploadBack
  | filesBeginUpload | filesBeginUploadBack | filesBeginDownload | filesBeginDownloadBack => Int64
  | filesFinishUpload | filesFinishUploadBack | filesFinishDownload | filesFinishDownloadBack =>
    Int64 × Bool
  | filesCreateDownload => Str × Str
  | filesCreateDownloadBack => FilesCreateDownloadBack

/-- The arguments that are strings. -/
def strings : (T : MsgType) → T.Args → List Str
  | errorInfo | acLogin => fun m => [m.2]
  | acLoginBack => fun m => [m.nickname, m.icon, m.svecFriendsInfo]
  | acRegister => fun m => [m.nickname, m.location, m.passwd]
  | acRegisterBack | acUpdateInfoBack => fun m => [m.2.1]
  | acInfoAllBack => fun m => [m.2.nickname, m.2.location, m.2.icon]
  | acUpdateInfo => fun m => [m.nickname, m.location, m.icon]
  | acUpdateRemarks | acUpdateRemarksBack => fun m => [m.2.2]
  | acUpdateFriends => fun m => [m.acRemarks, m.frRemarks]
  | acUpdateFriendsBack | swapCacheBack => fun m => [m]
  | swapMsg => fun m => [m.types, m.content]
  | swapFriensAdd => fun m => [m.notes, m.remarks]
  | filesCreateUpload => fun m => [m.2.1, m.2.2]
  | filesCreateUploadBack => fun m => [m.absFile]
  | filesCreateDownload => fun m => [m.1, m.2]
  | filesCreateDownloadBack => fun m => [m.absPath, m.savePath]
  | onlineStatus | acInfoAll | swapCache | swapMsgBack | filesBeginUpload | filesBeginUploadBack
  | filesFinishUpload | filesFinishUploadBack | filesBeginDownload | filesBeginDownloadBack
  | filesFinishDownload | filesFinishDownloadBack => fun _ => []

section
variable (J : JsonLib)

/-- `set_` of the type -/
def set : (T : MsgType) → T.Args → Outcome Str
  | errorInfo, (error, info) => setErrorInfo J error info
  | onlineStatus, (acFriend, online) => setOnlineStatus J acFriend online
  | acLogin, (account, passwd) => setAcLogin J account passwd
  | acLoginBack, m => setAcLoginBack J m
  | acRegister, m => setAcRegister J m
  | acRegisterBack, (account, passwd, ok) => setAcRegisterBack J account passwd ok
  | acInfoAll, (types, account) => setAcInfoAll J types account
  | acInfoAllBack, (types, m) => setAcInfoAllBack J types m
  | acUpdateInfo, m => setAcUpdateInfo J m
  | acUpdateInfoBack, (account, icon, ok) => setAcUpdateInfoBack J account icon ok
  | acUpdateRemarks, (account, friends, remarks) => setAcUpdateRemarks J account friends remarks
  | acUpdateRemarksBack, (account, friends, remarks) =>
    setAcUpdateRemarksBack J account friends remarks
  | acUpdateFriends, m => setAcUpdateFriends J m
  | acUpdateFriendsBack, sjsonInfo => setAcUpdateFriendsBack J sjsonInfo
  | swapCache, target => setSwapCache J target
  | swapCacheBack, svecSjson => setSwapCacheBack J svecSjson
  | swapMsg, m => setSwapMsg J m
  | swapMsgBack, m => setSwapMsgBack J m
  | swapFriensAdd, m => setSwapFriensAdd J m
  | filesCreateUpload, (lengthFile, absFile, saveFile) =>
    setFilesCreateUpload J lengthFile absFile saveFile
  | filesCreateUploadBack, m => setFilesCreateUploadBack J m
  | filesBeginUpload, id => setFilesBeginUpload J id
  | filesBeginUploadBack, id => setFilesBeginUploadBack J id
  | filesFinishUpload, (id, finish) => setFilesFinishUpload J id finish
  | filesFinishUploadBack, (id, ok) => setFilesFinishUploadBack J id ok
  | filesCreateDownload, (absPath, savePath) => setFilesCreateDownload J absPath savePath
  | filesCreateDownloadBack, m => setFilesCreateDownloadBack J m
  | filesBeginDownload, id => setFilesBeginDownload J id
  | filesBeginDownloadBack, id => setFilesBeginDownloadBack J id
  | filesFinishDownload, (id, ok) => setFilesFinishDownload J id ok
  | filesFinishDownloadBack, (id, ok) => setFilesFinishDownloadBack J id ok

/-- `get_` of the type -/
def get : (T : MsgType) → Str → Outcome (Option T.Args)
  | errorInfo => getErrorInfo J
  | onlineStatus => getOnlineStatus J
  | acLogin => getAcLogin J
  | acLoginBack => getAcLoginBack J
  | acRegister => getAcRegister J
  | acRegisterBack => getAcRegisterBack J
  | acInfoAll => getAcInfoAll J
  | acInfoAllBack => getAcInfoAllBack J
  | acUpdateInfo => getAcUpdateInfo J
  | acUpdateInfoBack => getAcUpdateInfoBack J
  | acUpdateRemarks => getAcUpdateRemarks J
  | acUpdateRemarksBack => getAcUpdateRemarksBack J
  | acUpdateFriends => getAcUpdateFriends J
  | acUpdateFriendsBack => getAcUpdateFriendsBack J
  | swapCache => getSwapCache J
  | swapCacheBack => getSwapCacheBack J
  | swapMsg => getSwapMsg J
  | swapMsgBack => getSwapMsgBack J
  | swapFriensAdd => getSwapFriensAdd J
  | filesCreateUpload => getFilesCreateUpload J
  | filesCreateUploadBack => getFilesCreateUploadBack J
  | filesBeginUpload => getFilesBeginUpload J
  | filesBeginUploadBack => getFilesBeginUploadBack J
  | filesFinishUpload => getFilesFinishUpload J
  | filesFinishUploadBack => getFilesFinishUploadBack J
  | filesCreateDownload => getFilesCreateDownload J
  | filesCreateDownloadBack => getFilesCreateDownloadBack J
  | filesBeginDownload => getFilesBeginDownload J
  | filesBeginDownloadBack => getFilesBeginDownloadBack J
  | filesFinishDownload => getFilesFinishDownload J
  | filesFinishDownloadBack => getFilesFinishDownloadBack J

end

/-- The four lists of a declaration agree: `set_` writes fields with different
    names, each of them a converted argument, and `get_` reads the arguments from
    any document that has these fields. -/
structure Agrees (J : JsonLib) (T : MsgType) (args : T.Args) (fields : List (Str × Json)) : Prop where
  set_eq : T.set J args = csSet J T.stream T.name fields
  nodup : (fields.map Prod.fst).Nodup
  keys : (fields.map Prod.fst).all validUtf8 = true
  plain : ∀ f ∈ fields, f.2.Plain
  utf8 : (∀ s ∈ T.strings args, validUtf8 s = true) → ∀ f ∈ fields, f.2.Utf8 = true
  get_eq : ∀ t js, J.parse t = some js → (∀ f ∈ fields, getExtend js f.1 = some f.2) →
    T.get J t = .ok (some args)

theorem csGet_of_parse {J : JsonLib} {α : Type} {t : Str} {js : Json} {body : Json → Option α}
    (h : J.parse t = some js) : csGet J t body = .ok (body js) := by
  simp only [csGet, parse, h]
  rfl

theorem agrees (J : JsonLib) (T : MsgType) (args : T.Args) : ∃ fields, Agrees J T args fields := by
  have hutf8 : ∀ v : Int64, (int64Field v).Utf8 = true := fun _ => rfl
  have hutf8' : ∀ v : Int32, (intField v).Utf8 = true := fun _ => rfl
  cases T
  all_goals
    refine ⟨_, rfl, ?_, ?_, ?_, ?_, ?_⟩
    · simp only [List.map_cons, List.map_nil]; decide
    · simp only [List.map_cons, List.map_nil]; decide +kernel
    · simp [plain_int64Field, plain_intField, Plain]
    · simp +contextual [strings, Json.Utf8, hutf8, hutf8']
    · intro t js hp h
      simp only [List.forall_mem_cons, List.not_mem_nil, false_imp_iff, implies_true, and_true] at h
      refine (csGet_of_parse hp).trans ?_
      simp only [h, Option.bind_some, getInt64_int64Field, getInt_intField, getString, getBool, bind]

theorem name_injective {T T' : MsgType} (h : T.name = T'.name) : T = T' := by
  have key : ∀ T ∈ all, ∀ T' ∈ all, T.name = T'.name → T = T' := by decide +kernel
  exact key T (mem_all T) T' (mem_all T') h

theorem name_inj {T T' : MsgType} : T.name = T'.name ↔ T = T' := ⟨name_injective, congrArg name⟩

/-- The handler that a map of handlers for the given types has for a name. -/
def dispatch (handled : List MsgType) (type : Str) : Option MsgType :=
  handled.find? fun T => T.name == type

theorem dispatch_name (handled : List MsgType) (T : MsgType) :
    dispatch handled T.name = if T ∈ handled then some T else none := by
  have hname : ∀ U : MsgType, (U.name == T.name) = (U == T) := by
    intro U
    rw [Bool.eq_iff_iff, beq_iff_eq, beq_iff_eq, name_inj]
  simp only [dispatch, hname]
  split_ifs with h
  · have hsome : (handled.find? fun U => U == T).isSome = true :=
      List.find?_isSome.2 ⟨T, h, beq_self_eq_true T⟩
    obtain ⟨U, hU⟩ := Option.isSome_iff_exists.1 hsome
    have hUT := List.find?_some hU
    rw [hU, beq_iff_eq.1 hUT]
  · exact List.find?_eq_none.2 fun U hU he => h (beq_iff_eq.1 he ▸ hU)

variable (J : JsonLib)

theorem checkJson_set {T : MsgType} {args : T.Args} {t : Str} (h : T.set J args = .ok t) :
    checkJson J t = .ok (some (T.stream, T.name)) := by
  obtain ⟨fields, hT⟩ := agrees J T args
  exact checkJson_csSet hT.plain (hT.set_eq ▸ h)

theorem get_set {T : MsgType} {args : T.Args} {t : Str} (h : T.set J args = .ok t) :
    T.get J t = .ok (some args) := by
  obtain ⟨fields, hT⟩ := agrees J T args
  obtain ⟨js, hparse, hjs⟩ := getExtend_csSet hT.plain hT.nodup (hT.set_eq ▸ h)
  exact hT.get_eq t js hparse hjs

theorem exists_set (T : MsgType) (args : T.Args) (h : ∀ s ∈ T.strings args, validUtf8 s = true) :
    ∃ t, T.set J args = .ok t := by
  obtain ⟨fields, hT⟩ := agrees J T args
  have hdecl : ∀ U ∈ all, validUtf8 U.stream = true ∧ validUtf8 U.name = true := by decide +kernel
  rw [hT.set_eq]
  refine csSet_utf8 (hdecl T (mem_all T)).1 (hdecl T (mem_all T)).2 hT.plain fun f hf => ⟨?_, hT.utf8 h f hf⟩
  exact List.all_eq_true.1 hT.keys _ (List.mem_map_of_mem hf)

/-! ## Messages between clients -/

/-- The account a message between clients is for, and the account it comes from. -/
def route : (T : MsgType) → T.Args → Option (Int64 × Int64)
  | swapMsg => fun m => some (m.target, m.source)
  | swapMsgBack => fun m => some (m.target, m.source)
  | swapFriensAdd => fun m => some (m.friends, m.account)
  | _ => fun _ => none

variable {J}

theorem checkSwap_eq {t : Str} {js a b : Json} (h : J.parse t = some js)
    (ha : getExtend js (lit "target") = some a) (hb : getExtend js (lit "source") = some b) :
    checkSwap J t = (getInt64 a).bind fun target => (getInt64 b).bind fun source =>
      some (target, source) := by
  unfold getExtend at ha hb
  split at ha
  · rename_i tm hextend
    rw [hextend] at hb
    have hfield : ∀ k, index (.obj tm) k = some ((find tm k).getD .null) := fun _ => rfl
    simp only [Option.some.injEq] at ha hb
    simp only [checkSwap, h, hextend, hfield, ha, hb, Option.bind_eq_bind, Option.bind_some]
  · cases ha

/-- The accounts of a written message are read back. -/
theorem checkSwap_csSet {stream type t : Str} {target source : Int64} {fields : List (Str × Json)}
    (hf : ∀ f ∈ (lit "target", int64Field target) :: (lit "source", int64Field source) :: fields,
      f.2.Plain)
    (hnodup : (lit "target" :: lit "source" :: fields.map Prod.fst).Nodup)
    (h : csSet J stream type ((lit "target", int64Field target) ::
      (lit "source", int64Field source) :: fields) = .ok t) :
    checkSwap J t = some (target, source) := by
  obtain ⟨js, hparse, hjs⟩ := getExtend_csSet hf hnodup h
  simp only [List.forall_mem_cons] at hjs
  rw [checkSwap_eq hparse hjs.1 hjs.2.1, getInt64_int64Field, getInt64_int64Field]
  rfl

/-- A friend request has no field `target`. -/
theorem checkSwap_friensAdd {m : FriendAdd} {t : Str} (h : setSwapFriensAdd J m = .ok t) :
    checkSwap J t = none := by
  have hparse := parse_csSet (by simp [plain_int64Field, Plain]) h
  refine (checkSwap_eq hparse (getExtend_docWith _ _) (getExtend_docWith _ _)).trans ?_
  rw [sortFields, find_foldl_of_notMem (by simp only [List.map_cons, List.map_nil]; decide)]
  rfl

variable (J)

/-- **Routing.**  `check_swap` finds the receiver and the sender of a message
    between clients unless it is a friend request, which names them otherwise. -/
theorem routed_iff {T : MsgType} {args : T.Args} {t : Str} (hcc : T.stream = streamCc)
    (h : T.set J args = .ok t) :
    (∃ r, T.route args = some r ∧ checkSwap J t = some r) ↔ T ≠ swapFriensAdd := by
  cases T
  case swapMsg =>
    have hswap := checkSwap_csSet (by simp [plain_int64Field, Plain])
      (by simp only [List.map_cons, List.map_nil]; decide) h
    exact ⟨fun _ he => (by cases he), fun _ => ⟨_, rfl, hswap⟩⟩
  case swapMsgBack =>
    have hswap := checkSwap_csSet (by simp [plain_int64Field])
      (by simp only [List.map_cons, List.map_nil]; decide) h
    exact ⟨fun _ he => (by cases he), fun _ => ⟨_, rfl, hswap⟩⟩
  case swapFriensAdd =>
    refine ⟨fun hr => ?_, fun hne => absurd rfl hne⟩
    obtain ⟨r, -, hr⟩ := hr
    rw [checkSwap_friensAdd h] at hr
    cases hr
  all_goals exact absurd hcc (by decide)

theorem routed_iff_swapMsg : ∃ t, swapMsg.set jsonText ⟨2, 1, 9, lit "Text", lit "hi"⟩ = .ok t ∧
    ((∃ r, route swapMsg ⟨2, 1, 9, lit "Text", lit "hi"⟩ = some r ∧ checkSwap jsonText t = some r) ↔
      swapMsg ≠ swapFriensAdd) := by
  obtain ⟨t, ht⟩ := exists_set jsonText swapMsg ⟨2, 1, 9, lit "Text", lit "hi"⟩ (by decide)
  exact ⟨t, ht, routed_iff jsonText rfl ht⟩

/-- A friend request of 1 to 2 cannot be routed. -/
theorem friensAdd_not_routed : ∃ t, swapFriensAdd.set jsonText ⟨9, 1, 2, lit "hi", lit "A"⟩ = .ok t ∧
    swapFriensAdd.stream = streamCc ∧
    swapFriensAdd.route ⟨9, 1, 2, lit "hi", lit "A"⟩ = some (2, 1) ∧ checkSwap jsonText t = none := by
  obtain ⟨t, ht⟩ := exists_set jsonText swapFriensAdd ⟨9, 1, 2, lit "hi", lit "A"⟩ (by decide)
  exact ⟨t, ht, rfl, rfl, checkSwap_friensAdd ht⟩

end MsgType

/-! ## Lists of texts -/

section
variable {J : JsonLib} {vec : List Str}

theorem plain_vec (vec : List Str) : Plain (.obj [(lit "vec", .arr (vec.map .str))]) := by
  refine ⟨List.pairwise_singleton _ _, plainFields_iff.2 ?_⟩
  simp only [List.mem_singleton, forall_eq]
  refine plainItems_iff.2 fun j hj => ?_
  obtain ⟨s, -, rfl⟩ := List.mem_map.1 hj
  trivial

/-- A list of UTF-8 texts is written. -/
theorem dump_vec (h : ∀ s ∈ vec, validUtf8 s = true) :
    J.dump (.obj [(lit "vec", .arr (vec.map .str))]) = some (setJsonVec J vec) := by
  have hitems : Utf8Items (vec.map .str) = true := by
    induction vec with
    | nil => rfl
    | cons s vec ih =>
      obtain ⟨hs, hvec⟩ := List.forall_mem_cons.1 h
      rw [List.map_cons, Utf8Items, Bool.and_eq_true]
      exact ⟨hs, ih hvec⟩
  have hutf8 : Json.Utf8 (.obj [(lit "vec", .arr (vec.map .str))]) = true := by
    have hkey : validUtf8 (lit "vec") = true := by decide +kernel
    simp only [Json.Utf8, Utf8Fields, hkey, hitems, Bool.and_self]
  obtain ⟨t, ht⟩ := Option.isSome_iff_exists.1 (J.dump_utf8 (plain_vec vec) hutf8)
  rw [setJsonVec, ht, Option.getD_some]

/-- **A list of UTF-8 texts is read back.** -/
theorem getJsonVec_setJsonVec (h : ∀ s ∈ vec, validUtf8 s = true) :
    getJsonVec J (setJsonVec J vec) = vec := by
  have hstr : (vec.map Json.str).mapM getString = some vec := by
    clear h
    induction vec with
    | nil => rfl
    | cons s vec ih =>
      rw [List.map_cons, List.mapM_cons, ih]
      rfl
  have hindex : index (.obj [(lit "vec", .arr (vec.map .str))]) (lit "vec") =
      some (.arr (vec.map .str)) := rfl
  rw [getJsonVec, J.parse_dump (plain_vec vec) (dump_vec h), Option.bind_some, hindex]
  simp only [hstr, Option.getD_some]

end

/-! ## Frames of the file client -/

/-- A control message is never taken for data. -/
theorem readControl_ne_binary (J : JsonLib) (type sjson : Str) (id : Int64) (data : Str) :
    readControl J type sjson ≠ .ok (.binary id data) := by
  intro h
  unfold readControl at h
  split_ifs at h
  · rcases hr : getFilesCreateUploadBack J sjson with e | _ | m <;> rw [hr] at h <;> cases h
  · rcases hr : getFilesBeginUploadBack J sjson with e | _ | m <;> rw [hr] at h <;> cases h
  · rcases hr : getFilesFinishUploadBack J sjson with e | _ | m <;> rw [hr] at h <;> cases h
  · rcases hr : getFilesCreateDownloadBack J sjson with e | _ | m <;> rw [hr] at h <;> cases h
  · rcases hr : getFilesBeginDownloadBack J sjson with e | _ | m <;> rw [hr] at h <;> cases h
  · rcases hr : getFilesFinishDownload J sjson with e | _ | m <;> rw [hr] at h <;> cases h
  · cases h

/-- **The codec of frames.**  Binary frames are read as what they were made of and,
    if they are long enough, written back as they were; shorter ones are refused;
    and `sl_message` handles a frame as a control message, as data or not at all. -/
theorem frame_codec (J : JsonLib) (fuel : ℕ) (a : Answers) (q : QwebFiles) :
    (∀ id data, checkFilesFlg (setFilesBinary id data) = csFilesBinary ∧
      getFilesBinary (setFilesBinary id data) = some (id, data)) ∧
    (∀ sjson, getFilesJson (setFilesJson sjson) = some sjson) ∧
    (∀ msg, checkFilesFlg msg = csFilesBinary → 9 ≤ msg.length →
      ∃ id data, getFilesBinary msg = some (id, data) ∧ setFilesBinary id data = msg) ∧
    (∀ msg, msg.length < 9 → getFilesBinary msg = none) ∧
    ∀ msg,
      (checkFilesFlg msg = csFilesJson ∧ checkFilesFlg msg ≠ csFilesBinary ∧
        ∀ id data, readFrame J msg ≠ .ok (.binary id data)) ∨
      (checkFilesFlg msg = csFilesBinary ∧ checkFilesFlg msg ≠ csFilesJson ∧
        q.slMessage J fuel a msg =
          ((getFilesBinary msg).elim (.ok q) fun m => q.taskRecvBinaryData a m.1 m.2)) ∨
      (checkFilesFlg msg ≠ csFilesJson ∧ checkFilesFlg msg ≠ csFilesBinary ∧
        q.slMessage J fuel a msg = .ok q) := by
  refine ⟨fun id data => ⟨rfl, getFilesBinary_set id data⟩, getFilesJson_set,
    fun msg => setFilesBinary_get, fun msg hlen => if_pos hlen, fun msg => ?_⟩
  have hne : csFilesJson ≠ csFilesBinary := by decide
  by_cases hjson : checkFilesFlg msg = csFilesJson
  · refine Or.inl ⟨hjson, hjson ▸ hne, fun id data hread => ?_⟩
    simp only [readFrame, if_pos hjson] at hread
    rcases hget : getFilesJson msg with _ | sjson <;> simp only [hget] at hread
    · cases hread
    · obtain ⟨r, -, hread⟩ := bind_eq_ok.1 hread
      rcases r with _ | ⟨stream, type⟩
      · cases hread
      · simp only at hread
        split_ifs at hread
        · exact readControl_ne_binary J type sjson id data hread
        · cases hread
  · by_cases hbinary : checkFilesFlg msg = csFilesBinary
    · refine Or.inr (Or.inl ⟨hbinary, hjson, ?_⟩)
      rw [QwebFiles.slMessage, if_neg hjson, if_pos hbinary]
      rcases getFilesBinary msg with _ | m <;> rfl
    · refine Or.inr (Or.inr ⟨hjson, hbinary, ?_⟩)
      rw [QwebFiles.slMessage, if_neg hjson, if_neg hbinary]

end SimpleChat
