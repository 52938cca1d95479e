/-
  web_protocol.h: the messages, as JSON texts.

  A message is an object with the fields `head`, `version`, `stream`, `type` and
  `extend`, and the fields of `extend` are those of its type.  `CS_MAKE_TYPE`
  declares for each type a function that writes such a text (`csSet`) and one
  that reads it (`csGet`).

  * `checkJson`, `getJsonVec`, `getFriendsInfoJson`: the other readers;
  * `setSwapMsg`, `getSwapMsg` ..: the messages of the chat client and of the
    file client;
  * `parse_csSet`: the document that a written message spells.

  Functions that may throw return an `Outcome`; a reader of `CS_MAKE_TYPE`
  parses outside its `try` block.  `const` indexing of a document by a key it does
  not have is a failed assertion.
-/
import SimpleChat.Lib.Json
import SimpleChat.Lib.Run

namespace SimpleChat

open Lib Lib.Json

/-! ## Reading documents -/

/-- `get<int64>`: numbers are converted, and so is a `bool`. -/
def getInt64 : Json → Option Int64
  | .int n | .float n => some (Int64.ofInt n)
  | .bool b => some (if b then 1 else 0)
  | _ => none

/-- `get<int>` -/
def getInt : Json → Option Int32
  | .int n | .float n => some (Int32.ofInt n)
  | .bool b => some (if b then 1 else 0)
  | _ => none

/-- `get<bool>` -/
def getBool : Json → Option Bool
  | .bool b => some b
  | _ => none

/-- `get<string>` -/
def getString : Json → Option Str
  | .str s => some s
  | _ => none

/-- `js[key]` of a document that may be changed: a missing field is created as
    null, and null becomes an object. -/
def index : Json → Str → Option Json
  | .obj fs, key => some ((find fs key).getD .null)
  | .null, _ => some .null
  | _, _ => none

/-- `js == s` -/
def eqString : Json → Str → Bool
  | .str s', s => s' == s
  | _, _ => false

def head : Str := lit "SMCHPRO"
def version : Str := lit "1"
def streamCc : Str := lit "cc"
def streamSc : Str := lit "sc"
def streamCs : Str := lit "cs"

/-- `check_head` -/
def checkHead : Json → Outcome Bool
  | .obj fs =>
    match find fs (lit "head") with
    | none => .error .assertion
    | some h =>
      if eqString h head then
        match find fs (lit "version") with
        | none => .error .assertion
        | some v => .ok (eqString v version)
      else .ok false
  | _ => .error (.thrown .typeError)

section
variable (J : JsonLib) {α : Type}

/-- `check_json`: the stream and the type of a message of this program. -/
def checkJson (sjson : Str) : Outcome (Option (Str × Str)) :=
  Outcome.catchAll
    (match J.parse sjson with
    | none => .error (.thrown .parseError)
    | some js =>
      match (index js (lit "stream")).bind getString, (index js (lit "type")).bind getString with
      | some stream, some type =>
        (checkHead js).map fun ret => if ret then some (stream, type) else none
      | _, _ => .error (.thrown .typeError))
    none

/-- `check_swap`: the target and the source of a message between clients. -/
def checkSwap (sjson : Str) : Option (Int64 × Int64) := do
  let js ← J.parse sjson
  let extend ← index js (lit "extend")
  let target ← (index extend (lit "target")).bind getInt64
  let source ← (index extend (lit "source")).bind getInt64
  some (target, source)

/-- `get_json_vec` -/
def getJsonVec (sjson : Str) : List Str :=
  match (J.parse sjson).bind (index · (lit "vec")) with
  | some (.arr js) => (js.mapM getString).getD []
  | _ => []

/-- `set_json_vec` -/
def setJsonVec (vec : List Str) : Str :=
  (J.dump (.obj [(lit "vec", .arr (vec.map .str))])).getD []

/-- `get_extend`, before the conversion of the field. -/
def getExtend (js : Json) (key : Str) : Option Json :=
  match index js (lit "extend") with
  | some (.obj tm) => some ((find tm key).getD .null)
  | _ => none

/-- `set_extend` -/
def setExtend (js : Json) (key : Str) (value : Json) : Outcome Json :=
  match js with
  | .obj fs =>
    match find fs (lit "extend") with
    | some (.obj es) => .ok (.obj (setField fs (lit "extend") (.obj (setField es key value))))
    | none | some .null => .ok (.obj (setField fs (lit "extend") (.obj [(key, value)])))
    | _ => .error (.thrown .typeError)
  | .null => .ok (.obj [(lit "extend", .obj [(key, value)])])
  | _ => .error (.thrown .typeError)

/-- `js.dump()` -/
def dump (js : Json) : Outcome Str :=
  match J.dump js with
  | some t => .ok t
  | none => .error (.thrown .typeError)

/-- `json::parse(sjson)` -/
def parse (sjson : Str) : Outcome Json :=
  match J.parse sjson with
  | some js => .ok js
  | none => .error (.thrown .parseError)

/-- The document that `_sjson_` spells. -/
def sjson : List (Str × Json) :=
  [(lit "extend", .obj []), (lit "head", .str []), (lit "stream", .str []), (lit "type", .str []),
    (lit "version", .str [])]

/-- `make_json` -/
def makeJson (stream type : Str) : Outcome Str :=
  dump J (.obj (setField (setField (setField (setField sjson (lit "head") (.str head))
    (lit "version") (.str version)) (lit "stream") (.str stream)) (lit "type") (.str type)))

/-- `set_` of `CS_MAKE_TYPE` -/
def csSet (stream type : Str) (fields : List (Str × Json)) : Outcome Str :=
  makeJson J stream type >>= fun tm => parse J tm >>= fun js =>
    fields.foldlM (fun js f => setExtend js f.1 f.2) js >>= dump J

/-- `get_` of `CS_MAKE_TYPE`: `none` for its result false. -/
def csGet (sjson : Str) (body : Json → Option α) : Outcome (Option α) := (parse J sjson).map body

/-! ## The messages of the chat client -/

/-- A field of `extend` that is an `int64`. -/
def int64Field (v : Int64) : Json := .int v.toInt

/-- A field of `extend` that is an `int`. -/
def intField (v : Int32) : Json := .int v.toInt

def setErrorInfo (error : Int32) (info : Str) : Outcome Str :=
  csSet J streamSc (lit "error_info") [(lit "error", intField error), (lit "info", .str info)]

def getErrorInfo (sjson : Str) : Outcome (Option (Int32 × Str)) :=
  csGet J sjson fun js => do
    let error ← (getExtend js (lit "error")).bind getInt
    let info ← (getExtend js (lit "info")).bind getString
    some (error, info)

def setOnlineStatus (acFriend : Int64) (online : Bool) : Outcome Str :=
  csSet J streamSc (lit "online_status") [(lit "ac_friend", int64Field acFriend),
    (lit "online", .bool online)]

def getOnlineStatus (sjson : Str) : Outcome (Option (Int64 × Bool)) :=
  csGet J sjson fun js => do
    let acFriend ← (getExtend js (lit "ac_friend")).bind getInt64
    let online ← (getExtend js (lit "online")).bind getBool
    some (acFriend, online)

def setAcLogin (account : Int64) (passwd : Str) : Outcome Str :=
  csSet J streamCs (lit "ac_login") [(lit "account", int64Field account), (lit "passwd", .str passwd)]

def getAcLogin (sjson : Str) : Outcome (Option (Int64 × Str)) :=
  csGet J sjson fun js => do
    let account ← (getExtend js (lit "account")).bind getInt64
    let passwd ← (getExtend js (lit "passwd")).bind getString
    some (account, passwd)

/-- What a login answers: the account and its data, and the friends as a text. -/
structure AcLoginBack where
  account : Int64
  nickname : Str
  icon : Str
  svecFriendsInfo : Str
  deriving DecidableEq, Repr

def setAcLoginBack (m : AcLoginBack) : Outcome Str :=
  csSet J streamSc (lit "ac_login_back") [(lit "account", int64Field m.account),
    (lit "nickname", .str m.nickname), (lit "icon", .str m.icon),
    (lit "svec_friends_info", .str m.svecFriendsInfo)]

def getAcLoginBack (sjson : Str) : Outcome (Option AcLoginBack) :=
  csGet J sjson fun js => do
    let account ← (getExtend js (lit "account")).bind getInt64
    let nickname ← (getExtend js (lit "nickname")).bind getString
    let icon ← (getExtend js (lit "icon")).bind getString
    let svecFriendsInfo ← (getExtend js (lit "svec_friends_info")).bind getString
    some ⟨account, nickname, icon, svecFriendsInfo⟩

/-- A friend (`ct_friends_init`). -/
structure FriendsInit where
  online : Bool
  friends : Int64
  nickname : Str
  icon : Str
  remarks : Str
  deriving DecidableEq, Repr

/-- The fields of `set_friends_info_json`. -/
def friendsInfo (m : FriendsInit) : List (Str × Json) :=
  setField (setField (setField (setField (setField [] (lit "friends") (.int m.friends.toInt))
    (lit "nickname") (.str m.nickname)) (lit "icon") (.str m.icon)) (lit "remarks") (.str m.remarks))
    (lit "online") (.bool m.online)

/-- `set_friends_info_json` -/
def setFriendsInfoJson (m : FriendsInit) : Str := (J.dump (.obj (friendsInfo m))).getD []

/-- `get_friends_info_json` -/
def getFriendsInfoJson (sjson : Str) : Option FriendsInit := do
  let js ← J.parse sjson
  let friends ← (index js (lit "friends")).bind getInt64
  let nickname ← (index js (lit "nickname")).bind getString
  let icon ← (index js (lit "icon")).bind getString
  let remarks ← (index js (lit "remarks")).bind getString
  let online ← (index js (lit "online")).bind getBool
  some ⟨online, friends, nickname, icon, remarks⟩

/-- A registration. -/
structure AcRegister where
  phone : Int64
  age : Int64
  sex : Int64
  nickname : Str
  location : Str
  passwd : Str
  deriving DecidableEq, Repr

def setAcRegister (m : AcRegister) : Outcome Str :=
  csSet J streamCs (lit "ac_register") [(lit "phone", int64Field m.phone),
    (lit "age", int64Field m.age), (lit "sex", int64Field m.sex), (lit "nickname", .str m.nickname),
    (lit "location", .str m.location), (lit "passwd", .str m.passwd)]

def getAcRegister (sjson : Str) : Outcome (Option AcRegister) :=
  csGet J sjson fun js => do
    let phone ← (getExtend js (lit "phone")).bind getInt64
    let age ← (getExtend js (lit "age")).bind getInt64
    let sex ← (getExtend js (lit "sex")).bind getInt64
    let nickname ← (getExtend js (lit "nickname")).bind getString
    let location ← (getExtend js (lit "location")).bind getString
    let passwd ← (getExtend js (lit "passwd")).bind getString
    some ⟨phone, age, sex, nickname, location, passwd⟩

def setAcRegisterBack (account : Int64) (passwd : Str) (ok : Bool) : Outcome Str :=
  csSet J streamSc (lit "ac_register_back") [(lit "account", int64Field account),
    (lit "passwd", .str passwd), (lit "ok", .bool ok)]

def getAcRegisterBack (sjson : Str) : Outcome (Option (Int64 × Str × Bool)) :=
  csGet J sjson fun js => do
    let account ← (getExtend js (lit "account")).bind getInt64
    let passwd ← (getExtend js (lit "passwd")).bind getString
    let ok ← (getExtend js (lit "ok")).bind getBool
    some (account, passwd, ok)

/-- An account (`ct_ac_info`). -/
structure AcInfo where
  account : Int64
  phone : Int64
  age : Int64
  sex : Int64
  nickname : Str
  location : Str
  icon : Str
  deriving DecidableEq, Repr

def setAcInfoAll (types account : Int64) : Outcome Str :=
  csSet J streamCs (lit "ac_info_all") [(lit "types", int64Field types),
    (lit "account", int64Field account)]

def getAcInfoAll (sjson : Str) : Outcome (Option (Int64 × Int64)) :=
  csGet J sjson fun js => do
    let types ← (getExtend js (lit "types")).bind getInt64
    let account ← (getExtend js (lit "account")).bind getInt64
    some (types, account)

def setAcInfoAllBack (types : Int64) (m : AcInfo) : Outcome Str :=
  csSet J streamSc (lit "ac_info_all_back") [(lit "types", int64Field types),
    (lit "account", int64Field m.account), (lit "phone", int64Field m.phone),
    (lit "age", int64Field m.age), (lit "sex", int64Field m.sex), (lit "nickname", .str m.nickname),
    (lit "location", .str m.location), (lit "icon", .str m.icon)]

def getAcInfoAllBack (sjson : Str) : Outcome (Option (Int64 × AcInfo)) :=
  csGet J sjson fun js => do
    let types ← (getExtend js (lit "types")).bind getInt64
    let account ← (getExtend js (lit "account")).bind getInt64
    let phone ← (getExtend js (lit "phone")).bind getInt64
    let age ← (getExtend js (lit "age")).bind getInt64
    let sex ← (getExtend js (lit "sex")).bind getInt64
    let nickname ← (getExtend js (lit "nickname")).bind getString
    let location ← (getExtend js (lit "location")).bind getString
    let icon ← (getExtend js (lit "icon")).bind getString
    some (types, ⟨account, phone, age, sex, nickname, location, icon⟩)

def setAcUpdateInfo (m : AcInfo) : Outcome Str :=
  csSet J streamCs (lit "ac_update_info") [(lit "account", int64Field m.account),
    (lit "phone", int64Field m.phone), (lit "age", int64Field m.age), (lit "sex", int64Field m.sex),
    (lit "nickname", .str m.nickname), (lit "location", .str m.location), (lit "icon", .str m.icon)]

def getAcUpdateInfo (sjson : Str) : Outcome (Option AcInfo) :=
  csGet J sjson fun js => do
    let account ← (getExtend js (lit "account")).bind getInt64
    let phone ← (getExtend js (lit "phone")).bind getInt64
    let age ← (getExtend js (lit "age")).bind getInt64
    let sex ← (getExtend js (lit "sex")).bind getInt64
    let nickname ← (getExtend js (lit "nickname")).bind getString
    let location ← (getExtend js (lit "location")).bind getString
    let icon ← (getExtend js (lit "icon")).bind getString
    some ⟨account, phone, age, sex, nickname, location, icon⟩

def setAcUpdateInfoBack (account : Int64) (icon : Str) (ok : Bool) : Outcome Str :=
  csSet J streamSc (lit "ac_update_info_back") [(lit "account", int64Field account),
    (lit "icon", .str icon), (lit "ok", .bool ok)]

def getAcUpdateInfoBack (sjson : Str) : Outcome (Option (Int64 × Str × Bool)) :=
  csGet J sjson fun js => do
    let account ← (getExtend js (lit "account")).bind getInt64
    let icon ← (getExtend js (lit "icon")).bind getString
    let ok ← (getExtend js (lit "ok")).bind getBool
    some (account, icon, ok)

/-- The remarks of a friend: the message that asks for the update and its answer. -/
def setRemarks (stream type : Str) (account friends : Int64) (remarks : Str) : Outcome Str :=
  csSet J stream type [(lit "account", int64Field account), (lit "friends", int64Field friends),
    (lit "remarks", .str remarks)]

def getRemarks (sjson : Str) : Outcome (Option (Int64 × Int64 × Str)) :=
  csGet J sjson fun js => do
    let account ← (getExtend js (lit "account")).bind getInt64
    let friends ← (getExtend js (lit "friends")).bind getInt64
    let remarks ← (getExtend js (lit "remarks")).bind getString
    some (account, friends, remarks)

def setAcUpdateRemarks : Int64 → Int64 → Str → Outcome Str :=
  setRemarks J streamCs (lit "ac_update_remarks")

def getAcUpdateRemarks : Str → Outcome (Option (Int64 × Int64 × Str)) := getRemarks J

def setAcUpdateRemarksBack : Int64 → Int64 → Str → Outcome Str :=
  setRemarks J streamSc (lit "ac_update_remarks_back")

def getAcUpdateRemarksBack : Str → Outcome (Option (Int64 × Int64 × Str)) := getRemarks J

/-- The answer to a friend request. -/
structure AcUpdateFriends where
  account : Int64
  friends : Int64
  acRemarks : Str
  frRemarks : Str
  deriving DecidableEq, Repr

def setAcUpdateFriends (m : AcUpdateFriends) : Outcome Str :=
  csSet J streamCs (lit "ac_update_friends") [(lit "account", int64Field m.account),
    (lit "friends", int64Field m.friends), (lit "ac_remarks", .str m.acRemarks),
    (lit "fr_remarks", .str m.frRemarks)]

def getAcUpdateFriends (sjson : Str) : Outcome (Option AcUpdateFriends) :=
  csGet J sjson fun js => do
    let account ← (getExtend js (lit "account")).bind getInt64
    let friends ← (getExtend js (lit "friends")).bind getInt64
    let acRemarks ← (getExtend js (lit "ac_remarks")).bind getString
    let frRemarks ← (getExtend js (lit "fr_remarks")).bind getString
    some ⟨account, friends, acRemarks, frRemarks⟩

def setAcUpdateFriendsBack (sjsonInfo : Str) : Outcome Str :=
  csSet J streamSc (lit "ac_update_friends_back") [(lit "sjson_info", .str sjsonInfo)]

def getAcUpdateFriendsBack (sjson : Str) : Outcome (Option Str) :=
  csGet J sjson fun js => (getExtend js (lit "sjson_info")).bind getString

def setSwapCache (target : Int64) : Outcome Str :=
  csSet J streamCs (lit "swap_cache") [(lit "target", int64Field target)]

def getSwapCache (sjson : Str) : Outcome (Option Int64) :=
  csGet J sjson fun js => (getExtend js (lit "target")).bind getInt64

def setSwapCacheBack (svecSjson : Str) : Outcome Str :=
  csSet J streamSc (lit "swap_cache_back") [(lit "svec_sjson", .str svecSjson)]

def getSwapCacheBack (sjson : Str) : Outcome (Option Str) :=
  csGet J sjson fun js => (getExtend js (lit "svec_sjson")).bind getString

/-- A chat message (`ct_swap_msg`). -/
structure SwapMsg where
  target : Int64
  source : Int64
  timeTo : Int64
  types : Str
  content : Str
  deriving DecidableEq, Repr

def setSwapMsg (m : SwapMsg) : Outcome Str :=
  csSet J streamCc (lit "swap_msg") [(lit "target", int64Field m.target),
    (lit "source", int64Field m.source), (lit "time_to", int64Field m.timeTo),
    (lit "type", .str m.types), (lit "content", .str m.content)]

def getSwapMsg (sjson : Str) : Outcome (Option SwapMsg) :=
  csGet J sjson fun js => do
    let target ← (getExtend js (lit "target")).bind getInt64
    let source ← (getExtend js (lit "source")).bind getInt64
    let timeTo ← (getExtend js (lit "time_to")).bind getInt64
    let type ← (getExtend js (lit "type")).bind getString
    let content ← (getExtend js (lit "content")).bind getString
    some ⟨target, source, timeTo, type, content⟩

/-- A receipt (`ct_swap_msg_back`). -/
structure SwapMsgBack where
  target : Int64
  source : Int64
  timeTo : Int64
  timeOk : Int64
  deriving DecidableEq, Repr

def setSwapMsgBack (m : SwapMsgBack) : Outcome Str :=
  csSet J streamCc (lit "swap_msg_back") [(lit "target", int64Field m.target),
    (lit "source", int64Field m.source), (lit "time_to", int64Field m.timeTo),
    (lit "time_ok", int64Field m.timeOk)]

def getSwapMsgBack (sjson : Str) : Outcome (Option SwapMsgBack) :=
  csGet J sjson fun js => do
    let target ← (getExtend js (lit "target")).bind getInt64
    let source ← (getExtend js (lit "source")).bind getInt64
    let timeTo ← (getExtend js (lit "time_to")).bind getInt64
    let timeOk ← (getExtend js (lit "time_ok")).bind getInt64
    some ⟨target, source, timeTo, timeOk⟩

/-- A friend request (`ct_friend_add`). -/
structure FriendAdd where
  time : Int64
  account : Int64
  friends : Int64
  notes : Str
  remarks : Str
  deriving DecidableEq, Repr

def setSwapFriensAdd (m : FriendAdd) : Outcome Str :=
  csSet J streamCc (lit "swap_friens_add") [(lit "time", int64Field m.time),
    (lit "account", int64Field m.account), (lit "friends", int64Field m.friends),
    (lit "notes", .str m.notes), (lit "remarks", .str m.remarks)]

def getSwapFriensAdd (sjson : Str) : Outcome (Option FriendAdd) :=
  csGet J sjson fun js => do
    let time ← (getExtend js (lit "time")).bind getInt64
    let account ← (getExtend js (lit "account")).bind getInt64
    let friends ← (getExtend js (lit "friends")).bind getInt64
    let notes ← (getExtend js (lit "notes")).bind getString
    let remarks ← (getExtend js (lit "remarks")).bind getString
    some ⟨time, account, friends, notes, remarks⟩

/-! ## The messages of the file client -/

/-- A message about one transfer: its id, and a `bool` under the given name. -/
def setIdOk (stream type okName : Str) (id : Int64) (ok : Bool) : Outcome Str :=
  csSet J stream type [(lit "id", int64Field id), (okName, .bool ok)]

def getIdOk (okName : Str) (sjson : Str) : Outcome (Option (Int64 × Bool)) :=
  csGet J sjson fun js => do
    let id ← (getExtend js (lit "id")).bind getInt64
    let ok ← (getExtend js okName).bind getBool
    some (id, ok)

/-- A message that consists of the id of a transfer. -/
def setId (stream type : Str) (id : Int64) : Outcome Str :=
  csSet J stream type [(lit "id", int64Field id)]

def getId (sjson : Str) : Outcome (Option Int64) :=
  csGet J sjson fun js => (getExtend js (lit "id")).bind getInt64

def setFilesCreateUpload (lengthFile : Int64) (absFile saveFile : Str) : Outcome Str :=
  csSet J streamCs (lit "files_create_upload") [(lit "length_file", int64Field lengthFile),
    (lit "abs_file", .str absFile), (lit "save_file", .str saveFile)]

def getFilesCreateUpload (sjson : Str) : Outcome (Option (Int64 × Str × Str)) :=
  csGet J sjson fun js => do
    let lengthFile ← (getExtend js (lit "length_file")).bind getInt64
    let absFile ← (getExtend js (lit "abs_file")).bind getString
    let saveFile ← (getExtend js (lit "save_file")).bind getString
    some (lengthFile, absFile, saveFile)

structure FilesCreateUploadBack where
  id : Int64
  absFile : Str
  ok : Bool
  deriving DecidableEq, Repr

def setFilesCreateUploadBack (m : FilesCreateUploadBack) : Outcome Str :=
  csSet J streamSc (lit "files_create_upload_back") [(lit "id", int64Field m.id),
    (lit "abs_file", .str m.absFile), (lit "ok", .bool m.ok)]

def getFilesCreateUploadBack (sjson : Str) : Outcome (Option FilesCreateUploadBack) :=
  csGet J sjson fun js => do
    let id ← (getExtend js (lit "id")).bind getInt64
    let absFile ← (getExtend js (lit "abs_file")).bind getString
    let ok ← (getExtend js (lit "ok")).bind getBool
    some ⟨id, absFile, ok⟩

def setFilesBeginUpload (id : Int64) : Outcome Str :=
  csSet J streamCs (lit "files_begin_upload") [(lit "id", int64Field id)]

def getFilesBeginUpload : Str → Outcome (Option Int64) := getId J

def setFilesBeginUploadBack : Int64 → Outcome Str := setId J streamSc (lit "files_begin_upload_back")

def getFilesBeginUploadBack : Str → Outcome (Option Int64) := getId J

def setFilesFinishUpload (id : Int64) (finish : Bool) : Outcome Str :=
  csSet J streamCs (lit "files_finish_upload") [(lit "id", int64Field id), (lit "finish", .bool finish)]

def getFilesFinishUpload : Str → Outcome (Option (Int64 × Bool)) := getIdOk J (lit "finish")

def setFilesFinishUploadBack : Int64 → Bool → Outcome Str :=
  setIdOk J streamSc (lit "files_finish_upload_back") (lit "ok")

def getFilesFinishUploadBack : Str → Outcome (Option (Int64 × Bool)) := getIdOk J (lit "ok")

def setFilesCreateDownload (absPath savePath : Str) : Outcome Str :=
  csSet J streamCs (lit "files_create_download") [(lit "abs_path", .str absPath),
    (lit "save_path", .str savePath)]

def getFilesCreateDownload (sjson : Str) : Outcome (Option (Str × Str)) :=
  csGet J sjson fun js => do
    let absPath ← (getExtend js (lit "abs_path")).bind getString
    let savePath ← (getExtend js (lit "save_path")).bind getString
    some (absPath, savePath)

structure FilesCreateDownloadBack where
  id : Int64
  lengthFile : Int64
  absPath : Str
  savePath : Str
  ok : Bool
  deriving DecidableEq, Repr

def setFilesCreateDownloadBack (m : FilesCreateDownloadBack) : Outcome Str :=
  csSet J streamSc (lit "files_create_download_back") [(lit "id", int64Field m.id),
    (lit "length_file", int64Field m.lengthFile), (lit "abs_path", .str m.absPath),
    (lit "save_path", .str m.savePath), (lit "ok", .bool m.ok)]

def getFilesCreateDownloadBack (sjson : Str) : Outcome (Option FilesCreateDownloadBack) :=
  csGet J sjson fun js => do
    let id ← (getExtend js (lit "id")).bind getInt64
    let lengthFile ← (getExtend js (lit "length_file")).bind getInt64
    let absPath ← (getExtend js (lit "abs_path")).bind getString
    let savePath ← (getExtend js (lit "save_path")).bind getString
    let ok ← (getExtend js (lit "ok")).bind getBool
    some ⟨id, lengthFile, absPath, savePath, ok⟩

def setFilesBeginDownload (id : Int64) : Outcome Str :=
  csSet J streamCs (lit "files_begin_download") [(lit "id", int64Field id)]

def getFilesBeginDownload : Str → Outcome (Option Int64) := getId J

def setFilesBeginDownloadBack : Int64 → Outcome Str :=
  setId J streamSc (lit "files_begin_download_back")

def getFilesBeginDownloadBack : Str → Outcome (Option Int64) := getId J

def setFilesFinishDownload (id : Int64) (ok : Bool) : Outcome Str :=
  csSet J streamCs (lit "files_finish_download") [(lit "id", int64Field id), (lit "ok", .bool ok)]

def getFilesFinishDownload : Str → Outcome (Option (Int64 × Bool)) := getIdOk J (lit "ok")

def setFilesFinishDownloadBack : Int64 → Bool → Outcome Str :=
  setIdOk J streamSc (lit "files_finish_download_back") (lit "ok")

def getFilesFinishDownloadBack : Str → Outcome (Option (Int64 × Bool)) := getIdOk J (lit "ok")

end

/-! ## What a written message spells -/

/-- The message with the given fields of `extend`. -/
def docWith (stream type : Str) (es : List (Str × Json)) : Json :=
  .obj [(lit "extend", .obj es), (lit "head", .str head), (lit "stream", .str stream),
    (lit "type", .str type), (lit "version", .str version)]

/-- The fields in the order of their names. -/
def sortFields (fields : List (Str × Json)) : List (Str × Json) :=
  fields.foldl (fun es f => setField es f.1 f.2) []

section
variable {J : JsonLib} {stream type t : Str} {fields : List (Str × Json)}

theorem setExtend_docWith (es : List (Str × Json)) (key : Str) (value : Json) :
    setExtend (docWith stream type es) key value = .ok (docWith stream type (setField es key value)) :=
  rfl

theorem foldlM_setExtend (es : List (Str × Json)) :
    fields.foldlM (fun js f => setExtend js f.1 f.2) (docWith stream type es) =
      .ok (docWith stream type (fields.foldl (fun es f => setField es f.1 f.2) es)) := by
  induction fields generalizing es with
  | nil => rfl
  | cons f fields ih => rw [List.foldlM_cons, setExtend_docWith, ok_bind, ih]; rfl

theorem plain_sortFields (h : ∀ f ∈ fields, f.2.Plain) : Plain (.obj (sortFields fields)) := by
  have key : ∀ es, Plain (.obj es) →
      Plain (.obj (fields.foldl (fun es f => setField es f.1 f.2) es)) := by
    induction fields with
    | nil => exact fun es hes => hes
    | cons f fields ih =>
      exact fun es hes => ih (fun g hg => h g (by simp [hg])) _ (plain_setField hes (h f (by simp)))
  exact key [] (by simp [Plain, PlainFields, SortedKeys])

theorem utf8_sortFields (h : ∀ f ∈ fields, validUtf8 f.1 = true ∧ f.2.Utf8 = true) :
    Utf8 (.obj (sortFields fields)) = true := by
  have key : ∀ es, Utf8 (.obj es) = true →
      Utf8 (.obj (fields.foldl (fun es f => setField es f.1 f.2) es)) = true := by
    induction fields with
    | nil => exact fun es hes => hes
    | cons f fields ih =>
      exact fun es hes => ih (fun g hg => h g (by simp [hg])) _
        (utf8_setField hes (h f (by simp)).1 (h f (by simp)).2)
  exact key [] rfl

theorem plain_docWith {es : List (Str × Json)} (h : Plain (.obj es)) :
    Plain (docWith stream type es) := by
  simp only [docWith, Plain, PlainFields, and_true, sortedKeys_iff, List.map_cons,
    List.map_nil] at h ⊢
  exact ⟨by decide, h⟩

theorem utf8_docWith {es : List (Str × Json)} (h : Utf8 (.obj es) = true)
    (hs : validUtf8 stream = true) (ht : validUtf8 type = true) :
    Utf8 (docWith stream type es) = true := by
  have hkeys : (validUtf8 (lit "extend") && validUtf8 (lit "head") && validUtf8 (lit "stream") &&
      validUtf8 (lit "type") && validUtf8 (lit "version") && validUtf8 head && validUtf8 version) =
        true := by decide +kernel
  simp only [Bool.and_eq_true] at hkeys
  simp only [docWith, Utf8, Utf8Fields, Bool.and_eq_true] at h ⊢
  simp only [hkeys, h, hs, ht, and_self]

theorem makeJson_eq : makeJson J stream type = dump J (docWith stream type []) := rfl

theorem plain_template : Plain (docWith stream type []) :=
  plain_docWith (by simp [Plain, PlainFields, SortedKeys])

/-- **A written message spells its document.** -/
theorem parse_csSet (hf : ∀ f ∈ fields, f.2.Plain) (h : csSet J stream type fields = .ok t) :
    J.parse t = some (docWith stream type (sortFields fields)) := by
  simp only [csSet, makeJson_eq, bind_eq_ok] at h
  obtain ⟨tm, hdump, js, hparse, js', hfold, hout⟩ := h
  have hjs : js = docWith stream type [] := by
    unfold dump at hdump
    split at hdump
    · cases hdump
      have := J.parse_dump plain_template (by assumption)
      simp only [parse, this, Except.ok.injEq] at hparse
      exact hparse.symm
    · cases hdump
  rw [hjs, foldlM_setExtend, Except.ok.injEq] at hfold
  subst hfold
  unfold dump at hout
  split at hout
  · cases hout
    exact J.parse_dump (plain_docWith (plain_sortFields hf)) (by assumption)
  · cases hout

/-- Messages of UTF-8 texts are written. -/
theorem csSet_utf8 (hs : validUtf8 stream = true) (ht : validUtf8 type = true)
    (hf : ∀ f ∈ fields, f.2.Plain) (hu : ∀ f ∈ fields, validUtf8 f.1 = true ∧ f.2.Utf8 = true) :
    ∃ t, csSet J stream type fields = .ok t := by
  have hdump : ∀ {js : Json}, js.Plain → js.Utf8 = true → ∃ t, J.dump js = some t := fun hp hu =>
    Option.isSome_iff_exists.1 (J.dump_utf8 hp hu)
  have htemplate : (docWith stream type []).Plain := plain_template
  have hdoc : (docWith stream type (sortFields fields)).Plain := plain_docWith (plain_sortFields hf)
  obtain ⟨tm, htm⟩ := hdump htemplate (utf8_docWith rfl hs ht)
  obtain ⟨t, ht⟩ := hdump hdoc (utf8_docWith (utf8_sortFields hu) hs ht)
  refine ⟨t, ?_⟩
  have hparse := J.parse_dump htemplate htm
  simp only [csSet, makeJson_eq, dump, htm, ok_bind, parse, hparse, foldlM_setExtend]
  simp only [sortFields] at ht
  rw [ht]

theorem checkJson_docWith {es : List (Str × Json)} (h : J.parse t = some (docWith stream type es)) :
    checkJson J t = .ok (some (stream, type)) := by
  simp only [checkJson, h]
  rfl

theorem getExtend_docWith (es : List (Str × Json)) (key : Str) :
    getExtend (docWith stream type es) key = some ((find es key).getD .null) := rfl

theorem csGet_docWith {α : Type} {es : List (Str × Json)} {body : Json → Option α}
    (h : J.parse t = some (docWith stream type es)) :
    csGet J t body = .ok (body (docWith stream type es)) := by
  simp only [csGet, parse, h]
  rfl

/-- Writing other fields leaves a field as it is. -/
theorem find_foldl_of_notMem {es : List (Str × Json)} {k : Str} (hk : k ∉ fields.map Prod.fst) :
    find (fields.foldl (fun es f => setField es f.1 f.2) es) k = find es k := by
  induction fields generalizing es with
  | nil => rfl
  | cons f fields ih =>
    obtain ⟨hne, hk⟩ : k ≠ f.1 ∧ k ∉ fields.map Prod.fst := by simpa using hk
    rw [List.foldl_cons, ih hk, find_setField, if_neg (Ne.symm hne)]

/-- Fields with different names are all found. -/
theorem find_sortFields {k : Str} {v : Json} (hnodup : (fields.map Prod.fst).Nodup)
    (hmem : (k, v) ∈ fields) : find (sortFields fields) k = some v := by
  have key : ∀ es, find (fields.foldl (fun es f => setField es f.1 f.2) es) k = some v := by
    induction fields with
    | nil => cases hmem
    | cons f fields ih =>
      intro es
      obtain ⟨hf, hnodup⟩ := List.nodup_cons.1 hnodup
      rw [List.foldl_cons]
      rcases List.mem_cons.1 hmem with rfl | hmem
      · rw [find_foldl_of_notMem hf, find_setField, if_pos rfl]
      · exact ih hnodup hmem _
  exact key []

/-- **A written message is read back, field by field.** -/
theorem getExtend_csSet (hf : ∀ f ∈ fields, f.2.Plain) (hnodup : (fields.map Prod.fst).Nodup)
    (h : csSet J stream type fields = .ok t) :
    ∃ js, J.parse t = some js ∧ ∀ f ∈ fields, getExtend js f.1 = some f.2 := by
  refine ⟨_, parse_csSet hf h, fun f hmem => ?_⟩
  rw [getExtend_docWith, find_sortFields hnodup hmem]
  rfl

end

@[simp] theorem getInt_intField (v : Int32) : getInt (intField v) = some v := by
  simp [getInt, intField]

theorem plain_intField (v : Int32) : (intField v).Plain := by
  have h1 := v.le_toInt
  have h2 := v.toInt_lt
  simp only [intField, Plain]
  omega

@[simp] theorem getInt64_int64Field (v : Int64) : getInt64 (int64Field v) = some v := by
  simp [getInt64, int64Field]

theorem plain_int64Field (v : Int64) : (int64Field v).Plain := by
  have h1 := v.le_toInt
  have h2 := v.toInt_lt
  simp only [int64Field, Plain]
  omega

section
variable {J : JsonLib} {t : Str} {id : Int64} {b : Bool}

theorem checkJson_csSet {stream type : Str} {fields : List (Str × Json)}
    (hf : ∀ f ∈ fields, f.2.Plain) (h : csSet J stream type fields = .ok t) :
    checkJson J t = .ok (some (stream, type)) := checkJson_docWith (parse_csSet hf h)

theorem getIdOk_set {type okName : Str}
    (h : csSet J streamCs type [(lit "id", int64Field id), (okName, .bool b)] = .ok t)
    (hne : okName ≠ lit "id") : getIdOk J okName t = .ok (some (id, b)) := by
  have hp := parse_csSet (by simp [plain_int64Field, Plain]) h
  have hid : find (sortFields [(lit "id", int64Field id), (okName, .bool b)]) (lit "id") =
      some (int64Field id) := by
    simp [sortFields, find_setField, hne]
  have hok : find (sortFields [(lit "id", int64Field id), (okName, .bool b)]) okName =
      some (.bool b) := by
    simp [sortFields, find_setField]
  rw [getIdOk, csGet_docWith hp]
  simp only [getExtend_docWith, hid, hok, Option.getD_some, Option.bind_some, getInt64_int64Field,
    getBool, bind]

theorem getFilesFinishUpload_set (h : setFilesFinishUpload J id b = .ok t) :
    getFilesFinishUpload J t = .ok (some (id, b)) := getIdOk_set h (by decide)

theorem getFilesFinishDownload_set (h : setFilesFinishDownload J id b = .ok t) :
    getFilesFinishDownload J t = .ok (some (id, b)) := getIdOk_set h (by decide)

end

/-! ## Frames of the file client -/

/-- `CS_FILES_JSON` -/
def csFilesJson : UInt8 := 0x01

/-- `CS_FILES_BINARY` -/
def csFilesBinary : UInt8 := 0x02

/-- `ct_s` of an `int64`: its bytes, the least one first. -/
def ctS (id : Int64) : Str :=
  (List.range 8).map fun i => UInt8.ofNat (id.toUInt64.toNat / 256 ^ i)

/-- `st_c<int64>` of 8 bytes. -/
def stC (s : Str) : Int64 :=
  (UInt64.ofNat (s.foldr (fun b n => b.toNat + 256 * n) 0)).toInt64

/-- `check_files_flg`: the first byte, 0 for an empty frame. -/
def checkFilesFlg (msg : Str) : UInt8 := msg.headD 0

def setFilesJson (sjson : Str) : Str := csFilesJson :: sjson

/-- `get_files_json` -/
def getFilesJson (msg : Str) : Option Str := if msg = [] then none else some msg.tail

def setFilesBinary (id : Int64) (data : Str) : Str := csFilesBinary :: (ctS id ++ data)

/-- `get_files_binary` -/
def getFilesBinary (msg : Str) : Option (Int64 × Str) :=
  if msg.length < 9 then none else some (stC ((msg.drop 1).take 8), msg.drop 9)

theorem stC_ctS (id : Int64) : stC (ctS id) = id := by
  have hlt := id.toUInt64.toNat_lt
  have hsum : (ctS id).foldr (fun b n => b.toNat + 256 * n) 0 = id.toUInt64.toNat := by
    simp only [ctS, List.range, List.range.loop, List.map_cons, List.map_nil, List.foldr_cons,
      List.foldr_nil, UInt8.toNat_ofNat']
    omega
  rw [stC, hsum]
  simp

/-- The number that bytes spell, the least one first. -/
def bytesNat (s : Str) : ℕ := s.foldr (fun b n => b.toNat + 256 * n) 0

theorem bytesNat_lt (s : Str) : bytesNat s < 256 ^ s.length := by
  induction s with
  | nil => exact Nat.one_pos
  | cons b s ih =>
    have hb : b.toNat < 256 := b.toNat_lt
    rw [List.length_cons, pow_succ]
    show b.toNat + 256 * bytesNat s < _
    omega

/-- Bytes are the digits of the number they spell. -/
theorem digits_bytesNat (s : Str) :
    (List.range s.length).map (fun i => UInt8.ofNat (bytesNat s / 256 ^ i)) = s := by
  induction s with
  | nil => rfl
  | cons b s ih =>
    have hb : b.toNat < 256 := b.toNat_lt
    have hfirst : UInt8.ofNat (bytesNat (b :: s) / 256 ^ 0) = b := by
      apply UInt8.toNat_inj.1
      show (UInt8.ofNat ((b.toNat + 256 * bytesNat s) / 1)).toNat = _
      rw [UInt8.toNat_ofNat']
      omega
    have hrest : ∀ i, bytesNat (b :: s) / 256 ^ (i + 1) = bytesNat s / 256 ^ i := by
      intro i
      rw [pow_succ', ← Nat.div_div_eq_div_mul]
      show (b.toNat + 256 * bytesNat s) / 256 / 256 ^ i = _
      congr 1
      omega
    rw [List.length_cons, List.range_succ_eq_map, List.map_cons, List.map_map, hfirst]
    congr 1
    refine Eq.trans (List.map_congr_left fun i _ => ?_) ih
    simp only [Function.comp, Nat.succ_eq_add_one, hrest]

/-- The 8 bytes of an id are read and written back. -/
theorem ctS_stC {s : Str} (h : s.length = 8) : ctS (stC s) = s := by
  have hlt : bytesNat s < 2 ^ 64 := by have := bytesNat_lt s; rw [h] at this; omega
  have hid : (stC s).toUInt64.toNat = bytesNat s := by
    show (UInt64.ofNat (bytesNat s)).toInt64.toUInt64.toNat = _
    simpa using Nat.mod_eq_of_lt hlt
  rw [ctS, hid, ← h, digits_bytesNat]

@[simp] theorem length_ctS (id : Int64) : (ctS id).length = 8 := by simp [ctS]

/-- A binary frame is read as what it was made of. -/
@[simp] theorem getFilesBinary_set (id : Int64) (data : Str) :
    getFilesBinary (setFilesBinary id data) = some (id, data) := by
  have hlen : ¬ (setFilesBinary id data).length < 9 := by simp [setFilesBinary]
  have htake : (ctS id ++ data).take 8 = ctS id := List.take_left' (length_ctS id)
  have hdrop : (ctS id ++ data).drop 8 = data := List.drop_left' (length_ctS id)
  rw [getFilesBinary, if_neg hlen]
  simp only [setFilesBinary, List.drop_succ_cons, List.drop_zero, htake, hdrop, stC_ctS]

/-- A binary frame that can be read is written back. -/
theorem setFilesBinary_get {msg : Str} (hflg : checkFilesFlg msg = csFilesBinary)
    (hlen : 9 ≤ msg.length) :
    ∃ id data, getFilesBinary msg = some (id, data) ∧ setFilesBinary id data = msg := by
  have hne : msg ≠ [] := by rintro rfl; simp at hlen
  obtain ⟨c, msg, rfl⟩ := List.exists_cons_of_ne_nil hne
  obtain rfl : c = csFilesBinary := hflg
  have hid : (msg.take 8).length = 8 := by simp at hlen ⊢; omega
  refine ⟨_, _, by rw [getFilesBinary, if_neg (Nat.not_lt.2 hlen)], ?_⟩
  simp only [setFilesBinary, List.drop_succ_cons, List.drop_zero, ctS_stC hid,
    List.take_append_drop]

@[simp] theorem getFilesJson_set (sjson : Str) : getFilesJson (setFilesJson sjson) = some sjson := rfl

end SimpleChat
