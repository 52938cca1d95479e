/-
  qweb_files.cpp: the client of the file server.

  The server answers the client's requests with control messages (JSON) and
  sends the contents of downloads in binary frames.  An event is handled by one
  call; `Answers` is what the system answers meanwhile.

  * `taskFilesCreateUploadBack` .. `taskFilesFinishDownloadBack`: the handlers
    of `_map_fn`; `slOpen`, `slMessage`, `slClose`: the callbacks of the
    connection;
  * `FilesEvent`, `handle`: the runs of the client;
  * `log`: what an observer sees: the frames passed to `send()` and whether it
    wrote them at once, the files opened for sending, and the signals.
-/
import SimpleChat.WebProtocol
import SimpleChat.FilesTransfer

namespace SimpleChat

open Lib

/-- What can be observed of the client. -/
inductive FilesEv where
  | sent (frame : Str) (accepted : Bool)
  | openedSend (id : Int64) (contents : Str)
  | snOpen
  | snClose
  | snCreateUpload (ok : Bool) (id : Int64) (absPath : Str)
  | snCreateDownload (ok : Bool) (id : Int64) (absPath : Str)
  | snFinishUpload (ok : Bool) (id : Int64)
  | snFinishDownload (ok : Bool) (id : Int64)
  | snProgUpload (id : Int64) (prog : ℤ)
  | snProgDownload (id : Int64) (prog : ℤ)
  deriving DecidableEq, Repr

/-- What the system answers while one event is handled: which calls of `send()`
    return a positive number, how the named path opens for reading, the size of a file that can
    be uploaded, the file that the named path is for writing, what becomes of a
    write, and how much of the buffer is flushed when a file is closed. -/
structure Answers where
  sends : ℕ → Bool
  read : OpenRead
  upload : Option Int64
  write : Option Str
  writes : WriteAnswer
  closes : ℕ

/-- The observations so far, and the calls of `send()` during this event. -/
structure Io where
  log : List FilesEv
  sends : ℕ

def Io.emit (io : Io) (e : FilesEv) : Io := { io with log := io.log ++ [e] }

/-- `_wc.get_wc()->send(s) > 0`; a frame for which it is not may be sent later, from the
    buffer of the connection, or get lost. -/
def Io.send (a : Answers) (io : Io) (frame : Str) : Bool × Io :=
  (a.sends io.sends, { log := io.log ++ [.sent frame (a.sends io.sends)], sends := io.sends + 1 })

/-- The state of the client: its transfers, the files on disk, the connection. -/
structure QwebFiles extends Io where
  fsSwap : FilesChannel
  disk : Str → Str
  idChannel : Int64

/-- The client before any event, on given files. -/
def QwebFiles.init (disk : Str → Str) : QwebFiles := ⟨⟨[], 0⟩, .empty, disk, 0⟩

/-- `_path_temp` -/
def pathTemp : Str := lit "../temp_file/"

/-- `get_filename`: what follows the last slash. -/
def getFilename (path : Str) : Str := (path.reverse.takeWhile (· != 47)).reverse

namespace QwebFiles

def emit (q : QwebFiles) (e : FilesEv) : QwebFiles := { q with toIo := q.toIo.emit e }

/-- `send_msg` -/
def sendMsg (a : Answers) (q : QwebFiles) (sjson : Str) : QwebFiles :=
  { q with toIo := (q.toIo.send a (setFilesJson sjson)).2 }

/-- `send_data` -/
def sendData (a : Answers) (io : Io) (id : Int64) (msg : Str) : Bool × Io :=
  io.send a (setFilesBinary id msg)

/-- Opening a file for sending is an event if it succeeds. -/
def noteOpened (q : QwebFiles) (okOpen : Bool) (id : Int64) (file : OpenRead) : QwebFiles :=
  match okOpen, file with
  | true, .file contents _ => q.emit (.openedSend id contents)
  | _, _ => q

/-- The flow limit of `check_linit_flux`: 2 MiB. -/
def flux : ℤ := 2 * 1024 * 1024

/-- `func_send` of the handler below: the send callback of every upload. -/
def funcSend (a : Answers) (id : Int64) (sp : FsSend) (data : Str) (io : Io) : Bool × Io :=
  let (ok, io) := sendData a io id data
  (FilesChannel.checkLinitFlux ok (some sp) flux, io)

/-- `func_prog` of uploads -/
def funcProg (id : Int64) (prog : ℤ) (_ : FsSend) (io : Io) : Io := io.emit (.snProgUpload id prog)

section
variable (J : JsonLib) (fuel : ℕ) (a : Answers) (q : QwebFiles)

/-! ## Uploads -/

/-- `task_files_create_upload_back` on its message: open the file, and ask to
    begin or report that there is nothing to begin. -/
def createUploadBack (m : FilesCreateUploadBack) : Outcome QwebFiles :=
  if m.ok then
    q.fsSwap.openFileSendChannel q.idChannel m.id m.absFile a.read >>= fun (okOpen, fsSwap) =>
      let q := { q with fsSwap := fsSwap }.noteOpened okOpen m.id a.read
      (if okOpen then setFilesBeginUpload J m.id else setFilesFinishUpload J m.id false) >>= fun s =>
        .ok ((q.sendMsg a s).emit (.snCreateUpload okOpen m.id m.absFile))
  else .ok q

/-- `task_files_begin_upload_back` on its message: send data, and report the end
    or ask to go on. -/
def beginUploadBack (id : Int64) : Outcome QwebFiles :=
  addDataSend (funcSend a id) (funcProg id) fuel q.fsSwap id q.toIo >>=
    fun (okSend, fsSwap, io) =>
      let q := { q with toIo := io, fsSwap := fsSwap }
      (if okSend then setFilesFinishUpload J id true else setFilesBeginUpload J id) >>= fun s =>
        .ok (q.sendMsg a s)

/-- `task_files_finish_upload_back` on its message. -/
def finishUploadBack (id : Int64) (ok : Bool) : QwebFiles :=
  { q with fsSwap := q.fsSwap.closeFileSendChannel q.idChannel id }.emit (.snFinishUpload ok id)

def taskFilesCreateUploadBack (sjson : Str) : Outcome QwebFiles :=
  getFilesCreateUploadBack J sjson >>= fun
    | some m => createUploadBack J a q m
    | none => .ok q

def taskFilesBeginUploadBack (sjson : Str) : Outcome QwebFiles :=
  getFilesBeginUploadBack J sjson >>= fun
    | some id => beginUploadBack J fuel a q id
    | none => .ok q

def taskFilesFinishUploadBack (sjson : Str) : Outcome QwebFiles :=
  getFilesFinishUploadBack J sjson >>= fun
    | some (id, ok) => .ok (finishUploadBack q id ok)
    | none => .ok q

/-! ## Downloads -/

/-- `task_files_create_download_back` on its message: open the file to be
    written, and ask to begin or report that there is nothing to begin. -/
def createDownloadBack (m : FilesCreateDownloadBack) : Outcome QwebFiles :=
  if m.ok then
    let filename := if m.savePath = [] then pathTemp ++ getFilename m.absPath else m.savePath
    let (okOpen, fsSwap, disk) := q.fsSwap.openFileRecvChannel q.disk q.idChannel m.id
      m.lengthFile.toInt filename a.write a.closes
    let q := { q with fsSwap := fsSwap, disk := disk }
    (if okOpen then setFilesBeginDownload J m.id else setFilesFinishDownload J m.id false) >>=
      fun s => .ok ((q.sendMsg a s).emit (.snCreateDownload okOpen m.id m.absPath))
  else .ok q

/-- `task_files_begin_download_back` on its message. -/
def beginDownloadBack (id : Int64) : Outcome QwebFiles :=
  setFilesBeginDownload J id >>= fun s => .ok (q.sendMsg a s)

/-- `task_files_finish_download_back` on its message: it answers true whatever
    the check says. -/
def finishDownloadBack (id : Int64) (ok : Bool) : Outcome QwebFiles :=
  let okRecv := q.fsSwap.checkLengthRecv id
  let isRecvSuccess := okRecv && ok
  let q := { q with
    fsSwap := q.fsSwap.closeFileRecvChannel q.idChannel id
    disk := q.fsSwap.flushFileRecv q.disk id a.closes }
  setFilesFinishDownload J id true >>= fun s =>
    .ok ((q.sendMsg a s).emit (.snFinishDownload isRecvSuccess id))

def taskFilesCreateDownloadBack (sjson : Str) : Outcome QwebFiles :=
  getFilesCreateDownloadBack J sjson >>= fun
    | some m => createDownloadBack J a q m
    | none => .ok q

def taskFilesBeginDownloadBack (sjson : Str) : Outcome QwebFiles :=
  getFilesBeginDownloadBack J sjson >>= fun
    | some id => beginDownloadBack J a q id
    | none => .ok q

/-- It reads its message with `get_files_finish_download`. -/
def taskFilesFinishDownloadBack (sjson : Str) : Outcome QwebFiles :=
  getFilesFinishDownload J sjson >>= fun
    | some (id, ok) => finishDownloadBack J a q id ok
    | none => .ok q

/-- `task_recv_binary_data` -/
def taskRecvBinaryData (id : Int64) (data : Str) : Outcome QwebFiles :=
  (q.fsSwap.addDataRecv q.disk id data a.writes).map fun (_, fsSwap, disk, prog) =>
    let q := { q with fsSwap := fsSwap, disk := disk }
    match prog with
    | some prog => q.emit (.snProgDownload id prog)
    | none => q

/-! ## Callbacks of the connection -/

/-- The handler that `_map_fn` has for a type. -/
def mapFn (type : Str) : Option (Str → Outcome QwebFiles) :=
  if type = lit "files_create_upload_back" then some (taskFilesCreateUploadBack J a q)
  else if type = lit "files_begin_upload_back" then some (taskFilesBeginUploadBack J fuel a q)
  else if type = lit "files_finish_upload_back" then some (taskFilesFinishUploadBack J q)
  else if type = lit "files_create_download_back" then some (taskFilesCreateDownloadBack J a q)
  else if type = lit "files_begin_download_back" then some (taskFilesBeginDownloadBack J a q)
  else if type = lit "files_finish_download_back" then some (taskFilesFinishDownloadBack J a q)
  else none

/-- `sl_open`, on a new connection -/
def slOpen (idChannel : Int64) : QwebFiles :=
  let q := { q with idChannel := idChannel }
  { q with fsSwap := (q.fsSwap.addIdChannel q.idChannel).2 }.emit .snOpen

/-- `sl_message` -/
def slMessage (msg : Str) : Outcome QwebFiles :=
  let c := checkFilesFlg msg
  if c = csFilesJson then
    match getFilesJson msg with
    | some sjson =>
      checkJson J sjson >>= fun
        | some (stream, type) =>
          if stream = streamSc then
            match mapFn J fuel a q type with
            | some task => task sjson
            | none => .ok q
          else .ok q
        | none => .ok q
    | none => .ok q
  else if c = csFilesBinary then
    match getFilesBinary msg with
    | some (id, buf) => taskRecvBinaryData a q id buf
    | none => .ok q
  else .ok q

/-- `sl_close` -/
def slClose : QwebFiles :=
  { q with fsSwap := q.fsSwap.removeIdChannel q.idChannel }.emit .snClose

/-- `upload_file` -/
def uploadFile (absPath savePath : Str) : Outcome QwebFiles :=
  match a.upload with
  | some fileSize => setFilesCreateUpload J fileSize absPath savePath >>= fun s => .ok (q.sendMsg a s)
  | none => .ok q

/-- `download_file` -/
def downloadFile (absPath savePath : Str) : Outcome QwebFiles :=
  setFilesCreateDownload J absPath savePath >>= fun s => .ok (q.sendMsg a s)

end

end QwebFiles

/-! ## What a frame says -/

/-- A frame of the server as the client reads it. -/
inductive FilesMsg where
  | createUploadBack (m : FilesCreateUploadBack)
  | beginUploadBack (id : Int64)
  | finishUploadBack (id : Int64) (ok : Bool)
  | createDownloadBack (m : FilesCreateDownloadBack)
  | beginDownloadBack (id : Int64)
  | finishDownloadBack (id : Int64) (ok : Bool)
  | binary (id : Int64) (data : Str)
  | other
  deriving DecidableEq, Repr

section
variable (J : JsonLib)

/-- The message that a control text of a type spells. -/
def readControl (type sjson : Str) : Outcome FilesMsg :=
  let orOther {α : Type} (f : α → FilesMsg) (r : Outcome (Option α)) : Outcome FilesMsg :=
    r.map fun | some m => f m | none => .other
  if type = lit "files_create_upload_back" then
    orOther .createUploadBack (getFilesCreateUploadBack J sjson)
  else if type = lit "files_begin_upload_back" then
    orOther .beginUploadBack (getFilesBeginUploadBack J sjson)
  else if type = lit "files_finish_upload_back" then
    orOther (fun (id, ok) => .finishUploadBack id ok) (getFilesFinishUploadBack J sjson)
  else if type = lit "files_create_download_back" then
    orOther .createDownloadBack (getFilesCreateDownloadBack J sjson)
  else if type = lit "files_begin_download_back" then
    orOther .beginDownloadBack (getFilesBeginDownloadBack J sjson)
  else if type = lit "files_finish_download_back" then
    orOther (fun (id, ok) => .finishDownloadBack id ok) (getFilesFinishDownload J sjson)
  else .ok .other

/-- The message that a frame spells. -/
def readFrame (msg : Str) : Outcome FilesMsg :=
  if checkFilesFlg msg = csFilesJson then
    match getFilesJson msg with
    | some sjson =>
      checkJson J sjson >>= fun
        | some (stream, type) => if stream = streamSc then readControl J type sjson else .ok .other
        | none => .ok .other
    | none => .ok .other
  else if checkFilesFlg msg = csFilesBinary then
    match getFilesBinary msg with
    | some (id, data) => .ok (.binary id data)
    | none => .ok .other
  else .ok .other

namespace QwebFiles

variable (fuel : ℕ) (a : Answers) (q : QwebFiles)

/-- What the client does on a message. -/
def onMsg : FilesMsg → Outcome QwebFiles
  | .createUploadBack m => createUploadBack J a q m
  | .beginUploadBack id => beginUploadBack J fuel a q id
  | .finishUploadBack id ok => .ok (finishUploadBack q id ok)
  | .createDownloadBack m => createDownloadBack J a q m
  | .beginDownloadBack id => beginDownloadBack J a q id
  | .finishDownloadBack id ok => finishDownloadBack J a q id ok
  | .binary id data => taskRecvBinaryData a q id data
  | .other => .ok q

/-- **A frame is handled as what it says.** -/
theorem slMessage_eq (msg : Str) :
    slMessage J fuel a q msg = readFrame J msg >>= onMsg J fuel a q := by
  have hcontrol : ∀ type sjson : Str, (match mapFn J fuel a q type with
      | some task => task sjson
      | none => .ok q) = readControl J type sjson >>= onMsg J fuel a q := by
    intro type sjson
    unfold mapFn readControl
    split_ifs
    · rcases h : getFilesCreateUploadBack J sjson with e | (_ | m) <;>
        simp [taskFilesCreateUploadBack, h, Except.map, onMsg]
    · rcases h : getFilesBeginUploadBack J sjson with e | (_ | m) <;>
        simp [taskFilesBeginUploadBack, h, Except.map, onMsg]
    · rcases h : getFilesFinishUploadBack J sjson with e | (_ | m) <;>
        simp [taskFilesFinishUploadBack, h, Except.map, onMsg]
    · rcases h : getFilesCreateDownloadBack J sjson with e | (_ | m) <;>
        simp [taskFilesCreateDownloadBack, h, Except.map, onMsg]
    · rcases h : getFilesBeginDownloadBack J sjson with e | (_ | m) <;>
        simp [taskFilesBeginDownloadBack, h, Except.map, onMsg]
    · rcases h : getFilesFinishDownload J sjson with e | (_ | m) <;>
        simp [taskFilesFinishDownloadBack, h, Except.map, onMsg]
    · rfl
  unfold slMessage readFrame
  simp only
  split_ifs
  · rcases getFilesJson msg with _ | sjson
    · rfl
    · simp only
      rcases checkJson J sjson with e | (_ | ⟨stream, type⟩)
      · rfl
      · rfl
      · simp only [ok_bind]
        split_ifs
        · exact hcontrol type sjson
        · rfl
  · rcases getFilesBinary msg with _ | ⟨id, data⟩ <;> rfl
  · rfl

end QwebFiles

end

/-! ## Runs -/

/-- What happens to the client: a new connection, a frame of the server, the end
    of the connection, and the requests of the user. -/
inductive FilesInput where
  | opened (idChannel : Int64)
  | message (msg : Str)
  | closed
  | uploadFile (absPath savePath : Str)
  | downloadFile (absPath savePath : Str)
  deriving DecidableEq, Repr

/-- An input, and what the system answers while it is handled. -/
abbrev FilesEvent := FilesInput × Answers

section
variable (J : JsonLib) (fuel : ℕ)

/-- The call that handles an event. -/
def QwebFiles.handle (q : QwebFiles) (e : FilesEvent) : Outcome QwebFiles :=
  let q := { q with sends := 0 }
  match e.1 with
  | .opened c => .ok (q.slOpen c)
  | .message msg => q.slMessage J fuel e.2 msg
  | .closed => .ok q.slClose
  | .uploadFile absPath savePath => q.uploadFile J e.2 absPath savePath
  | .downloadFile absPath savePath => q.downloadFile J e.2 absPath savePath

/-- A call that returns. -/
def QwebFiles.Step (q : QwebFiles) (e : FilesEvent) (q' : QwebFiles) : Prop :=
  q.handle J fuel e = .ok q'

end

end SimpleChat
