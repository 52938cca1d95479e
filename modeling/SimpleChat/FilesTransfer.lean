/-
  files_transfer.h: `files_io` and `files_channel`.

  A transfer is open under an id; `_map_send` and `_map_recv` hold the open
  transfers, and `_map_channel` the ids that each live connection has opened, so
  that they can be closed when it breaks.

  * `addDataSend`: sends chunk after chunk until the end of the file or until
    the send callback returns false;
  * `addDataRecv`: writes one payload;
  * `openFileSendChannel` .. `removeIdChannel`: the operations on channels;
  * `sendSide`, `recvSide`: each direction is a registry of its own, and the
    operations of the class are those of the registry.

  What the system answers is a parameter of each call: how the file opens
  (`OpenRead`, the file a path names), what becomes of a write, how much of the
  buffer is flushed when a file is closed.  A loop that takes more than `fuel`
  rounds counts as endless.
-/
import SimpleChat.Lib.Run
import SimpleChat.Lib.Fstream
import SimpleChat.Lib.Registry

namespace SimpleChat

open Lib

/-- A transfer open for sending (`fs_send`). -/
structure FsSend where
  prog : ℤ
  countSend : ℤ
  lengthMax : ℤ
  filename : Str
  spFs : Ifstream

/-- A transfer open for receiving (`fs_recv`). -/
structure FsRecv where
  prog : ℤ
  countRecv : ℤ
  lengthMax : ℤ
  filename : Str
  spFs : Ofstream
  deriving DecidableEq, Repr

/-- The ids opened under one connection (`fs_channel`). -/
structure FsChannel where
  setRecv : Finset Int64
  setSend : Finset Int64

/-- The members of `files_channel`. -/
@[ext] structure FilesChannel where
  mapRecv : Int64 → Option FsRecv
  mapSend : Int64 → Option FsSend
  mapChannel : Int64 → Option FsChannel

def FilesChannel.empty : FilesChannel := ⟨fun _ => none, fun _ => none, fun _ => none⟩

/-- How opening a path for reading goes: it fails, it gives a stream but no file
    size (a directory), or it gives the contents of a file. -/
inductive OpenRead where
  | closed
  | unsized
  | file (data : Str) (ioError : Option ℕ)

/-! ## Progress -/

/-- `int prog = count * 100 / length_max;` -/
def percent (count lengthMax : ℤ) : Outcome ℤ :=
  if lengthMax = 0 ∨ (lengthMax = -1 ∧ wrap64 (count * 100) = -2 ^ 63) then .error .trap
  else .ok (narrow32 ((wrap64 (count * 100)).tdiv lengthMax))

theorem percent_ok (count : ℤ) {lengthMax : ℤ} (h : 0 < lengthMax) :
    ∃ p, percent count lengthMax = .ok p := by
  unfold percent
  rw [if_neg (by omega)]
  exact ⟨_, rfl⟩

/-! ## Sending -/

section
variable {ω : Type} (fnSendCb : FsSend → Str → ω → Bool × ω) (progCb : ℤ → FsSend → ω → ω)

/-- One round of the loop of `add_data_send`: the result of the callback, and
    the transfer afterwards. -/
def sendRound (sp : FsSend) (w : ω) : Outcome (Bool × FsSend × ω) :=
  let (fs, buf) := sp.spFs.read 1024
  let sp := { sp with spFs := fs, countSend := sp.countSend + buf.length }
  let (isSend, w) := fnSendCb sp buf w
  (percent sp.countSend sp.lengthMax).map fun prog =>
    if sp.prog < prog then (isSend, { sp with prog := prog }, progCb prog sp w)
    else (isSend, sp, w)

/-- The loop of `add_data_send`. -/
def addDataSendLoop : ℕ → FsSend → ω → Outcome (Bool × FsSend × ω)
  | fuel, sp, w =>
    if sp.spFs.eof then .ok (true, sp, w)
    else
      match fuel with
      | 0 => .error .endless
      | fuel + 1 =>
        match sendRound fnSendCb progCb sp w with
        | .error e => .error e
        | .ok (isSend, sp, w) =>
          if isSend then addDataSendLoop fuel sp w else .ok (false, sp, w)

/-- `add_data_send` -/
def addDataSend (fuel : ℕ) (fc : FilesChannel) (id : Int64) (w : ω) :
    Outcome (Bool × FilesChannel × ω) :=
  match fc.mapSend id with
  | some sp =>
    (addDataSendLoop fnSendCb progCb fuel sp w).map fun (isSend, sp, w) =>
      (isSend, { fc with mapSend := Function.update fc.mapSend id (some sp) }, w)
  | none => .ok (true, fc, w)

variable {fnSendCb progCb}

/-- **The rule for the loop**: what a round keeps, given the result of the
    callback before it; the loop returns true at the end of the file only. -/
theorem addDataSendLoop_inv {I : Bool → FsSend → ω → Prop}
    (hround : ∀ sp w b sp' w', I true sp w → sp.spFs.eof = false →
      sendRound fnSendCb progCb sp w = .ok (b, sp', w') → I b sp' w') :
    ∀ {fuel : ℕ} {sp sp' : FsSend} {w w' : ω} {b : Bool}, I true sp w →
      addDataSendLoop fnSendCb progCb fuel sp w = .ok (b, sp', w') →
        I b sp' w' ∧ (b = true → sp'.spFs.eof = true) := by
  intro fuel
  induction fuel with
  | zero =>
    intro sp sp' w w' b hI h
    unfold addDataSendLoop at h
    split_ifs at h with he
    simp only [Except.ok.injEq, Prod.mk.injEq] at h
    obtain ⟨rfl, rfl, rfl⟩ := h
    exact ⟨hI, fun _ => he⟩
  | succ fuel ih =>
    intro sp sp' w w' b hI h
    unfold addDataSendLoop at h
    split_ifs at h with he
    · simp only [Except.ok.injEq, Prod.mk.injEq] at h
      obtain ⟨rfl, rfl, rfl⟩ := h
      exact ⟨hI, fun _ => he⟩
    · rcases hr : sendRound fnSendCb progCb sp w with e | ⟨b₁, sp₁, w₁⟩
      · simp [hr] at h
      · have hI₁ := hround _ _ _ _ _ hI (by simpa using he) hr
        simp only [hr] at h
        split_ifs at h with hb
        · exact ih (hb ▸ hI₁) h
        · simp only [Except.ok.injEq, Prod.mk.injEq] at h
          obtain ⟨rfl, rfl, rfl⟩ := h
          rw [Bool.not_eq_true] at hb
          exact ⟨hb ▸ hI₁, fun h => by cases h⟩

/-- The loop ends if what is still to be read shrinks with every round that
    does not get to the end of the file. -/
theorem addDataSendLoop_ok {I : FsSend → ω → Prop} (m : FsSend → ℕ)
    (hround : ∀ sp w, I sp w → sp.spFs.eof = false →
      ∃ b sp' w', sendRound fnSendCb progCb sp w = .ok (b, sp', w') ∧ I sp' w' ∧
        (sp'.spFs.eof = false → m sp' < m sp)) :
    ∀ {fuel : ℕ} {sp : FsSend} {w : ω}, I sp w → (sp.spFs.eof = false → m sp < fuel) →
      ∃ r, addDataSendLoop fnSendCb progCb fuel sp w = .ok r := by
  intro fuel
  induction fuel with
  | zero =>
    intro sp w _ hm
    unfold addDataSendLoop
    have he : sp.spFs.eof = true := by
      by_contra he
      exact absurd (hm (by simpa using he)) (by omega)
    exact ⟨_, if_pos he⟩
  | succ fuel ih =>
    intro sp w hI hm
    unfold addDataSendLoop
    split_ifs with he
    · exact ⟨_, rfl⟩
    · rw [Bool.not_eq_true] at he
      obtain ⟨b, sp', w', hr, hI', hlt⟩ := hround sp w hI he
      have := hm he
      simp only [hr]
      cases b
      · exact ⟨_, rfl⟩
      · exact ih hI' fun he' => by have := hlt he'; omega

/-- A loop whose rounds return can only be endless. -/
theorem addDataSendLoop_error {I : FsSend → ω → Prop}
    (hround : ∀ sp w, I sp w → sp.spFs.eof = false →
      ∃ b sp' w', sendRound fnSendCb progCb sp w = .ok (b, sp', w') ∧ I sp' w') :
    ∀ {fuel : ℕ} {sp : FsSend} {w : ω} {e : Fault}, I sp w →
      addDataSendLoop fnSendCb progCb fuel sp w = .error e → e = .endless := by
  intro fuel
  induction fuel with
  | zero =>
    intro sp w e _ h
    unfold addDataSendLoop at h
    split_ifs at h
    exact (Except.error.inj h).symm
  | succ fuel ih =>
    intro sp w e hI h
    unfold addDataSendLoop at h
    split_ifs at h with he
    obtain ⟨b, sp', w', hr, hI'⟩ := hround sp w hI (by simpa using he)
    simp only [hr] at h
    split_ifs at h
    exact ih hI' h

/-- The round that a call makes on a transfer: one read, and one callback on
    what was read. -/
theorem sendRound_eq {sp sp' : FsSend} {w w' : ω} {b : Bool}
    (h : sendRound fnSendCb progCb sp w = .ok (b, sp', w')) :
    ∃ w₁, fnSendCb { sp with
          spFs := (sp.spFs.read 1024).1
          countSend := sp.countSend + (sp.spFs.read 1024).2.length }
        (sp.spFs.read 1024).2 w = (b, w₁) ∧
      sp'.spFs = (sp.spFs.read 1024).1 ∧
      sp'.countSend = sp.countSend + (sp.spFs.read 1024).2.length ∧
      sp'.lengthMax = sp.lengthMax ∧ sp'.filename = sp.filename ∧
      (w' = w₁ ∨ ∃ p sp₁, w' = progCb p sp₁ w₁) := by
  unfold sendRound at h
  rcases hr : sp.spFs.read 1024 with ⟨fs, buf⟩
  simp only [hr] at h
  rcases hc : fnSendCb { sp with spFs := fs, countSend := sp.countSend + buf.length } buf w with
    ⟨b₁, w₁⟩
  simp only [hc] at h
  rcases hp : percent (sp.countSend + buf.length) sp.lengthMax with e | p
  · simp [hp, Except.map] at h
  · simp only [hp, Except.map, Except.ok.injEq] at h
    split_ifs at h
    · simp only [Prod.mk.injEq] at h
      obtain ⟨rfl, rfl, rfl⟩ := h
      exact ⟨w₁, by rw [← hc], rfl, rfl, rfl, rfl, Or.inr ⟨_, _, rfl⟩⟩
    · simp only [Prod.mk.injEq] at h
      obtain ⟨rfl, rfl, rfl⟩ := h
      exact ⟨w₁, by rw [← hc], rfl, rfl, rfl, rfl, Or.inl rfl⟩

end

namespace FilesChannel

variable (fc : FilesChannel)

/-- `open_file_send` -/
def openFileSend (id : Int64) (filename : Str) (file : OpenRead) : Outcome (Bool × FilesChannel) :=
  if (fc.mapSend id).isSome then .ok (false, fc)
  else
    match file with
    | .closed => .ok (false, fc)
    | .unsized => .error (.thrown .filesystemError)
    | .file data ioError =>
      .ok (true, { fc with
        mapSend := Function.update fc.mapSend id
          (some ⟨0, 0, data.length, filename, .opened data ioError⟩) })

/-- `close_file_send` -/
def closeFileSend (id : Int64) : FilesChannel :=
  { fc with mapSend := Function.update fc.mapSend id none }

/-! ## Receiving -/

/-- `open_file_recv`, on the files of the system: opening a file for writing
    empties it. -/
def openFileRecv (disk : Str → Str) (id : Int64) (lengthMax : ℤ) (filename : Str)
    (file : Option Str) : Bool × FilesChannel × (Str → Str) :=
  if (fc.mapRecv id).isSome then (false, fc, disk)
  else
    match file with
    | none => (false, fc, disk)
    | some file =>
      (true, { fc with
        mapRecv := Function.update fc.mapRecv id
          (some ⟨0, 0, lengthMax, filename, .opened file⟩) }, Function.update disk file [])

/-- `add_data_recv`; `write` is what becomes of the write, and the last part of the
    result the progress that is reported. -/
def addDataRecv (disk : Str → Str) (id : Int64) (data : Str) (write : WriteAnswer) :
    Outcome (Bool × FilesChannel × (Str → Str) × Option ℤ) :=
  match fc.mapRecv id with
  | some sp =>
    let (fs, disk) := sp.spFs.write disk data write
    let ok := fs.good
    let sp := { sp with
      spFs := fs
      countRecv := if ok then sp.countRecv + data.length else sp.countRecv }
    (percent sp.countRecv sp.lengthMax).map fun prog =>
      let set sp := { fc with mapRecv := Function.update fc.mapRecv id (some sp) }
      if sp.prog < prog then (ok, set { sp with prog := prog }, disk, some prog)
      else (ok, set sp, disk, none)
  | none => .ok (false, fc, disk, none)

/-- `close_file_recv`, on the transfers. -/
def closeFileRecv (id : Int64) : FilesChannel :=
  { fc with mapRecv := Function.update fc.mapRecv id none }

/-- `close_file_recv`, on the files of the system: closing the stream flushes the
    first `closes` bytes of its buffer. -/
def flushFileRecv (disk : Str → Str) (id : Int64) (closes : ℕ) : Str → Str :=
  match fc.mapRecv id with
  | some sp => sp.spFs.close disk closes
  | none => disk

/-- `check_length_recv` -/
def checkLengthRecv (id : Int64) : Bool :=
  match fc.mapRecv id with
  | some sp => sp.countRecv == sp.lengthMax
  | none => false

/-! ## Channels -/

/-- `check_linit_flux` -/
def checkLinitFlux (ok : Bool) (sp : Option FsSend) (flux : ℤ) : Bool :=
  match sp with
  | some sp => if sp.countSend.tmod flux = 0 then false else ok
  | none => ok

/-- `add_file_recv` -/
def addFileRecv (idChannel idFile : Int64) : Bool × FilesChannel :=
  match fc.mapChannel idChannel with
  | some ch =>
    (true, { fc with
      mapChannel := Function.update fc.mapChannel idChannel
        (some { ch with setRecv := insert idFile ch.setRecv }) })
  | none => (false, fc)

/-- `add_file_send` -/
def addFileSend (idChannel idFile : Int64) : Bool × FilesChannel :=
  match fc.mapChannel idChannel with
  | some ch =>
    (true, { fc with
      mapChannel := Function.update fc.mapChannel idChannel
        (some { ch with setSend := insert idFile ch.setSend }) })
  | none => (false, fc)

/-- `remove_file_send` -/
def removeFileSend (idChannel idFile : Int64) : FilesChannel :=
  match fc.mapChannel idChannel with
  | some ch =>
    { fc with
      mapChannel := Function.update fc.mapChannel idChannel
        (some { ch with setSend := ch.setSend.erase idFile }) }
  | none => fc

/-- `remove_file_recv` -/
def removeFileRecv (idChannel idFile : Int64) : FilesChannel :=
  match fc.mapChannel idChannel with
  | some ch =>
    { fc with
      mapChannel := Function.update fc.mapChannel idChannel
        (some { ch with setRecv := ch.setRecv.erase idFile }) }
  | none => fc

/-- `open_file_send_channel` -/
def openFileSendChannel (idChannel idFile : Int64) (filename : Str) (file : OpenRead) :
    Outcome (Bool × FilesChannel) :=
  (fc.openFileSend idFile filename file).map fun (okOpen, fc) =>
    let (okFile, fc) := fc.addFileSend idChannel idFile
    if okOpen && okFile then (true, fc)
    else (false, (fc.closeFileSend idFile).removeFileSend idChannel idFile)

/-- `open_file_recv_channel`: if it does not succeed, what is open under the id is
    closed. -/
def openFileRecvChannel (disk : Str → Str) (idChannel idFile : Int64) (lengthMax : ℤ)
    (filename : Str) (file : Option Str) (closes : ℕ) : Bool × FilesChannel × (Str → Str) :=
  let (okOpen, fc, disk) := fc.openFileRecv disk idFile lengthMax filename file
  let (okFile, fc) := fc.addFileRecv idChannel idFile
  if okOpen && okFile then (true, fc, disk)
  else
    (false, (fc.closeFileRecv idFile).removeFileRecv idChannel idFile,
      fc.flushFileRecv disk idFile closes)

/-- `close_file_send_channel` -/
def closeFileSendChannel (idChannel idFile : Int64) : FilesChannel :=
  (fc.closeFileSend idFile).removeFileSend idChannel idFile

/-- `close_file_recv_channel` -/
def closeFileRecvChannel (idChannel idFile : Int64) : FilesChannel :=
  (fc.closeFileRecv idFile).removeFileRecv idChannel idFile

/-- `add_id_channel` -/
def addIdChannel (idChannel : Int64) : Bool × FilesChannel :=
  match fc.mapChannel idChannel with
  | some _ => (false, fc)
  | none => (true, { fc with mapChannel := Function.update fc.mapChannel idChannel (some ⟨∅, ∅⟩) })

/-- `remove_id_channel` -/
def removeIdChannel (idChannel : Int64) : FilesChannel :=
  { fc with mapChannel := Function.update fc.mapChannel idChannel none }

end FilesChannel

end SimpleChat
