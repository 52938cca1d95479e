/-
  qweb_files: what an event adds to the log, and which uploads it leaves alone.

  * `Observed`: what may be observed while a message is handled;
  * `uploadId`: the upload that a message is about;
  * `handled_handle`: every event adds such observations only, and the other uploads
    go on from where they were.
-/
import SimpleChat.Downloads
import SimpleChat.FinishReports

namespace SimpleChat

open Lib

/-- What may be observed while a message is handled. -/
inductive Observed : FilesMsg → FilesEv → Prop
  | control {m t b} : Observed m (.sent (setFilesJson t) b)
  | openedSend {m contents} : Observed (.createUploadBack m) (.openedSend m.id contents)
  | createUpload {m ok} : Observed (.createUploadBack m) (.snCreateUpload ok m.id m.absFile)
  | chunk {id data b} : Observed (.beginUploadBack id) (.sent (setFilesBinary id data) b)
  | progUpload {id prog} : Observed (.beginUploadBack id) (.snProgUpload id prog)
  | finishUpload {id ok} : Observed (.finishUploadBack id ok) (.snFinishUpload ok id)
  | createDownload {m ok} : Observed (.createDownloadBack m) (.snCreateDownload ok m.id m.absPath)
  | finishDownload {id ok b} : Observed (.finishDownloadBack id ok) (.snFinishDownload b id)
  | progDownload {id data prog} : Observed (.binary id data) (.snProgDownload id prog)

/-- What may be observed while an event is handled. -/
inductive ObservedAt (J : JsonLib) (e : FilesEvent) : FilesEv → Prop
  | opened {c} : e.1 = .opened c → ObservedAt J e .snOpen
  | closed : e.1 = .closed → ObservedAt J e .snClose
  | message {ev} : Observed (eventMsg J e) ev → ObservedAt J e ev

/-- The upload that a message is about. -/
def uploadId : FilesMsg → Option Int64
  | .createUploadBack m => some m.id
  | .beginUploadBack id | .finishUploadBack id _ => some id
  | _ => none

/-- What the handling of a message does to the log and to the uploads. -/
structure Handled (m : FilesMsg) (q q' : QwebFiles) : Prop where
  added : ∃ new, q'.log = q.log ++ new ∧ ∀ e ∈ new, Observed m e
  others : ∀ id, uploadId m ≠ some id → q'.fsSwap.mapSend id = q.fsSwap.mapSend id

section
variable {J : JsonLib} {a : Answers} {fuel : ℕ} {m : FilesMsg} {q q' : QwebFiles}

theorem Handled.refl (m : FilesMsg) (q : QwebFiles) : Handled m q q :=
  ⟨⟨[], by simp, by simp⟩, fun _ _ => rfl⟩

theorem Handled.emit (h : Handled m q q') {e : FilesEv} (he : Observed m e) :
    Handled m q (q'.emit e) := by
  obtain ⟨new, hlog, hnew⟩ := h.added
  refine ⟨⟨new ++ [e], ?_, fun e' he' => ?_⟩, h.others⟩
  · rw [← List.append_assoc, ← hlog]
    rfl
  · rcases List.mem_append.1 he' with he' | he'
    · exact hnew e' he'
    · rwa [List.mem_singleton.1 he']

theorem Handled.sendMsg (h : Handled m q q') (t : Str) : Handled m q (q'.sendMsg a t) := by
  have hsent : Handled m q (q'.emit (.sent (setFilesJson t) (a.sends q'.sends))) := h.emit .control
  exact ⟨hsent.added, hsent.others⟩

/-- A change of the transfers that leaves the other uploads alone. -/
theorem Handled.update (h : Handled m q q') {fc : FilesChannel} {disk : Str → Str}
    (hfc : ∀ id, uploadId m ≠ some id → fc.mapSend id = q'.fsSwap.mapSend id) :
    Handled m q { q' with fsSwap := fc, disk := disk } :=
  ⟨h.added, fun id hid => (hfc id hid).trans (h.others id hid)⟩

/-! ## Handlers -/

/-- After an attempt to open an upload. -/
theorem mapSend_openFileSendChannel {fc fc' : FilesChannel} {c id : Int64} {filename : Str}
    {file : OpenRead} {okOpen : Bool}
    (h : fc.openFileSendChannel c id filename file = .ok (okOpen, fc')) :
    fc'.mapSend = Function.update fc.mapSend id
      (if okOpen then FilesChannel.sendEntry filename file else none) := by
  rcases FilesChannel.openFileSendChannel_eq fc c id filename file with ⟨-, -, herr⟩ | ⟨fc₁, hok, hside, -⟩
  · rw [herr] at h
    cases h
  · rw [hok, Except.ok.injEq, Prod.mk.injEq] at h
    obtain ⟨rfl, rfl⟩ := h
    exact (congrArg Registry.entry hside).trans (Registry.openAt_entry _ _ _ _)

theorem handled_createUploadBack {m : FilesCreateUploadBack}
    (hq : q.createUploadBack J a m = .ok q') : Handled (.createUploadBack m) q q' := by
  unfold QwebFiles.createUploadBack at hq
  split_ifs at hq
  case neg => cases hq; exact .refl _ _
  obtain ⟨⟨okOpen, fc⟩, hopen, hq⟩ := bind_eq_ok.1 hq
  obtain ⟨s, hs, hq⟩ := bind_eq_ok.1 hq
  cases hq
  have hfc : Handled (.createUploadBack m) q { q with fsSwap := fc } := by
    refine (Handled.refl _ q).update fun id hid => ?_
    rw [mapSend_openFileSendChannel hopen]
    exact Function.update_of_ne (fun he => hid (by rw [he]; rfl)) _ _
  have hnote : Handled (.createUploadBack m) q
      ({ q with fsSwap := fc }.noteOpened okOpen m.id a.read) := by
    unfold QwebFiles.noteOpened
    split
    · exact hfc.emit .openedSend
    · exact hfc
  exact (hnote.sendMsg s).emit .createUpload

/-- A round of `add_data_send` sends one frame, and may report progress. -/
theorem observed_sendRound {id : Int64} {sp sp' : FsSend} {io io' : Io} {b : Bool}
    (hr : sendRound (QwebFiles.funcSend a id) (QwebFiles.funcProg id) sp io = .ok (b, sp', io')) :
    ∃ new, io'.log = io.log ++ new ∧ ∀ e ∈ new, Observed (.beginUploadBack id) e := by
  obtain ⟨io₁, hcb, -, -, -, -, hio⟩ := sendRound_eq hr
  simp only [QwebFiles.funcSend, QwebFiles.sendData, Io.send, Prod.mk.injEq] at hcb
  obtain ⟨-, rfl⟩ := hcb
  rcases hio with rfl | ⟨prog, sp₁, rfl⟩
  · refine ⟨_, rfl, fun e he => ?_⟩
    rw [List.mem_singleton.1 he]
    exact .chunk
  · refine ⟨_, List.append_assoc _ _ _, fun e he => ?_⟩
    rcases List.mem_append.1 he with he | he <;> rw [List.mem_singleton.1 he]
    · exact .chunk
    · exact .progUpload

theorem handled_beginUploadBack {id : Int64} (hq : q.beginUploadBack J fuel a id = .ok q') :
    Handled (.beginUploadBack id) q q' := by
  obtain ⟨⟨okSend, fc, io⟩, hsend, hq⟩ := bind_eq_ok.1 hq
  obtain ⟨s, hs, hq⟩ := bind_eq_ok.1 hq
  cases hq
  unfold addDataSend at hsend
  rcases hid : q.fsSwap.mapSend id with _ | sp
  · simp only [hid, Except.ok.injEq, Prod.mk.injEq] at hsend
    obtain ⟨-, rfl, rfl⟩ := hsend
    exact (Handled.refl _ q).sendMsg s
  simp only [hid] at hsend
  obtain ⟨⟨b, sp', io'⟩, hloop, hsend⟩ := map_eq_ok.1 hsend
  simp only [Prod.mk.injEq] at hsend
  obtain ⟨-, rfl, rfl⟩ := hsend
  let I : Bool → FsSend → Io → Prop := fun _ _ io =>
    ∃ new, io.log = q.log ++ new ∧ ∀ e ∈ new, Observed (.beginUploadBack id) e
  have hround : ∀ sp io b sp' io', I true sp io → sp.spFs.eof = false →
      sendRound (QwebFiles.funcSend a id) (QwebFiles.funcProg id) sp io = .ok (b, sp', io') →
        I b sp' io' := by
    rintro sp io b sp' io' ⟨new, hlog, hnew⟩ - hr
    obtain ⟨more, hmore, hobserved⟩ := observed_sendRound hr
    refine ⟨new ++ more, by rw [hmore, hlog, List.append_assoc], fun e he => ?_⟩
    exact (List.mem_append.1 he).elim (hnew e) (hobserved e)
  have hadded := (addDataSendLoop_inv hround ⟨[], by simp, by simp⟩ hloop).1
  have hsent : Handled (.beginUploadBack id) q { q with
      toIo := io'
      fsSwap := { q.fsSwap with mapSend := Function.update q.fsSwap.mapSend id (some sp') } } := by
    refine ⟨hadded, fun j hj => ?_⟩
    exact Function.update_of_ne (fun he => hj (by rw [he]; rfl)) _ _
  exact hsent.sendMsg s

theorem handled_finishUploadBack (q : QwebFiles) (id : Int64) (ok : Bool) :
    Handled (.finishUploadBack id ok) q (q.finishUploadBack id ok) := by
  have hmap : (q.fsSwap.closeFileSendChannel q.idChannel id).mapSend =
      Function.update q.fsSwap.mapSend id none :=
    (congrArg Registry.entry (FilesChannel.sendSide_closeFileSendChannel _ _ _)).trans
      (Registry.closeAt_entry _ _ _)
  have hclose : Handled (.finishUploadBack id ok) q
      { q with fsSwap := q.fsSwap.closeFileSendChannel q.idChannel id } := by
    refine (Handled.refl _ q).update fun j hj => ?_
    rw [hmap]
    exact Function.update_of_ne (fun he => hj (by rw [he]; rfl)) _ _
  exact hclose.emit .finishUpload

/-- What leaves the sending side as it is. -/
theorem Handled.recv (h : Handled m q q') {fc : FilesChannel} {disk : Str → Str}
    (hside : fc.sendSide = q'.fsSwap.sendSide) : Handled m q { q' with fsSwap := fc, disk := disk } :=
  h.update fun id _ => congrFun (congrArg Registry.entry hside) id

theorem handled_createDownloadBack {m : FilesCreateDownloadBack}
    (hq : q.createDownloadBack J a m = .ok q') : Handled (.createDownloadBack m) q q' := by
  unfold QwebFiles.createDownloadBack at hq
  by_cases hok : m.ok = true
  case neg => rw [if_neg hok] at hq; cases hq; exact .refl _ _
  rw [if_pos hok] at hq
  set filename := if m.savePath = [] then pathTemp ++ getFilename m.absPath else m.savePath
  have hside := (FilesChannel.openFileRecvChannel_eq q.fsSwap q.idChannel m.id q.disk
    m.lengthFile.toInt filename a.write a.closes).2
  rcases hopen : q.fsSwap.openFileRecvChannel q.disk q.idChannel m.id m.lengthFile.toInt filename
    a.write a.closes with ⟨okOpen, fc, disk⟩
  simp only [hopen] at hq hside
  obtain ⟨s, hs, hq⟩ := bind_eq_ok.1 hq
  cases hq
  exact (((Handled.refl _ q).recv hside).sendMsg s).emit .createDownload

theorem handled_beginDownloadBack {id : Int64} (hq : q.beginDownloadBack J a id = .ok q') :
    Handled (.beginDownloadBack id) q q' := by
  obtain ⟨s, hs, hq⟩ := bind_eq_ok.1 hq
  cases hq
  exact (Handled.refl _ q).sendMsg s

theorem handled_finishDownloadBack {id : Int64} {ok : Bool}
    (hq : q.finishDownloadBack J a id ok = .ok q') : Handled (.finishDownloadBack id ok) q q' := by
  obtain ⟨s, hs, hq⟩ := bind_eq_ok.1 hq
  cases hq
  have hclose : Handled (.finishDownloadBack id ok) q
      { q with
        fsSwap := q.fsSwap.closeFileRecvChannel q.idChannel id
        disk := q.fsSwap.flushFileRecv q.disk id a.closes } :=
    (Handled.refl _ q).recv (FilesChannel.sendSide_closeFileRecvChannel q.fsSwap q.idChannel id)
  exact (hclose.sendMsg s).emit .finishDownload

theorem handled_taskRecvBinaryData {id : Int64} {data : Str}
    (hq : q.taskRecvBinaryData a id data = .ok q') : Handled (.binary id data) q q' := by
  unfold QwebFiles.taskRecvBinaryData at hq
  obtain ⟨⟨ok, fc, disk, prog⟩, hadd, rfl⟩ := map_eq_ok.1 hq
  have hfc : Handled (.binary id data) q { q with fsSwap := fc, disk := disk } :=
    (Handled.refl _ q).recv (addDataRecv_sendSide hadd)
  cases prog with
  | none => exact hfc
  | some prog => exact hfc.emit .progDownload

theorem handled_onMsg (hq : q.onMsg J fuel a m = .ok q') : Handled m q q' := by
  cases m with
  | createUploadBack m => exact handled_createUploadBack hq
  | beginUploadBack id => exact handled_beginUploadBack hq
  | finishUploadBack id ok => cases hq; exact handled_finishUploadBack _ id ok
  | createDownloadBack m => exact handled_createDownloadBack hq
  | beginDownloadBack id => exact handled_beginDownloadBack hq
  | finishDownloadBack id ok => exact handled_finishDownloadBack hq
  | binary id data => exact handled_taskRecvBinaryData hq
  | other => cases hq; exact .refl _ _

/-- **Every event adds to the log what its message says**, and leaves the other
    uploads alone. -/
theorem handled_handle {e : FilesEvent} (hq : q.handle J fuel e = .ok q') :
    (∃ new, q'.log = q.log ++ new ∧ ∀ ev ∈ new, ObservedAt J e ev) ∧
    ∀ id, uploadId (eventMsg J e) ≠ some id → q'.fsSwap.mapSend id = q.fsSwap.mapSend id := by
  obtain ⟨input, a⟩ := e
  -- the count of calls of `send()` concerns nothing here
  have hmessage : ∀ {e : FilesEvent}, Handled (eventMsg J e) { q with sends := 0 } q' →
      (∃ new, q'.log = q.log ++ new ∧ ∀ ev ∈ new, ObservedAt J e ev) ∧
      ∀ id, uploadId (eventMsg J e) ≠ some id → q'.fsSwap.mapSend id = q.fsSwap.mapSend id := by
    intro e h
    obtain ⟨new, hlog, hnew⟩ := h.added
    exact ⟨⟨new, hlog, fun ev hev => .message (hnew ev hev)⟩, h.others⟩
  cases input with
  | opened c =>
    cases hq
    have hmap := congrArg Registry.entry (FilesChannel.sendSide_addIdChannel q.fsSwap c)
    rw [Registry.addChannel_entry] at hmap
    refine ⟨⟨[.snOpen], rfl, fun ev hev => ?_⟩, fun id _ => congrFun hmap id⟩
    rw [List.mem_singleton.1 hev]
    exact .opened rfl
  | closed =>
    cases hq
    refine ⟨⟨[.snClose], rfl, fun ev hev => ?_⟩, fun id _ => rfl⟩
    rw [List.mem_singleton.1 hev]
    exact .closed rfl
  | uploadFile absPath savePath =>
    refine hmessage ?_
    simp only [QwebFiles.handle, QwebFiles.uploadFile] at hq
    cases hsize : a.upload with
    | none => rw [hsize] at hq; cases hq; exact .refl _ _
    | some fileSize =>
      simp only [hsize] at hq
      obtain ⟨s, hs, hq⟩ := bind_eq_ok.1 hq
      cases hq
      exact (Handled.refl _ _).sendMsg s
  | downloadFile absPath savePath =>
    refine hmessage ?_
    obtain ⟨s, hs, hq⟩ := bind_eq_ok.1 hq
    cases hq
    exact (Handled.refl _ _).sendMsg s
  | message msg =>
    refine hmessage ?_
    simp only [QwebFiles.handle, QwebFiles.slMessage_eq] at hq
    obtain ⟨m, hm, hq⟩ := bind_eq_ok.1 hq
    have he : eventMsg J (.message msg, a) = m := by simp only [eventMsg, hm]
    exact he ▸ handled_onMsg hq

theorem eventMsg_message {msg : Str} (h : readFrame J msg = .ok m) (a : Answers) :
    eventMsg J (.message msg, a) = m := by
  simp only [eventMsg, h]

/-- A message that is no `other` comes in a frame that spells it. -/
theorem message_of_eventMsg {e : FilesEvent} (he : eventMsg J e = m) (hm : m ≠ .other) :
    ∃ msg, e.1 = .message msg ∧ readFrame J msg = .ok m := by
  obtain ⟨input, a⟩ := e
  cases input with
  | message msg =>
    refine ⟨msg, rfl, ?_⟩
    unfold eventMsg at he
    cases hr : readFrame J msg with
    | ok m' =>
      simp only [hr] at he
      rw [he]
    | error f =>
      simp only [hr] at he
      exact absurd he.symm hm
  | _ => exact absurd he.symm hm

end

end SimpleChat
