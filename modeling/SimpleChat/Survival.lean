/-
  qweb_files.cpp: what the client of the file server does not survive.

  Nothing catches an exception that leaves a callback of the connection, and an
  integer division by zero is fatal as well.

  * `UploadsSized`: the announced length of an upload is the size of a file;
  * `Fatal`: the events that kill the client, told from the state before them;
  * `fatal_of_error`, `not_fatal_of_ok`: these are the events that do not return,
    apart from an upload that never ends.
-/
import SimpleChat.FilesLog

namespace SimpleChat

open Lib

namespace QwebFiles

/-- The announced lengths of the open uploads are file sizes. -/
def UploadsSized (q : QwebFiles) : Prop :=
  ∀ id sp, q.fsSwap.mapSend id = some sp → 0 ≤ sp.lengthMax

/-- The events that kill the client: a frame whose text cannot be read, a directory
    to be uploaded, an upload of an empty file, data for a download of which no
    percentage can be computed, and a request that cannot be spelled. -/
def Fatal (J : JsonLib) (q : QwebFiles) (e : FilesEvent) : Prop :=
  match e.1 with
  | .opened _ | .closed => False
  | .uploadFile absPath savePath => ∃ fileSize err, e.2.upload = some fileSize ∧
    setFilesCreateUpload J fileSize absPath savePath = .error err
  | .downloadFile absPath savePath => ∃ err, setFilesCreateDownload J absPath savePath = .error err
  | .message msg =>
    match readFrame J msg with
    | .error _ => True
    | .ok (.createUploadBack m) => m.ok = true ∧ q.fsSwap.mapSend m.id = none ∧ e.2.read = .unsized
    | .ok (.beginUploadBack id) => ∃ sp, q.fsSwap.mapSend id = some sp ∧ sp.lengthMax = 0 ∧
      sp.spFs.eof = false
    | .ok (.binary id data) => ∃ r err, q.fsSwap.mapRecv id = some r ∧
      percent (if r.spFs.good && e.2.writes.ok then r.countRecv + data.length else r.countRecv)
        r.lengthMax = .error err
    | .ok _ => False

section
variable {J : JsonLib} {fuel : ℕ} {a : Answers} {q q' : QwebFiles} {e : FilesEvent} {err : Fault}

/-- The client dies while it reads a message, or on data or an upload; so no file is
    opened, and no download ends. -/
theorem Fatal.eventMsg_ne (h : q.Fatal J e) :
    e.1 ≠ .closed ∧ (∀ m, eventMsg J e ≠ .createDownloadBack m) ∧
      ∀ id ok, eventMsg J e ≠ .finishDownloadBack id ok := by
  obtain ⟨input, a⟩ := e
  cases input with
  | opened c => cases h
  | closed => cases h
  | uploadFile absPath savePath =>
    exact ⟨(fun he => by cases he), (fun _ he => by cases he), fun _ _ he => by cases he⟩
  | downloadFile absPath savePath =>
    exact ⟨(fun he => by cases he), (fun _ he => by cases he), fun _ _ he => by cases he⟩
  | message msg =>
    simp only [Fatal] at h
    rcases hm : readFrame J msg with err | m
    · simp [eventMsg, hm]
    · cases m with
      | createDownloadBack m => simp [hm] at h
      | finishDownloadBack id ok => simp [hm] at h
      | _ => simp [eventMsg, hm]

/-! ## The length of an upload -/

theorem sized_createUploadBack (h : q.UploadsSized) {m : FilesCreateUploadBack}
    (hq : q.createUploadBack J a m = .ok q') : q'.UploadsSized := by
  unfold createUploadBack at hq
  split_ifs at hq
  case neg => cases hq; exact h
  obtain ⟨⟨okOpen, fc⟩, hopen, hq⟩ := bind_eq_ok.1 hq
  obtain ⟨s, hs, hq⟩ := bind_eq_ok.1 hq
  cases hq
  have hfc : ∀ id sp, fc.mapSend id = some sp → 0 ≤ sp.lengthMax := by
    intro id sp hsp
    rw [mapSend_openFileSendChannel hopen] at hsp
    by_cases hid : id = m.id
    · rw [hid, Function.update_self] at hsp
      split_ifs at hsp
      cases hfile : a.read <;> rw [hfile] at hsp <;> cases hsp
      exact Int.natCast_nonneg _
    · rw [Function.update_of_ne hid] at hsp
      exact h id sp hsp
  have hnote : ({ q with fsSwap := fc }.noteOpened okOpen m.id a.read).fsSwap = fc := by
    unfold noteOpened
    split <;> rfl
  intro id sp hsp
  exact hfc id sp (hnote ▸ hsp)

theorem sized_beginUploadBack (h : q.UploadsSized) {id : Int64}
    (hq : q.beginUploadBack J fuel a id = .ok q') : q'.UploadsSized := by
  obtain ⟨⟨okSend, fc, io⟩, hsend, hq⟩ := bind_eq_ok.1 hq
  obtain ⟨s, hs, hq⟩ := bind_eq_ok.1 hq
  cases hq
  unfold addDataSend at hsend
  rcases hid : q.fsSwap.mapSend id with _ | sp
  · simp only [hid, Except.ok.injEq, Prod.mk.injEq] at hsend
    obtain ⟨-, rfl, -⟩ := hsend
    exact h
  simp only [hid] at hsend
  obtain ⟨⟨b, sp', io'⟩, hloop, hsend⟩ := map_eq_ok.1 hsend
  simp only [Prod.mk.injEq] at hsend
  obtain ⟨-, rfl, -⟩ := hsend
  -- a round does not change the announced length
  let I : Bool → FsSend → Io → Prop := fun _ sp _ => 0 ≤ sp.lengthMax
  have hround : ∀ sp io b sp' io', I true sp io → sp.spFs.eof = false →
      sendRound (funcSend a id) (funcProg id) sp io = .ok (b, sp', io') → I b sp' io' := by
    intro sp io b sp' io' hlen _ hr
    obtain ⟨_, _, _, _, hlength, _⟩ := sendRound_eq hr
    exact hlen.trans_eq hlength.symm
  have hlen := (addDataSendLoop_inv hround (h id sp hid) hloop).1
  intro i s hs
  by_cases hi : i = id
  · obtain rfl : sp' = s := Option.some.inj ((congrArg _ hi).trans (Function.update_self _ _ _) |>.symm.trans hs)
    exact hlen
  · exact h i s ((Function.update_of_ne hi _ _).symm.trans hs)

theorem sized_finishUploadBack (h : q.UploadsSized) (id : Int64) (ok : Bool) :
    (q.finishUploadBack id ok).UploadsSized := by
  have hmap : (q.fsSwap.closeFileSendChannel q.idChannel id).mapSend =
      Function.update q.fsSwap.mapSend id none :=
    (congrArg Registry.entry (FilesChannel.sendSide_closeFileSendChannel _ _ _)).trans
      (Registry.closeAt_entry _ _ _)
  intro i s hs
  have hs : (q.fsSwap.closeFileSendChannel q.idChannel id).mapSend i = some s := hs
  rw [hmap] at hs
  by_cases hi : i = id
  · rw [hi, Function.update_self] at hs
    cases hs
  · rw [Function.update_of_ne hi] at hs
    exact h i s hs

theorem uploadsSized_handle (h : q.UploadsSized) (hq : q.handle J fuel e = .ok q') :
    q'.UploadsSized := by
  have hothers := (handled_handle hq).2
  rcases hm : uploadId (eventMsg J e) with _ | id
  · intro id sp hsp
    exact h id sp ((hothers id (by rw [hm]; exact fun he => by cases he)).symm.trans hsp)
  have hne : eventMsg J e ≠ .other := by
    rintro he
    rw [he] at hm
    cases hm
  obtain ⟨msg, he, hread⟩ := message_of_eventMsg rfl hne
  obtain ⟨input, a⟩ := e
  obtain rfl : input = .message msg := he
  simp only [handle, slMessage_eq, hread, ok_bind] at hq
  have h₀ : UploadsSized { q with sends := 0 } := h
  cases hmsg : eventMsg J (.message msg, a) <;> rw [hmsg] at hq hm
  case createUploadBack m => exact sized_createUploadBack h₀ hq
  case beginUploadBack id => exact sized_beginUploadBack h₀ hq
  case finishUploadBack id ok => cases hq; exact sized_finishUploadBack h₀ id ok
  all_goals cases hm

/-! ## The events that do not return -/

theorem error_createUploadBack {m : FilesCreateUploadBack}
    (hq : q.createUploadBack J a m = .error err) :
    m.ok = true ∧ q.fsSwap.mapSend m.id = none ∧ a.read = .unsized := by
  unfold createUploadBack at hq
  split_ifs at hq with hok
  rcases FilesChannel.openFileSendChannel_eq q.fsSwap q.idChannel m.id m.absFile a.read with
    ⟨hnone, hread, -⟩ | ⟨fc, hopen, -⟩
  · exact ⟨hok, hnone, hread⟩
  · obtain ⟨begun, hbegun⟩ := exists_setFilesBeginUpload J m.id
    obtain ⟨ended, hended⟩ := exists_setFilesFinishUpload J m.id false
    rw [hopen, ok_bind, hbegun, hended] at hq
    simp only at hq
    split_ifs at hq <;> cases hq

/-- An upload of a file that is not empty is endless or goes on. -/
theorem error_beginUploadBack (h : q.UploadsSized) {id : Int64}
    (hq : q.beginUploadBack J fuel a id = .error err) (hne : err ≠ .endless) :
    ∃ sp, q.fsSwap.mapSend id = some sp ∧ sp.lengthMax = 0 ∧ sp.spFs.eof = false := by
  obtain ⟨begun, hbegun⟩ := exists_setFilesBeginUpload J id
  obtain ⟨ended, hended⟩ := exists_setFilesFinishUpload J id true
  rcases bind_eq_error.1 hq with hsend | ⟨⟨okSend, fc, io⟩, -, hset⟩
  swap
  · rcases bind_eq_error.1 hset with hset | ⟨s, -, hset⟩
    · rw [hbegun, hended] at hset
      split_ifs at hset
    · cases hset
  unfold addDataSend at hsend
  rcases hid : q.fsSwap.mapSend id with _ | sp <;> simp only [hid] at hsend
  · cases hsend
  have hloop := map_eq_error.1 hsend
  have heof : sp.spFs.eof = false := by
    by_contra heof
    rw [Bool.not_eq_false] at heof
    unfold addDataSendLoop at hloop
    rw [if_pos heof] at hloop
    cases hloop
  refine ⟨sp, rfl, ?_, heof⟩
  by_contra hzero
  have hpos : 0 < sp.lengthMax := lt_of_le_of_ne (h id sp hid) (Ne.symm hzero)
  -- with a positive length every round returns, and keeps the length
  let I : FsSend → Io → Prop := fun sp _ => 0 < sp.lengthMax
  have hround : ∀ sp io, I sp io → sp.spFs.eof = false → ∃ b sp' io',
      sendRound (funcSend a id) (funcProg id) sp io = .ok (b, sp', io') ∧ I sp' io' := by
    intro sp io hlen _
    obtain ⟨p, hp⟩ := percent_ok (sp.countSend + (sp.spFs.read 1024).2.length) hlen
    have hr : ∃ r, sendRound (funcSend a id) (funcProg id) sp io = .ok r := by
      unfold sendRound
      simp only [hp, Except.map]
      exact ⟨_, rfl⟩
    obtain ⟨⟨b, sp', io'⟩, hr⟩ := hr
    obtain ⟨_, _, _, _, hlength, _⟩ := sendRound_eq hr
    exact ⟨b, sp', io', hr, hlen.trans_eq hlength.symm⟩
  exact hne (addDataSendLoop_error hround hpos hloop)

theorem error_taskRecvBinaryData {id : Int64} {data : Str}
    (hq : q.taskRecvBinaryData a id data = .error err) : ∃ r, q.fsSwap.mapRecv id = some r ∧
      percent (if r.spFs.good && a.writes.ok then r.countRecv + data.length else r.countRecv)
        r.lengthMax = .error err := by
  have hadd := map_eq_error.1 hq
  unfold FilesChannel.addDataRecv at hadd
  rcases hid : q.fsSwap.mapRecv id with _ | r <;> simp only [hid] at hadd
  · cases hadd
  · have hpercent := map_eq_error.1 hadd
    rw [Ofstream.write_good] at hpercent
    exact ⟨r, rfl, hpercent⟩

/-- **What does not return is fatal**, or it never ends. -/
theorem fatal_of_error (h : q.UploadsSized) (hq : q.handle J fuel e = .error err)
    (hne : err ≠ .endless) : q.Fatal J e := by
  obtain ⟨input, a⟩ := e
  have h₀ : UploadsSized { q with sends := 0 } := h
  cases input with
  | opened c => cases hq
  | closed => cases hq
  | uploadFile absPath savePath =>
    simp only [handle, uploadFile] at hq
    rcases hsize : a.upload with _ | fileSize <;> simp only [hsize] at hq
    · cases hq
    · rcases bind_eq_error.1 hq with hset | ⟨s, -, hset⟩
      · exact ⟨fileSize, err, hsize, hset⟩
      · cases hset
  | downloadFile absPath savePath =>
    rcases bind_eq_error.1 hq with hset | ⟨s, -, hset⟩
    · exact ⟨err, hset⟩
    · cases hset
  | message msg =>
    simp only [handle, slMessage_eq] at hq
    simp only [Fatal]
    rcases hm : readFrame J msg with err' | m
    · trivial
    · rw [hm, ok_bind] at hq
      cases m with
      | createUploadBack m => exact error_createUploadBack (q := { q with sends := 0 }) hq
      | beginUploadBack id => exact error_beginUploadBack h₀ hq hne
      | binary id data =>
        obtain ⟨r, hr, hpercent⟩ := error_taskRecvBinaryData hq
        exact ⟨r, err, hr, hpercent⟩
      | createDownloadBack m =>
        obtain ⟨begun, hbegun⟩ := exists_setFilesBeginDownload J m.id
        obtain ⟨ended, hended⟩ := exists_setFilesFinishDownload (J := J) m.id false
        simp only [onMsg, createDownloadBack, hbegun, hended] at hq
        split_ifs at hq <;> cases hq
      | beginDownloadBack id =>
        obtain ⟨begun, hbegun⟩ := exists_setFilesBeginDownload J id
        simp only [onMsg, beginDownloadBack, hbegun] at hq
        cases hq
      | finishDownloadBack id ok =>
        obtain ⟨ended, hended⟩ := exists_setFilesFinishDownload (J := J) id true
        simp only [onMsg, finishDownloadBack, hended] at hq
        cases hq
      | finishUploadBack id ok => cases hq
      | other => cases hq

/-- **What is fatal does not return.** -/
theorem not_fatal_of_ok (hq : q.handle J fuel e = .ok q') : ¬ q.Fatal J e := by
  intro hfatal
  obtain ⟨input, a⟩ := e
  cases input with
  | opened c => exact hfatal
  | closed => exact hfatal
  | uploadFile absPath savePath =>
    obtain ⟨fileSize, err, hsize, hset⟩ := hfatal
    simp only at hsize
    simp only [handle, uploadFile, hsize, hset] at hq
    cases hq
  | downloadFile absPath savePath =>
    obtain ⟨err, hset⟩ := hfatal
    simp only [handle, downloadFile, hset] at hq
    cases hq
  | message msg =>
    simp only [handle, slMessage_eq] at hq
    obtain ⟨m, hm, hq⟩ := bind_eq_ok.1 hq
    simp only [Fatal, hm] at hfatal
    cases m with
    | createUploadBack m =>
      obtain ⟨hok, hnone, hread⟩ := hfatal
      simp only [onMsg, createUploadBack, if_pos hok, FilesChannel.openFileSendChannel,
        FilesChannel.openFileSend, hnone, hread] at hq
      cases hq
    | beginUploadBack id =>
      obtain ⟨sp, hsp, hzero, heof⟩ := hfatal
      obtain ⟨r, hsend, -⟩ := bind_eq_ok.1 hq
      simp only [addDataSend, hsp] at hsend
      obtain ⟨r', hloop, -⟩ := map_eq_ok.1 hsend
      unfold addDataSendLoop at hloop
      rw [if_neg (by simp [heof])] at hloop
      cases fuel with
      | zero => cases hloop
      | succ fuel =>
        simp only [sendRound, percent, hzero, true_or, if_true, Except.map] at hloop
        cases hloop
    | binary id data =>
      obtain ⟨r, err, hr, hpercent⟩ := hfatal
      simp only [onMsg, taskRecvBinaryData, FilesChannel.addDataRecv, hr, Ofstream.write_good,
        hpercent] at hq
      cases hq
    | _ => exact hfatal

end

end QwebFiles

end SimpleChat
