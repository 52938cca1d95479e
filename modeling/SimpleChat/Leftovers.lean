/-
  qweb_files: the files that downloads leave behind.

  A download writes to its final path from the start, and nothing removes the
  file when the download does not come to its end.

  * `Tracked`: the client, the files that exist, and those whose last download
    was reported complete;
  * `targets`: the file that each open download writes, and the connection that
    lists it; `targets_handle`: what an event does to them;
  * `Kept`: the event does not end the last download of a file before its end;
  * `noLeftover_of_run`: in runs of such events an incomplete file is one that is
    still being downloaded; after any other event it is not
    (`noLeftover_step_iff`).
-/
import SimpleChat.Survival

namespace SimpleChat

open Lib

/-! ## The targets of downloads -/

/-- The file that each open download writes, and the live connections that list
    the downloads. -/
def targets (q : QwebFiles) : Registry Int64 Int64 Str := q.fsSwap.recvSide.map (·.spFs.file)

/-- What an event does to the targets. -/
def targetsStep (J : JsonLib) (idChannel : Int64) (e : FilesEvent) (r : Registry Int64 Int64 Str) :
    Registry Int64 Int64 Str :=
  match e.1 with
  | .opened c => r.addChannel c
  | .closed => r.dropChannel idChannel
  | _ =>
    match eventMsg J e with
    | .createDownloadBack m => if m.ok then (r.openAt idChannel m.id e.2.write).2 else r
    | .finishDownloadBack id _ => r.closeAt idChannel id
    | _ => r

section
variable {J : JsonLib} {fuel : ℕ} {a : Answers} {q q' : QwebFiles}

theorem Apart.targets_eq (h : Apart q q') : targets q' = targets q :=
  congrArg (Registry.map _) h.recvSide_eq

theorem targets_createDownloadBack {m : FilesCreateDownloadBack}
    (hq : q.createDownloadBack J a m = .ok q') :
    targets q' = if m.ok then ((targets q).openAt q.idChannel m.id a.write).2 else targets q := by
  unfold QwebFiles.createDownloadBack at hq
  by_cases hok : m.ok = true
  case neg =>
    rw [if_neg hok] at hq ⊢
    cases hq
    rfl
  rw [if_pos hok] at hq ⊢
  set filename := if m.savePath = [] then pathTemp ++ getFilename m.absPath else m.savePath
  have hside := (FilesChannel.openFileRecvChannel_eq q.fsSwap q.idChannel m.id q.disk
    m.lengthFile.toInt filename a.write a.closes).1
  rcases hopen : q.fsSwap.openFileRecvChannel q.disk q.idChannel m.id m.lengthFile.toInt filename
    a.write a.closes with ⟨okOpen, fc, disk⟩
  simp only [hopen] at hq hside
  obtain ⟨s, hs, hq⟩ := bind_eq_ok.1 hq
  cases hq
  have hfile : (FilesChannel.recvEntry m.lengthFile.toInt filename a.write).map (·.spFs.file) =
      a.write := by
    cases a.write <;> rfl
  have hrecv : fc.recvSide = (q.fsSwap.recvSide.openAt q.idChannel m.id
    (FilesChannel.recvEntry m.lengthFile.toInt filename a.write)).2 := congrArg Prod.snd hside
  show fc.recvSide.map _ = _
  rw [hrecv, Registry.map_openAt, hfile]
  rfl

theorem targets_finishDownloadBack {id : Int64} {ok : Bool}
    (hq : q.finishDownloadBack J a id ok = .ok q') :
    targets q' = (targets q).closeAt q.idChannel id := by
  obtain ⟨s, hs, hq⟩ := bind_eq_ok.1 hq
  cases hq
  show (q.fsSwap.closeFileRecvChannel q.idChannel id).recvSide.map _ = _
  rw [FilesChannel.recvSide_closeFileRecvChannel]
  exact Registry.map_closeAt _ _ _ _

/-- Data changes what is counted, not where it goes. -/
theorem targets_taskRecvBinaryData {id : Int64} {data : Str}
    (hq : q.taskRecvBinaryData a id data = .ok q') : targets q' = targets q := by
  unfold QwebFiles.taskRecvBinaryData FilesChannel.addDataRecv at hq
  rcases hid : q.fsSwap.mapRecv id with _ | r
  · simp only [hid, Except.map, Except.ok.injEq] at hq
    subst hq
    rfl
  · simp only [hid] at hq
    have hfile : (r.spFs.write q.disk data a.writes).1.file = r.spFs.file := r.spFs.write_file _ _ _
    -- whatever becomes of the transfer, it keeps its file
    have key : ∀ r' : FsRecv, r'.spFs.file = r.spFs.file →
        Registry.map (fun r : FsRecv => r.spFs.file)
          { q.fsSwap.recvSide with entry := Function.update q.fsSwap.mapRecv id (some r') } =
          targets q := by
      intro r' hr'
      ext1
      · funext j
        by_cases hj : j = id
        · subst hj
          simp [targets, Registry.map, FilesChannel.recvSide, hid, hr']
        · simp [targets, Registry.map, FilesChannel.recvSide, hj]
      · rfl
    rcases hw : r.spFs.write q.disk data a.writes with ⟨fs, disk⟩
    simp only [hw] at hq hfile
    rcases hp : percent (if fs.good then r.countRecv + data.length else r.countRecv) r.lengthMax
      with err | prog <;> simp only [hp, Except.map] at hq
    · cases hq
    · by_cases hlt : r.prog < prog
      · simp only [hlt, if_true, Except.ok.injEq] at hq
        subst hq
        exact key _ hfile
      · simp only [hlt, if_false, Except.ok.injEq] at hq
        subst hq
        exact key _ hfile

/-- **What an event does to the targets.** -/
theorem targets_handle {e : FilesEvent} (hq : q.handle J fuel e = .ok q') :
    targets q' = targetsStep J q.idChannel e (targets q) := by
  obtain ⟨input, a⟩ := e
  have happart : ∀ {q₁ : QwebFiles}, Apart { q with sends := 0 } q₁ → targets q₁ = targets q :=
    fun h => h.targets_eq
  cases input with
  | opened c =>
    cases hq
    show (q.fsSwap.addIdChannel c).2.recvSide.map _ = _
    rw [FilesChannel.recvSide_addIdChannel]
    exact Registry.map_addChannel _ _ _
  | closed =>
    cases hq
    show (q.fsSwap.removeIdChannel q.idChannel).recvSide.map _ = _
    rw [FilesChannel.recvSide_removeIdChannel]
    rfl
  | uploadFile absPath savePath => exact happart (apart_uploadFile hq)
  | downloadFile absPath savePath => exact happart (apart_downloadFile hq)
  | message msg =>
    simp only [QwebFiles.handle, QwebFiles.slMessage_eq] at hq
    obtain ⟨m, hm, hq⟩ := bind_eq_ok.1 hq
    have he : eventMsg J (.message msg, a) = m := by simp only [eventMsg, hm]
    simp only [targetsStep, he]
    cases m with
    | createUploadBack m => exact happart (apart_createUploadBack hq)
    | beginUploadBack id => exact happart (apart_beginUploadBack hq)
    | finishUploadBack id ok =>
      cases hq
      exact happart (apart_finishUploadBack _ id ok)
    | createDownloadBack m => exact targets_createDownloadBack (q := { q with sends := 0 }) hq
    | beginDownloadBack id => exact happart (apart_beginDownloadBack hq)
    | finishDownloadBack id ok => exact targets_finishDownloadBack (q := { q with sends := 0 }) hq
    | binary id data => exact targets_taskRecvBinaryData (q := { q with sends := 0 }) hq
    | other => cases hq; rfl

/-! ## Reports -/

theorem quiet_createDownloadBack {m : FilesCreateDownloadBack}
    (hq : q.createDownloadBack J a m = .ok q') : Quiet q q' := by
  unfold QwebFiles.createDownloadBack at hq
  split_ifs at hq
  · obtain ⟨s, hs, hq⟩ := bind_eq_ok.1 hq
    cases hq
    exact ((Quiet.refl q).sendMsg s).emit fun _ _ he => by cases he
  · obtain ⟨s, hs, hq⟩ := bind_eq_ok.1 hq
    cases hq
    exact ((Quiet.refl q).sendMsg s).emit fun _ _ he => by cases he
  · cases hq
    exact .refl q

theorem quiet_taskRecvBinaryData {id : Int64} {data : Str}
    (hq : q.taskRecvBinaryData a id data = .ok q') : Quiet q q' := by
  unfold QwebFiles.taskRecvBinaryData at hq
  rcases hadd : q.fsSwap.addDataRecv q.disk id data a.writes with err | ⟨ok, fc, disk, prog⟩
  · rw [hadd] at hq
    cases hq
  · rw [hadd] at hq
    have hquiet : Quiet q { q with fsSwap := fc, disk := disk } := .refl q
    rcases prog with _ | prog
    · cases hq
      exact hquiet
    · cases hq
      exact hquiet.emit fun _ _ he => by cases he

/-- The signals that an event emits. -/
def Emitted (q q' : QwebFiles) (ev : FilesEv) : Prop := ∃ new, q'.log = q.log ++ new ∧ ev ∈ new

theorem Quiet.not_emitted (h : Quiet q q') (ok : Bool) (id : Int64) :
    ¬ Emitted q q' (.snFinishDownload ok id) := by
  rintro ⟨new, hlog, hmem⟩
  obtain ⟨new', hlog', hquiet⟩ := h
  rw [hlog, List.append_cancel_left_eq] at hlog'
  exact hquiet ok id (hlog' ▸ hmem)

theorem emitted_finishDownloadBack {i : Int64} {ok : Bool}
    (hq : q.finishDownloadBack J a i ok = .ok q') (id : Int64) :
    Emitted q q' (.snFinishDownload true id) ↔
      id = i ∧ ok = true ∧ q.fsSwap.checkLengthRecv id = true := by
  obtain ⟨s, hs, hq⟩ := bind_eq_ok.1 hq
  cases hq
  have hlog : ∀ new, q.log ++ [.sent (setFilesJson s) (a.sends q.sends)] ++
      [.snFinishDownload (q.fsSwap.checkLengthRecv i && ok) i] = q.log ++ new ↔
        [.sent (setFilesJson s) (a.sends q.sends),
          .snFinishDownload (q.fsSwap.checkLengthRecv i && ok) i] = new := by
    intro new
    rw [List.append_assoc, List.append_cancel_left_eq]
    rfl
  refine (exists_congr fun new => and_congr_left fun _ => hlog new).trans ?_
  simp only [exists_eq_left', List.mem_cons, List.not_mem_nil, or_false, reduceCtorEq, false_or,
    FilesEv.snFinishDownload.injEq]
  constructor
  · rintro ⟨hok, rfl⟩
    rw [eq_comm, Bool.and_eq_true] at hok
    exact ⟨rfl, hok.2, hok.1⟩
  · rintro ⟨rfl, hok, hcheck⟩
    rw [hok, hcheck]
    exact ⟨rfl, rfl⟩

/-- **When the end of a download is reported**: its message says so, and all of it
    has arrived. -/
theorem emitted_handle {e : FilesEvent} (hq : q.handle J fuel e = .ok q') (id : Int64) :
    Emitted q q' (.snFinishDownload true id) ↔
      eventMsg J e = .finishDownloadBack id true ∧ q.fsSwap.checkLengthRecv id = true := by
  obtain ⟨input, a⟩ := e
  have hquiet : ∀ {q₁ : QwebFiles} {m : FilesMsg}, Quiet { q with sends := 0 } q₁ →
      (∀ i ok, m ≠ .finishDownloadBack i ok) → (Emitted q q₁ (.snFinishDownload true id) ↔
        m = .finishDownloadBack id true ∧ q.fsSwap.checkLengthRecv id = true) :=
    fun h hm => iff_of_false (h.not_emitted true id) fun hf => hm id true hf.1
  cases input with
  | opened c =>
    cases hq
    have hopen : Quiet { q with sends := 0 }
      { q with sends := 0, idChannel := c, fsSwap := (q.fsSwap.addIdChannel c).2 } := .refl _
    exact hquiet (hopen.emit fun _ _ he => by cases he) fun _ _ he => by cases he
  | closed =>
    cases hq
    have hclose : Quiet { q with sends := 0 }
      { q with sends := 0, fsSwap := q.fsSwap.removeIdChannel q.idChannel } := .refl _
    exact hquiet (hclose.emit fun _ _ he => by cases he) fun _ _ he => by cases he
  | uploadFile absPath savePath => exact hquiet (apart_uploadFile hq).quiet fun _ _ he => by cases he
  | downloadFile absPath savePath =>
    exact hquiet (apart_downloadFile hq).quiet fun _ _ he => by cases he
  | message msg =>
    simp only [QwebFiles.handle, QwebFiles.slMessage_eq] at hq
    obtain ⟨m, hm, hq⟩ := bind_eq_ok.1 hq
    have he : eventMsg J (.message msg, a) = m := by simp only [eventMsg, hm]
    rw [he]
    cases m with
    | createUploadBack m => exact hquiet (apart_createUploadBack hq).quiet fun _ _ he => by cases he
    | beginUploadBack i => exact hquiet (apart_beginUploadBack hq).quiet fun _ _ he => by cases he
    | finishUploadBack i ok =>
      cases hq
      exact hquiet (apart_finishUploadBack _ i ok).quiet fun _ _ he => by cases he
    | createDownloadBack m => exact hquiet (quiet_createDownloadBack hq) fun _ _ he => by cases he
    | beginDownloadBack i =>
      exact hquiet (apart_beginDownloadBack hq).quiet fun _ _ he => by cases he
    | finishDownloadBack i ok =>
      refine (emitted_finishDownloadBack (q := { q with sends := 0 }) hq id).trans ?_
      rw [FilesMsg.finishDownloadBack.injEq, and_assoc, eq_comm]
    | binary i data => exact hquiet (quiet_taskRecvBinaryData hq) fun _ _ he => by cases he
    | other => cases hq; exact hquiet (.refl _) fun _ _ he => by cases he

end

/-! ## Files on disk -/

/-- What an event does to the files on disk. -/
def diskStep (J : JsonLib) (q : QwebFiles) (e : FilesEvent) : Str → Str :=
  match eventMsg J e with
  | .createDownloadBack m =>
    if m.ok then
      match q.fsSwap.mapRecv m.id, e.2.write with
      | some r, _ => r.spFs.close q.disk e.2.closes
      | none, some file => Function.update q.disk file []
      | none, none => q.disk
    else q.disk
  | .binary id data =>
    match q.fsSwap.mapRecv id with
    | some r => (r.spFs.write q.disk data e.2.writes).2
    | none => q.disk
  | .finishDownloadBack id _ => q.fsSwap.flushFileRecv q.disk id e.2.closes
  | _ => q.disk

section
variable {J : JsonLib} {fuel : ℕ} {a : Answers} {q q' : QwebFiles}

theorem disk_createDownloadBack {m : FilesCreateDownloadBack}
    (hq : q.createDownloadBack J a m = .ok q') : q'.disk = if m.ok then
      match q.fsSwap.mapRecv m.id, a.write with
      | some r, _ => r.spFs.close q.disk a.closes
      | none, some file => Function.update q.disk file []
      | none, none => q.disk
    else q.disk := by
  unfold QwebFiles.createDownloadBack at hq
  by_cases hok : m.ok = true
  case neg =>
    rw [if_neg hok] at hq ⊢
    cases hq
    rfl
  rw [if_pos hok] at hq ⊢
  obtain ⟨s, hs, hq⟩ := bind_eq_ok.1 hq
  cases hq
  exact openFileRecvChannel_disk _ _ _ _ _ _ _ _

theorem disk_taskRecvBinaryData {id : Int64} {data : Str}
    (hq : q.taskRecvBinaryData a id data = .ok q') : q'.disk =
      match q.fsSwap.mapRecv id with
      | some r => (r.spFs.write q.disk data a.writes).2
      | none => q.disk := by
  obtain ⟨⟨ok, fc, disk, prog⟩, hadd, rfl⟩ := map_eq_ok.1 hq
  have hdisk : disk = match q.fsSwap.mapRecv id with
      | some r => (r.spFs.write q.disk data a.writes).2
      | none => q.disk := by
    unfold FilesChannel.addDataRecv at hadd
    rcases hid : q.fsSwap.mapRecv id with _ | r <;> simp only [hid] at hadd
    · cases hadd
      rfl
    · obtain ⟨p, -, hadd⟩ := map_eq_ok.1 hadd
      split_ifs at hadd <;> cases hadd <;> rfl
  rw [← hdisk]
  cases prog <;> rfl

/-- **What an event does to the files.** -/
theorem disk_handle {e : FilesEvent} (hq : q.handle J fuel e = .ok q') : q'.disk = diskStep J q e := by
  obtain ⟨input, a⟩ := e
  cases input with
  | opened c => cases hq; rfl
  | closed => cases hq; rfl
  | uploadFile absPath savePath => exact (apart_uploadFile hq).disk_eq
  | downloadFile absPath savePath => exact (apart_downloadFile hq).disk_eq
  | message msg =>
    simp only [QwebFiles.handle, QwebFiles.slMessage_eq] at hq
    obtain ⟨m, hm, hq⟩ := bind_eq_ok.1 hq
    simp only [diskStep, eventMsg, hm]
    cases m with
    | createUploadBack m => exact (apart_createUploadBack hq).disk_eq
    | beginUploadBack id => exact (apart_beginUploadBack hq).disk_eq
    | finishUploadBack id ok =>
      cases hq
      exact (apart_finishUploadBack _ id ok).disk_eq
    | createDownloadBack m => exact disk_createDownloadBack (q := { q with sends := 0 }) hq
    | beginDownloadBack id => exact (apart_beginDownloadBack hq).disk_eq
    | finishDownloadBack id ok =>
      obtain ⟨s, hs, hq⟩ := bind_eq_ok.1 hq
      cases hq
      rfl
    | binary id data => exact disk_taskRecvBinaryData (q := { q with sends := 0 }) hq
    | other => cases hq; rfl

end

/-- A message that opens, feeds and ends no download. -/
def FilesMsg.Aside : FilesMsg → Prop
  | .createDownloadBack m => m.ok = false
  | .binary _ _ | .finishDownloadBack _ _ => False
  | _ => True

/-- The file that an event opens for writing; opening it creates it. -/
def openedFile (J : JsonLib) (q : QwebFiles) (e : FilesEvent) : Option Str :=
  match eventMsg J e with
  | .createDownloadBack m => if m.ok && (q.fsSwap.mapRecv m.id).isNone then e.2.write else none
  | _ => none

/-- What the frames for each download have brought since it was created. -/
def gotStep (J : JsonLib) (q : QwebFiles) (e : FilesEvent) (got : Int64 → Str) : Int64 → Str :=
  match eventMsg J e with
  | .createDownloadBack m =>
    if m.ok && (q.fsSwap.mapRecv m.id).isNone then Function.update got m.id [] else got
  | .binary id data => Function.update got id (got id ++ data)
  | _ => got

/-- The client and whether it is still running, what has come for its downloads, the
    files that exist, and the complete ones. -/
structure Tracked where
  client : QwebFiles
  alive : Bool
  got : Int64 → Str
  present : Set Str
  finished : Set Str

namespace Tracked

/-- On the way to `q'` the completion of a download to `f` is reported, and `f` holds
    exactly what has come for it, which is as much as was announced. -/
def Completed (t : Tracked) (q' : QwebFiles) (f : Str) : Prop :=
  ∃ id r, Emitted t.client q' (.snFinishDownload true id) ∧ t.client.fsSwap.mapRecv id = some r ∧
    r.spFs.file = f ∧ q'.disk f = t.got id ∧ ((t.got id).length : ℤ) = r.lengthMax

section
variable (J : JsonLib) (fuel : ℕ)

/-- A step of the client, and the files after it.  An event that is not handled kills
    the client, and leaves what is on disk.  A file is complete from the report on until
    it is opened or changed. -/
structure Step (t : Tracked) (e : FilesEvent) (t' : Tracked) : Prop where
  running : t.alive = true
  ends : (t.client.Step J fuel e t'.client ∧ t'.alive = true) ∨
    ((∃ err, t.client.handle J fuel e = .error err ∧ err ≠ .endless) ∧
      t'.client = { t.client with disk := diskStep J t.client e } ∧ t'.alive = false)
  got_eq : t'.got = gotStep J t.client e t.got
  present_iff : ∀ f, f ∈ t'.present ↔ f ∈ t.present ∨ openedFile J t.client e = some f
  finished_iff : ∀ f, f ∈ t'.finished ↔ (f ∈ t.finished ∧ openedFile J t.client e ≠ some f ∧
    t'.client.disk f = t.client.disk f) ∨ Completed t t'.client f

/-- A download to `f` is in progress on a live connection. -/
def InProgress (t : Tracked) (f : Str) : Prop := t.alive = true ∧ (targets t.client).Holds f

/-- If `f` exists, it is complete or still being downloaded. -/
def NoLeftover (f : Str) (t : Tracked) : Prop := f ∈ t.present → f ∈ t.finished ∨ t.InProgress f

/-- `f` is complete, and the event leaves it as it is. -/
def Stays (f : Str) (t : Tracked) (e : FilesEvent) : Prop :=
  f ∈ t.finished ∧ diskStep J t.client e f = t.client.disk f

/-- A download to `f` under another id than `id` is in progress. -/
def Elsewhere (f : Str) (t : Tracked) (id : Int64) : Prop :=
  ∃ c i, i ≠ id ∧ (targets t.client).Listed c i ∧ (targets t.client).entry i = some f

/-- The end of the download of `f` under `id` is reported, and when the file is closed
    it holds exactly what has come for it, which is as much as was announced. -/
def Completes (f : Str) (t : Tracked) (e : FilesEvent) (id : Int64) (ok : Bool) : Prop :=
  ∃ r, t.client.fsSwap.mapRecv id = some r ∧ r.spFs.file = f ∧ ok = true ∧
    r.countRecv = r.lengthMax ∧ r.spFs.close t.client.disk e.2.closes f = t.got id ∧
    ((t.got id).length : ℤ) = r.lengthMax

/-- The event does not end the last download of `f` before its end, and does not touch
    `f` after it. -/
structure Kept (f : Str) (t : Tracked) (e : FilesEvent) : Prop where
  /-- If the connection closes, `f` is downloaded on another one. -/
  closed : e.1 = .closed → f ∈ t.present → f ∈ t.finished ∨ ∃ c i, c ≠ t.client.idChannel ∧
    (targets t.client).Listed c i ∧ (targets t.client).entry i = some f
  /-- A download that is created anew is not that of `f`, and `f` is not created
      for a connection that is gone. -/
  created : ∀ m, eventMsg J e = .createDownloadBack m → m.ok = true →
    if ((targets t.client).entry m.id).isSome then
      f ∈ t.present → Stays J f t e ∨ Elsewhere f t m.id
    else e.2.write = some f →
      ((targets t.client).lists t.client.idChannel).isSome ∨ (targets t.client).Holds f
  /-- No data for a download whose connection is gone gets into `f`. -/
  received : ∀ id data, eventMsg J e = .binary id data → f ∈ t.present →
    Stays J f t e ∨ (targets t.client).Holds f
  /-- A download of `f` that is finished is complete. -/
  finished : ∀ id ok, eventMsg J e = .finishDownloadBack id ok → f ∈ t.present →
    Stays J f t e ∨ Completes f t e id ok ∨ Elsewhere f t id
  /-- The client is not killed while `f` is being downloaded. -/
  killed : t.client.Fatal J e → f ∈ t.present → Stays J f t e

end

variable {J : JsonLib} {fuel : ℕ} {t t' : Tracked} {f : Str} {e : FilesEvent}

theorem Step.disk_eq (hs : Step J fuel t e t') : t'.client.disk = diskStep J t.client e := by
  rcases hs.ends with ⟨hq, -⟩ | ⟨-, hclient, -⟩
  · exact disk_handle hq
  · rw [hclient]

/-- Only the message that ends a download completes a file. -/
theorem Step.not_completed (hs : Step J fuel t e t')
    (hreport : ∀ id ok, eventMsg J e ≠ .finishDownloadBack id ok) : ¬ Completed t t'.client f := by
  rintro ⟨id, r, hemit, -⟩
  rcases hs.ends with ⟨hq, -⟩ | ⟨-, hclient, -⟩
  · exact hreport id true ((emitted_handle hq id).1 hemit).1
  · obtain ⟨new, hlog, hmem⟩ := hemit
    rw [hclient] at hlog
    rw [List.self_eq_append_right.1 hlog] at hmem
    cases hmem

/-- A step that neither opens a file nor reports the end of a download. -/
theorem Step.noLeftover_iff (hs : Step J fuel t e t') (hopen : openedFile J t.client e = none)
    (hreport : ∀ id ok, eventMsg J e ≠ .finishDownloadBack id ok) :
    NoLeftover f t' ↔ (f ∈ t.present → Stays J f t e ∨ t'.InProgress f) := by
  simp only [NoLeftover, Stays, hs.present_iff, hs.finished_iff, hs.not_completed hreport, hopen,
    hs.disk_eq, or_false, reduceCtorEq, ne_eq, not_false_eq_true, true_and]

theorem isNone_mapRecv (q : QwebFiles) (id : Int64) :
    (q.fsSwap.mapRecv id).isNone = ((targets q).entry id).isNone := by
  simp [targets, Registry.map, FilesChannel.recvSide]

/-- Closing an id that is not open ends no download. -/
theorem holds_closeAt_of_none {κ ι β : Type} [DecidableEq κ] [DecidableEq ι] {r : Registry κ ι β}
    {c : κ} {i : ι} {v : β} (hi : r.entry i = none) : (r.closeAt c i).Holds v ↔ r.Holds v := by
  rw [Registry.holds_closeAt]
  constructor
  · rintro ⟨c', j, -, hl, he⟩
    exact ⟨c', j, hl, he⟩
  · rintro ⟨c', j, hl, he⟩
    refine ⟨c', j, ?_, hl, he⟩
    rintro rfl
    rw [hi] at he
    cases he

/-- What is complete stays so in an event that does not touch the files. -/
theorem stays_iff (hd : diskStep J t.client e = t.client.disk) : Stays J f t e ↔ f ∈ t.finished := by
  rw [Stays, hd, eq_self_iff_true, and_true]

/-! ## One step -/

theorem noLeftover_create_iff (h : NoLeftover f t) (hs : Step J fuel t e t') {m : FilesCreateDownloadBack}
    (hm : eventMsg J e = .createDownloadBack m) (hok : m.ok = true) (halive : t'.alive = true)
    (htargets : targets t'.client =
      ((targets t.client).openAt t.client.idChannel m.id e.2.write).2) :
    NoLeftover f t' ↔ if ((targets t.client).entry m.id).isSome then
        f ∈ t.present → Stays J f t e ∨ Elsewhere f t m.id
      else e.2.write = some f →
        ((targets t.client).lists t.client.idChannel).isSome ∨ (targets t.client).Holds f := by
  have hreport : ∀ id ok, eventMsg J e ≠ .finishDownloadBack id ok := by
    intro id ok hf
    rw [hm] at hf
    cases hf
  rcases hentry : (targets t.client).entry m.id with _ | g
  · have hnone : t.client.fsSwap.mapRecv m.id = none := by
      rw [← Option.isNone_iff_eq_none, isNone_mapRecv, hentry]; rfl
    have hopened : openedFile J t.client e = e.2.write := by
      simp only [openedFile, hm, hok, hnone, Option.isNone_none, Bool.and_self, if_true]
    simp only [Option.isSome_none, Bool.false_eq_true, if_false]
    rcases hwrite : e.2.write with _ | g
    · -- nothing is opened, and nothing was open under the id
      have hdisk : diskStep J t.client e = t.client.disk := by
        simp only [diskStep, hm, hok, if_true, hnone, hwrite]
      rw [hs.noLeftover_iff (hopened.trans hwrite) hreport, stays_iff hdisk, InProgress, htargets,
        hwrite, Registry.openAt_of_not _ _ _ _ (by simp), holds_closeAt_of_none hentry]
      exact iff_of_true (fun hp => (h hp).imp_right fun hin => ⟨halive, hin.2⟩) fun he => by cases he
    · have hdisk : t'.client.disk f = t.client.disk f ∨ g = f := by
        rw [hs.disk_eq]
        simp only [diskStep, hm, hok, if_true, hnone, hwrite]
        exact or_iff_not_imp_right.2 fun hfg => Function.update_of_ne (Ne.symm hfg) _ _
      have hcomplete : f ∈ t'.finished ↔ f ∈ t.finished ∧ g ≠ f := by
        simp only [hs.finished_iff, hs.not_completed hreport, hopened, hwrite, or_false, ne_eq,
          Option.some.injEq]
        exact ⟨fun hf => ⟨hf.1, hf.2.1⟩, fun hf => ⟨hf.1, hf.2, hdisk.resolve_right hf.2⟩⟩
      simp only [NoLeftover, InProgress, hs.present_iff, hcomplete, hopened, hwrite, halive, true_and,
        htargets, Option.some.injEq]
      by_cases hc : ((targets t.client).lists t.client.idChannel).isSome
      · refine iff_of_true ?_ fun _ => Or.inl hc
        rw [Registry.holds_openAt hentry hc]
        intro hp
        by_cases hfg : g = f
        · exact Or.inr (Or.inl hfg.symm)
        · rcases h (hp.resolve_right hfg) with hf | hf
          · exact Or.inl ⟨hf, hfg⟩
          · exact Or.inr (Or.inr hf.2)
      · -- the file is created for a connection that is gone
        rw [Registry.openAt_of_not _ _ _ _ fun hall => hc hall.2.2, holds_closeAt_of_none hentry]
        by_cases hfg : g = f
        · subst hfg
          simp only [or_true, forall_true_left, ne_eq, not_true_eq_false, and_false, false_or, hc,
            Bool.false_eq_true]
        · refine iff_of_true (fun hp => ?_) fun he => absurd he hfg
          exact (h (hp.resolve_right hfg)).imp (fun hf => ⟨hf, hfg⟩) And.right
  · have hopened : openedFile J t.client e = none := by
      simp only [openedFile, hm, isNone_mapRecv, hentry, Option.isNone_some, Bool.and_false,
        Bool.false_eq_true, if_false]
    have hnot : ¬ ((targets t.client).entry m.id = none ∧ e.2.write.isSome ∧
        ((targets t.client).lists t.client.idChannel).isSome) := by
      rintro ⟨hnone, -⟩
      rw [hentry] at hnone
      cases hnone
    rw [hs.noLeftover_iff hopened hreport, InProgress, htargets, Registry.openAt_of_not _ _ _ _ hnot,
      Registry.holds_closeAt, if_pos Option.isSome_some, halive, eq_self_iff_true, true_and]
    rfl

theorem noLeftover_finish_iff (hs : Step J fuel t e t') {id : Int64} {ok : Bool}
    (hm : eventMsg J e = .finishDownloadBack id ok) (hq : t.client.Step J fuel e t'.client)
    (halive : t'.alive = true)
    (htargets : targets t'.client = (targets t.client).closeAt t.client.idChannel id) :
    NoLeftover f t' ↔ (f ∈ t.present →
      Stays J f t e ∨ Completes f t e id ok ∨ Elsewhere f t id) := by
  have hopened : openedFile J t.client e = none := by simp only [openedFile, hm]
  have hflush : diskStep J t.client e = t.client.fsSwap.flushFileRecv t.client.disk id e.2.closes := by
    simp only [diskStep, hm]
  have hcompleted : Completed t t'.client f ↔ Completes f t e id ok := by
    simp only [Completed, Completes, emitted_handle hq, hm, FilesMsg.finishDownloadBack.injEq,
      hs.disk_eq, hflush]
    constructor
    · rintro ⟨i, r, ⟨⟨rfl, hok⟩, hcheck⟩, hr, hfile, hgot, hlen⟩
      rw [FilesChannel.checkLengthRecv, hr] at hcheck
      rw [FilesChannel.flushFileRecv, hr] at hgot
      exact ⟨r, hr, hfile, hok, beq_iff_eq.1 hcheck, hgot, hlen⟩
    · rintro ⟨r, hr, hfile, hok, hcount, hgot, hlen⟩
      refine ⟨id, r, ⟨⟨rfl, hok⟩, ?_⟩, hr, hfile, ?_, hlen⟩
      · rw [FilesChannel.checkLengthRecv, hr]
        exact beq_iff_eq.2 hcount
      · rw [FilesChannel.flushFileRecv, hr]
        exact hgot
  simp only [NoLeftover, InProgress, Stays, Elsewhere, hs.present_iff, hs.finished_iff, hopened,
    hcompleted, hs.disk_eq, halive, htargets, Registry.holds_closeAt, reduceCtorEq, ne_eq,
    not_false_eq_true, true_and, or_false, or_assoc]

/-- The condition on a message that the client survives. -/
theorem kept_iff (hfatal : ¬ t.client.Fatal J e) (hclosed : e.1 ≠ .closed) :
    Kept J f t e ↔ match eventMsg J e with
      | .createDownloadBack m => m.ok = true →
        if ((targets t.client).entry m.id).isSome then
          f ∈ t.present → Stays J f t e ∨ Elsewhere f t m.id
        else e.2.write = some f →
          ((targets t.client).lists t.client.idChannel).isSome ∨ (targets t.client).Holds f
      | .binary _ _ => f ∈ t.present → Stays J f t e ∨ (targets t.client).Holds f
      | .finishDownloadBack id ok => f ∈ t.present →
        Stays J f t e ∨ Completes f t e id ok ∨ Elsewhere f t id
      | _ => True := by
  constructor
  · intro hk
    split
    case h_1 m hm => exact hk.created m hm
    case h_2 id data hm => exact hk.received id data hm
    case h_3 id ok hm => exact hk.finished id ok hm
    case h_4 => trivial
  · intro hk
    refine ⟨fun h => absurd h hclosed, ?_, ?_, ?_, fun h => absurd h hfatal⟩
    · intro m hm
      rw [hm] at hk
      exact hk
    · intro id data hm
      rw [hm] at hk
      exact hk
    · intro id ok hm
      rw [hm] at hk
      exact hk

/-- An event that opens, feeds and ends no download keeps all as it is. -/
theorem noLeftover_other_iff (h : NoLeftover f t) (hs : Step J fuel t e t')
    (hfatal : ¬ t.client.Fatal J e) (halive : t'.alive = true) (hclosed : e.1 ≠ .closed)
    (haside : (eventMsg J e).Aside)
    (htargets : (targets t'.client).Holds f ↔ (targets t.client).Holds f) :
    NoLeftover f t' ↔ Kept J f t e := by
  have hopened : openedFile J t.client e = none := by
    unfold openedFile
    split
    case h_1 m hm =>
      rw [hm] at haside
      rw [show m.ok = false from haside, Bool.false_and, if_neg Bool.false_ne_true]
    case h_2 => rfl
  have hdisk : diskStep J t.client e = t.client.disk := by
    unfold diskStep
    split
    case h_1 m hm =>
      rw [hm] at haside
      rw [show m.ok = false from haside, if_neg Bool.false_ne_true]
    case h_2 id data hm =>
      rw [hm] at haside
      exact haside.elim
    case h_3 id ok hm =>
      rw [hm] at haside
      exact haside.elim
    case h_4 => rfl
  have hreport : ∀ id ok, eventMsg J e ≠ .finishDownloadBack id ok := by
    intro id ok hm
    rw [hm] at haside
    exact haside
  refine iff_of_true ?_ ((kept_iff hfatal hclosed).2 ?_)
  · rw [hs.noLeftover_iff hopened hreport, stays_iff hdisk, InProgress, halive, htargets]
    exact fun hp => (h hp).imp_right fun hin => ⟨rfl, hin.2⟩
  · split
    case h_1 m hm =>
      rw [hm] at haside
      exact fun hok => absurd (haside.symm.trans hok) Bool.false_ne_true
    case h_2 id data hm =>
      rw [hm] at haside
      exact haside.elim
    case h_3 id ok hm => exact absurd hm (hreport id ok)
    case h_4 => trivial

/-- **An event that kills the client** leaves no incomplete file iff `f` is complete, and
    is left as it is. -/
theorem noLeftover_killed_iff (hs : Step J fuel t e t') (hfatal : t.client.Fatal J e)
    (halive : t'.alive = false) : NoLeftover f t' ↔ Kept J f t e := by
  obtain ⟨hclosed, hcreate, hfinish⟩ := hfatal.eventMsg_ne
  have hopened : openedFile J t.client e = none := by
    unfold openedFile
    split
    · exact absurd ‹_› (hcreate _)
    · rfl
  rw [hs.noLeftover_iff hopened hfinish, InProgress, halive]
  simp only [Bool.false_eq_true, false_and, or_false]
  exact ⟨fun hk => ⟨fun h => absurd h hclosed, fun m hm => absurd hm (hcreate m),
      fun _ _ _ hp => Or.inl (hk hp), fun id ok hm => absurd hm (hfinish id ok), fun _ => hk⟩,
    fun hk => hk.killed hfatal⟩

/-- **Exactly the events that keep the last download of a file leave no
    incomplete file.** -/
theorem noLeftover_step_iff (hsized : t.client.UploadsSized) (h : NoLeftover f t)
    (hs : Step J fuel t e t') : NoLeftover f t' ↔ Kept J f t e := by
  rcases hs.ends with ⟨hq, halive⟩ | ⟨⟨err, herr, hne⟩, -, halive⟩
  swap
  · exact noLeftover_killed_iff hs (QwebFiles.fatal_of_error hsized herr hne) halive
  have htargets := targets_handle hq
  have hfatal := QwebFiles.not_fatal_of_ok hq
  have hother := noLeftover_other_iff h hs hfatal halive
  have hin : t'.InProgress f ↔ (targets t'.client).Holds f := by
    rw [InProgress, halive, eq_self_iff_true, true_and]
  obtain ⟨input, a⟩ := e
  cases input with
  | opened c =>
    refine hother (fun he => by cases he) trivial ?_
    rw [htargets]
    exact Registry.holds_addChannel ..
  | closed =>
    rw [hs.noLeftover_iff rfl (fun _ _ he => by cases he), hin, stays_iff rfl, htargets]
    simp only [targetsStep, Registry.holds_dropChannel]
    exact ⟨fun hk => ⟨fun _ => hk, (fun _ he => by cases he), (fun _ _ he => by cases he),
      (fun _ _ he => by cases he), fun h => absurd h hfatal⟩, fun hk => hk.closed rfl⟩
  | uploadFile absPath savePath => exact hother (fun he => by cases he) trivial (by rw [htargets]; rfl)
  | downloadFile absPath savePath => exact hother (fun he => by cases he) trivial (by rw [htargets]; rfl)
  | message msg =>
    have hmessage : (FilesInput.message msg, a).1 ≠ .closed := fun he => by cases he
    have hkept := kept_iff (f := f) hfatal hmessage
    simp only [targetsStep] at htargets
    rcases hm : eventMsg J (.message msg, a) with m | id | ⟨id, ok⟩ | m | id | ⟨id, ok⟩ | ⟨id, data⟩ | _
      <;> simp only [hm] at htargets hkept hother
    case createDownloadBack =>
      by_cases hok : m.ok = true
      · rw [if_pos hok] at htargets
        rw [noLeftover_create_iff h hs hm hok halive htargets, hkept]
        exact ⟨fun hk _ => hk, fun hk => hk hok⟩
      · rw [if_neg hok] at htargets
        exact hother hmessage (Bool.eq_false_iff.2 hok) (by rw [htargets])
    case finishDownloadBack => rw [noLeftover_finish_iff hs hm hq halive htargets, hkept]
    case binary =>
      have hopened : openedFile J t.client (.message msg, a) = none := by simp only [openedFile, hm]
      rw [hs.noLeftover_iff hopened (fun _ _ he => by cases hm.symm.trans he), hin, htargets, hkept]
    all_goals exact hother hmessage trivial (by rw [htargets])

/-- The files are tracked along every step of the client. -/
theorem exists_step (halive : t.alive = true) {q' : QwebFiles} (hq : t.client.Step J fuel e q') :
    ∃ t', Step J fuel t e t' ∧ t'.client = q' ∧ t'.alive = true :=
  ⟨⟨q', true, gotStep J t.client e t.got, {f | f ∈ t.present ∨ openedFile J t.client e = some f},
    {f | (f ∈ t.finished ∧ openedFile J t.client e ≠ some f ∧ q'.disk f = t.client.disk f) ∨
      Completed t q' f}⟩,
    ⟨halive, Or.inl ⟨hq, rfl⟩, rfl, fun _ => Iff.rfl, fun _ => Iff.rfl⟩, rfl, rfl⟩

/-- The start: no download yet, and some files. -/
def init (disk : Str → Str) (present : Set Str) : Tracked :=
  ⟨.init disk, true, fun _ => [], present, ∅⟩

theorem uploadsSized_step (h : t.client.UploadsSized) (hs : Step J fuel t e t') :
    t'.client.UploadsSized := by
  rcases hs.ends with ⟨hq, -⟩ | ⟨-, hclient, -⟩
  · exact QwebFiles.uploadsSized_handle h hq
  · rw [hclient]
    exact h

end Tracked

/-- `is_exists_icon`, where `file` is the file that a path names. -/
def isExistsIcon (file : Str → Str) (t : Tracked) (account : Int64) : Prop :=
  file (lit "../data/head_icon/icon_" ++ intText account.toInt) ∈ t.present

/-- **Downloads leave no incomplete file**, in runs of events that keep the last
    download of a file: a file that did not exist, exists between downloads only
    if its download was reported complete and it holds just what has come for it; and
    in every state of such a run, this is kept by exactly the events that meet the
    condition. -/
theorem noLeftover_of_run (J : JsonLib) (fuel : ℕ) (disk : Str → Str) {present : Set Str} {f : Str}
    (hf : f ∉ present) {es : List FilesEvent} {t : Tracked}
    (h : Run (Guarded (Tracked.Kept J f) (Tracked.Step J fuel)) (.init disk present) es t) :
    (¬ t.InProgress f → f ∈ t.present → f ∈ t.finished) ∧
    (∀ file account, file (lit "../data/head_icon/icon_" ++ intText account.toInt) = f →
      ¬ t.InProgress f → isExistsIcon file t account → f ∈ t.finished) ∧
    ∀ e t', Tracked.Step J fuel t e t' →
      ((¬ t'.InProgress f → f ∈ t'.present → f ∈ t'.finished) ↔ Tracked.Kept J f t e) := by
  have hinv : t.client.UploadsSized ∧ Tracked.NoLeftover f t := by
    have hstart : (Tracked.init disk present).client.UploadsSized ∧
        Tracked.NoLeftover f (.init disk present) :=
      ⟨(fun _ _ hs => by cases hs), fun hp => absurd hp hf⟩
    refine h.invariant (I := fun t => t.client.UploadsSized ∧ t.NoLeftover f) hstart
      fun s e s' hs hstep => ?_
    exact ⟨Tracked.uploadsSized_step hs.1 hstep.2,
      (Tracked.noLeftover_step_iff hs.1 hs.2 hstep.2).2 hstep.1⟩
  have hiff : ∀ s : Tracked, s.NoLeftover f ↔ (¬ s.InProgress f → f ∈ s.present → f ∈ s.finished) := by
    intro s
    unfold Tracked.NoLeftover
    tauto
  refine ⟨(hiff t).1 hinv.2, ?_, fun e t' hs =>
    (hiff t').symm.trans (Tracked.noLeftover_step_iff hinv.1 hinv.2 hs)⟩
  rintro file account rfl hnot hicon
  exact (hiff t).1 hinv.2 hnot hicon

/-! ## A download that ends, and one that does not -/

/-- After the connection opens, the download of 7 is created. -/
theorem exists_tracked_created {q₁ : QwebFiles} (hcreate : QwebFiles.Step Json.jsonText 10 connected
    (.message (createDownloadBackFrame true), answersFile) q₁) : ∃ t₁ t₂,
    Tracked.Step Json.jsonText 10 (.init (fun _ => []) ∅) (.opened 1, answersFile) t₁ ∧
    Tracked.Step Json.jsonText 10 t₁ (.message (createDownloadBackFrame true), answersFile) t₂ ∧
    t₁.client = connected ∧ t₂.client = q₁ ∧ t₂.alive = true := by
  have hopen : QwebFiles.Step Json.jsonText 10 (.init fun _ => []) (.opened 1, answersFile) connected :=
    rfl
  obtain ⟨t₁, h₁, ht₁, halive⟩ := Tracked.exists_step (t := .init (fun _ => []) ∅) rfl hopen
  obtain ⟨t₂, h₂, ht₂, halive⟩ := Tracked.exists_step halive (ht₁ ▸ hcreate)
  exact ⟨t₁, t₂, h₁, h₂, ht₁, ht₂, halive⟩

/-- The file of the download that has been created. -/
theorem openedFile_created {q : QwebFiles} (hq : q = connected) :
    openedFile Json.jsonText q (.message (createDownloadBackFrame true), answersFile) =
      some (lit "f") := by
  subst hq
  simp only [openedFile, eventMsg_createDownloadBackFrame]
  rfl

/-- The only download that is listed then. -/
theorem targets_created {t₁ t₂ : Tracked} (ht₁ : t₁.client = connected)
    (hcreate : QwebFiles.Step Json.jsonText 10 t₁.client
      (.message (createDownloadBackFrame true), answersFile) t₂.client) (c i : Int64) :
    ((targets t₂.client).Listed c i ↔ c = 1 ∧ i = 7) ∧
      ((targets t₂.client).entry i = if i = 7 then some (lit "f") else none) := by
  have htargets := targets_handle hcreate
  simp only [targetsStep, eventMsg_createDownloadBackFrame, if_true, ht₁] at htargets
  have hnone : (targets connected).entry 7 = none := rfl
  have hlive : ((targets connected).lists 1).isSome := rfl
  have hconnected : ¬ (targets connected).Listed c i := by
    rintro ⟨l, hl, hi⟩
    have hl : (targets connected).lists c = some l := hl
    by_cases hc : c = 1
    · subst hc
      cases hl
      cases hi
    · have hempty : (targets connected).lists c = none := by
        show Option.map _ (Function.update (fun _ => none) 1 _ c) = none
        rw [Function.update_of_ne hc]
        rfl
      rw [hempty] at hl
      cases hl
  rw [htargets]
  constructor
  · exact (Registry.listed_openAt hnone rfl hlive c i).trans (by simp [hconnected])
  · have hopen := Registry.openAt_of_ok (targets connected) 1 7 (some (lit "f")) hnone rfl hlive
    rw [show ((targets connected).openAt connected.idChannel 7 answersFile.write) =
      (targets connected).openAt 1 7 (some (lit "f")) from rfl, hopen]
    by_cases hi : i = 7
    · simp only [hi, if_true, Function.update_self]
    · simp only [hi, if_false, ne_eq, not_false_eq_true, Function.update_of_ne]
      rfl

/-- A download that is created, receives its data and ends: its file is complete. -/
theorem noLeftover_of_run_hi : ∃ t : Tracked, ¬ t.InProgress (lit "f") ∧ lit "f" ∈ t.present ∧
    t.client.disk (lit "f") = lit "hi" ∧ lit "f" ∈ t.finished := by
  obtain ⟨q₁, q₂, q₃, r, new, hcreate, hdata, hfinish, -, -, -, hr, hfs, hcount, hlen, -, hdisk, -⟩ :=
    exists_downloaded_hi
  obtain ⟨t₁, t₂, h₁, h₂, ht₁, rfl, halive⟩ := exists_tracked_created hcreate
  obtain ⟨t₃, h₃, rfl, halive⟩ := Tracked.exists_step halive hdata
  obtain ⟨t₄, h₄, rfl, -⟩ := Tracked.exists_step halive hfinish
  have hcreated := targets_created ht₁ (ht₁.symm ▸ hcreate)
  have htargets := targets_handle hdata
  simp only [targetsStep, eventMsg_setFilesBinary] at htargets
  have hopened : openedFile Json.jsonText t₁.client _ = _ := openedFile_created ht₁
  have hpresent : lit "f" ∈ t₄.present := by
    simp only [h₄.present_iff, h₃.present_iff, h₂.present_iff, hopened, or_true, true_or]
  have hgot : t₃.got 7 = lit "hi" := by
    have hnew : t₂.got = Function.update t₁.got 7 [] := by
      rw [h₂.got_eq, gotStep, eventMsg_createDownloadBackFrame, ht₁]
      rfl
    simp only [h₃.got_eq, gotStep, eventMsg_setFilesBinary, hnew, Function.update_self, List.nil_append]
  have hsurvives₂ := QwebFiles.not_fatal_of_ok (ht₁.symm ▸ hcreate : t₁.client.handle Json.jsonText 10
    (.message (createDownloadBackFrame true), answersFile) = .ok t₂.client)
  have hsurvives₃ := QwebFiles.not_fatal_of_ok hdata
  have hsurvives₄ := QwebFiles.not_fatal_of_ok hfinish
  -- every event meets the condition
  have hkept₁ : Tracked.Kept Json.jsonText (lit "f") (.init (fun _ => []) ∅) (.opened 1, answersFile) :=
    (Tracked.kept_iff id fun he => by cases he).2 trivial
  have hkept₂ : Tracked.Kept Json.jsonText (lit "f") t₁
      (.message (createDownloadBackFrame true), answersFile) := by
    rw [Tracked.kept_iff hsurvives₂ (fun he => by cases he), eventMsg_createDownloadBackFrame]
    intro _
    rw [ht₁]
    exact fun _ => Or.inl rfl
  have hkept₃ : Tracked.Kept Json.jsonText (lit "f") t₂
      (.message (setFilesBinary 7 (lit "hi")), answersFile) := by
    rw [Tracked.kept_iff hsurvives₃ (fun he => by cases he), eventMsg_setFilesBinary]
    exact fun _ => Or.inr ⟨1, 7, (hcreated 1 7).1.2 ⟨rfl, rfl⟩, (hcreated 1 7).2⟩
  have hkept₄ : Tracked.Kept Json.jsonText (lit "f") t₃ (.message finishDownloadFrame, answersFile) := by
    rw [Tracked.kept_iff hsurvives₄ (fun he => by cases he), eventMsg_finishDownloadFrame]
    intro _
    refine Or.inr (Or.inl ⟨r, hr, by rw [hfs], rfl, hcount.trans hlen.symm, ?_, by rw [hgot, hlen]; rfl⟩)
    have hflush := disk_handle hfinish
    simp only [diskStep, eventMsg_finishDownloadFrame, FilesChannel.flushFileRecv, hr] at hflush
    rw [← hflush, hdisk, hgot]
  have hstep₁ : Guarded (Tracked.Kept Json.jsonText (lit "f")) (Tracked.Step Json.jsonText 10)
      (.init (fun _ => []) ∅) (.opened 1, answersFile) t₁ := ⟨hkept₁, h₁⟩
  have hstep₂ : Guarded (Tracked.Kept Json.jsonText (lit "f")) (Tracked.Step Json.jsonText 10)
      t₁ (.message (createDownloadBackFrame true), answersFile) t₂ := ⟨hkept₂, h₂⟩
  have hstep₃ : Guarded (Tracked.Kept Json.jsonText (lit "f")) (Tracked.Step Json.jsonText 10)
      t₂ (.message (setFilesBinary 7 (lit "hi")), answersFile) t₃ := ⟨hkept₃, h₃⟩
  have hstep₄ : Guarded (Tracked.Kept Json.jsonText (lit "f")) (Tracked.Step Json.jsonText 10)
      t₃ (.message finishDownloadFrame, answersFile) t₄ := ⟨hkept₄, h₄⟩
  have hnot : ¬ t₄.InProgress (lit "f") := by
    have hclosed := targets_handle hfinish
    simp only [targetsStep, eventMsg_finishDownloadFrame] at hclosed
    rw [Tracked.InProgress, hclosed, Registry.holds_closeAt, htargets]
    rintro ⟨-, c, i, hi, -, hentry⟩
    rw [(hcreated c i).2, if_neg hi] at hentry
    cases hentry
  exact ⟨t₄, hnot, hpresent, hdisk, (noLeftover_of_run Json.jsonText 10 (fun _ => [])
    (Set.notMem_empty _) (.next (.next (.next (.next .start hstep₁) hstep₂) hstep₃) hstep₄)).1
      hnot hpresent⟩

/-- The connection breaks during a download: the file is there, and empty. -/
theorem leftover_after_close :
    ¬ ∀ (J : JsonLib) (fuel : ℕ) (disk : Str → Str) (present : Set Str) (f : Str)
      (es : List FilesEvent) (t : Tracked), f ∉ present →
        Run (Tracked.Step J fuel) (.init disk present) es t →
          ¬ t.InProgress f → f ∈ t.present → f ∈ t.finished := by
  intro h
  obtain ⟨q₁, -, -, -, -, hcreate, -, -, hid, -⟩ := exists_downloaded_hi
  obtain ⟨t₁, t₂, h₁, h₂, ht₁, rfl, halive⟩ := exists_tracked_created hcreate
  obtain ⟨t₃, h₃, ht₃, -⟩ := Tracked.exists_step halive
    (show t₂.client.Step Json.jsonText 10 (.closed, answersFile) _ from rfl)
  have hopened : openedFile Json.jsonText t₁.client _ = _ := openedFile_created ht₁
  have hpresent : lit "f" ∈ t₃.present :=
    (h₃.present_iff _).2 (Or.inl ((h₂.present_iff _).2 (Or.inr hopened)))
  have hfinished : lit "f" ∉ t₃.finished := by
    have hnot₂ : ¬ Tracked.Completed t₁ t₂.client (lit "f") := h₂.not_completed fun _ _ he => by
      rw [eventMsg_createDownloadBackFrame] at he
      cases he
    have hnot₃ : ¬ Tracked.Completed t₂ t₃.client (lit "f") := h₃.not_completed fun _ _ he => by cases he
    rw [h₃.finished_iff, h₂.finished_iff, hopened]
    rintro (⟨⟨-, hne, -⟩ | hdone, -⟩ | hdone)
    · exact hne rfl
    · exact hnot₂ hdone
    · exact hnot₃ hdone
  have hprogress : ¬ t₃.InProgress (lit "f") := by
    rw [Tracked.InProgress, targets_handle (ht₃ ▸ rfl : t₂.client.Step Json.jsonText 10
      (.closed, answersFile) t₃.client)]
    simp only [targetsStep, Registry.holds_dropChannel, hid]
    -- the download is listed under the connection that is gone, and under no other
    rintro ⟨-, c, i, hc, hl, -⟩
    exact hc ((targets_created ht₁ (ht₁.symm ▸ hcreate) c i).1.1 hl).1
  exact hfinished (h Json.jsonText 10 (fun _ => []) ∅ (lit "f") _ t₃ (Set.notMem_empty _)
    (.next (.next (.next .start h₁) h₂) h₃) hprogress hpresent)

end SimpleChat
