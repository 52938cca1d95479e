/-
  qweb_files: concurrent downloads.

  * `Inboxes`, `receive`: what a download is for: under every open id the
    announced length and what has arrived, and what a message does to them;
  * `inboxes q`: the inboxes of a client, read off its transfers and the disk: what
    a stream has received is in its file or still in its buffer;
  * `Receiving`: no two open downloads write the same file, and each stream
    stands at the end of its file; `receive_handle`: so every event does to the
    inboxes of the client what its message says;
  * `DownloadOk`: no download is created onto a file that another one is
    writing; without it one download overwrites the other, and with it a file
    is complete only once it is closed (`downloads_not_in_files`).
-/
import SimpleChat.Channels
import SimpleChat.Lib.JsonText
import SimpleChat.QwebFiles

namespace SimpleChat

open Lib

/-! ## Inboxes -/

/-- The announced length and the contents of every open download. -/
abbrev Inboxes := Int64 → Option (ℤ × Str)

/-- What a message does to the inboxes; `opens` is whether the file can be
    opened, if the message asks for it. -/
def receive (opens : Bool) (b : Inboxes) : FilesMsg → Inboxes
  | .createDownloadBack m =>
    if m.ok then Function.update b m.id (if opens then some (m.lengthFile.toInt, []) else none) else b
  | .binary id data => Function.update b id ((b id).map fun x => (x.1, x.2 ++ data))
  | .finishDownloadBack id _ => Function.update b id none
  | _ => b

/-- The payload for `id` that a message carries. -/
def payload (id : Int64) : FilesMsg → Str
  | .binary i data => if i = id then data else []
  | _ => []

/-- **Under an id that stays open, payloads are appended.** -/
theorem receive_stay {opens : Bool} {b : Inboxes} {m : FilesMsg} {id : Int64} {x : ℤ × Str}
    (h : b id = some x) (hopens : opens = true → ∀ m', m = .createDownloadBack m' → b m'.id = none)
    (hstay : (receive opens b m id).isSome) :
    receive opens b m id = some (x.1, x.2 ++ payload id m) := by
  cases m with
  | createDownloadBack m =>
    by_cases hid : m.id = id
    · subst hid
      cases opens with
      | true => have := hopens rfl m rfl; rw [h] at this; cases this
      | false => by_cases hok : m.ok <;> simp_all [receive, payload]
    · by_cases hok : m.ok <;> simp [receive, payload, hok, Ne.symm hid, h]
  | binary i data =>
    by_cases hid : i = id
    · subst hid; simp [receive, payload, h]
    · simp [receive, payload, hid, Ne.symm hid, h]
  | finishDownloadBack i ok =>
    by_cases hid : i = id
    · subst hid; simp [receive] at hstay
    · simp [receive, payload, Ne.symm hid, h]
  | _ => simp [receive, payload, h]

/-- Only the creation of a download opens an id. -/
theorem receive_open {opens : Bool} {b : Inboxes} {m : FilesMsg} {id : Int64} (h : b id = none)
    (hopen : (receive opens b m id).isSome) :
    ∃ m', m = .createDownloadBack m' ∧ m'.id = id ∧
      receive opens b m id = some (m'.lengthFile.toInt, []) := by
  cases m with
  | createDownloadBack m =>
    by_cases hid : m.id = id
    · subst hid
      refine ⟨m, rfl, rfl, ?_⟩
      by_cases hok : m.ok <;> cases opens <;> simp_all [receive]
    · by_cases hok : m.ok <;> simp [receive, hok, Ne.symm hid, h] at hopen
  | binary i data =>
    by_cases hid : i = id
    · subst hid; simp [receive, h] at hopen
    · simp [receive, Ne.symm hid, h] at hopen
  | finishDownloadBack i ok =>
    by_cases hid : i = id
    · subst hid; simp [receive] at hopen
    · simp [receive, Ne.symm hid, h] at hopen
  | _ => simp [receive, h] at hopen

/-! ## The inboxes of the client -/

/-- What the client has received: what is in the file of a download, and then what
    is in the buffer of its stream. -/
def inboxes (q : QwebFiles) : Inboxes :=
  fun id => (q.fsSwap.mapRecv id).map fun r => (r.lengthMax, r.spFs.contents q.disk)

/-- The stream of a download stands at the end of its file, and as many bytes have
    been written to it as have been counted. -/
structure Held (disk : Str → Str) (r : FsRecv) : Prop where
  atEnd : r.spFs.AtEnd disk
  count_eq : r.countRecv = (r.spFs.contents disk).length
  length_pos : 0 < r.lengthMax

theorem Held.congr {disk disk' : Str → Str} {r : FsRecv} (h : Held disk r)
    (hd : disk' r.spFs.file = disk r.spFs.file) : Held disk' r :=
  ⟨(h.atEnd.congr hd).1, by rw [(h.atEnd.congr hd).2]; exact h.count_eq, h.length_pos⟩

/-- Between two events, no two open downloads write the same file. -/
structure Receiving (q : QwebFiles) : Prop where
  files_ne : ∀ i j r s, q.fsSwap.mapRecv i = some r → q.fsSwap.mapRecv j = some s → i ≠ j →
    r.spFs.file ≠ s.spFs.file
  held : ∀ i r, q.fsSwap.mapRecv i = some r → Held q.disk r

theorem receiving_init (disk : Str → Str) : Receiving (.init disk) :=
  ⟨(fun _ _ _ _ h => by cases h), fun _ _ h => by cases h⟩

section
variable {q q' : QwebFiles} {id : Int64}

theorem inboxes_eq_none : inboxes q id = none ↔ q.fsSwap.mapRecv id = none := by
  simp [inboxes]

/-- A step that concerns the downloads in no way. -/
theorem Receiving.frame (h : Receiving q) (hmap : q'.fsSwap.mapRecv = q.fsSwap.mapRecv)
    (hdisk : q'.disk = q.disk) : Receiving q' ∧ inboxes q' = inboxes q := by
  refine ⟨⟨?_, ?_⟩, ?_⟩
  · rw [hmap]; exact h.files_ne
  · rw [hmap, hdisk]; exact h.held
  · unfold inboxes; rw [hmap, hdisk]

/-- Closing `id`; the files of the others do not change. -/
theorem Receiving.close (h : Receiving q)
    (hmap : q'.fsSwap.mapRecv = Function.update q.fsSwap.mapRecv id none)
    (hdisk : ∀ j r, j ≠ id → q.fsSwap.mapRecv j = some r →
      q'.disk r.spFs.file = q.disk r.spFs.file) :
    Receiving q' ∧ inboxes q' = Function.update (inboxes q) id none := by
  have hold : ∀ j r, q'.fsSwap.mapRecv j = some r → j ≠ id ∧ q.fsSwap.mapRecv j = some r := by
    intro j r hj
    rw [hmap] at hj
    by_cases hid : j = id
    · rw [hid, Function.update_self] at hj; cases hj
    · rw [Function.update_of_ne hid] at hj; exact ⟨hid, hj⟩
  refine ⟨⟨?_, ?_⟩, ?_⟩
  · intro i j r s hi hj hne
    exact h.files_ne i j r s (hold i r hi).2 (hold j s hj).2 hne
  · intro i r hi
    obtain ⟨hne, hi⟩ := hold i r hi
    exact (h.held i r hi).congr (hdisk i r hne hi)
  · funext j
    unfold inboxes
    by_cases hid : j = id
    · subst hid; simp [hmap]
    · rw [hmap, Function.update_of_ne hid, Function.update_of_ne hid]
      rcases hj : q.fsSwap.mapRecv j with _ | r
      · rfl
      · simp [((h.held j r hj).atEnd.congr (hdisk j r hid hj)).2]

/-- Writing under `id`: the transfer `r'` takes the place of what was open. -/
theorem Receiving.write (h : Receiving q) {r' : FsRecv} {contents : Str}
    (hmap : q'.fsSwap.mapRecv = Function.update q.fsSwap.mapRecv id (some r'))
    (hdisk : ∀ f, f ≠ r'.spFs.file → q'.disk f = q.disk f)
    (hcontents : r'.spFs.contents q'.disk = contents)
    (hne : ∀ j r, j ≠ id → q.fsSwap.mapRecv j = some r → r.spFs.file ≠ r'.spFs.file)
    (hheld : Held q'.disk r') :
    Receiving q' ∧
      inboxes q' = Function.update (inboxes q) id (some (r'.lengthMax, contents)) := by
  have hold : ∀ j r, q'.fsSwap.mapRecv j = some r → (j = id ∧ r = r') ∨
      (j ≠ id ∧ q.fsSwap.mapRecv j = some r ∧ q'.disk r.spFs.file = q.disk r.spFs.file) := by
    intro j r hj
    rw [hmap] at hj
    by_cases hid : j = id
    · rw [hid, Function.update_self, Option.some.injEq] at hj
      exact Or.inl ⟨hid, hj.symm⟩
    · rw [Function.update_of_ne hid] at hj
      exact Or.inr ⟨hid, hj, hdisk _ (hne j r hid hj)⟩
  refine ⟨⟨?_, ?_⟩, ?_⟩
  · intro i j r s hi hj hij
    rcases hold i r hi with ⟨rfl, rfl⟩ | ⟨hi', hi, -⟩ <;>
      rcases hold j s hj with ⟨rfl, rfl⟩ | ⟨hj', hj, -⟩
    · exact absurd rfl hij
    · exact (hne j s hj' hj).symm
    · exact hne i r hi' hi
    · exact h.files_ne i j r s hi hj hij
  · intro i r hi
    rcases hold i r hi with ⟨rfl, rfl⟩ | ⟨-, hi, hd⟩
    · exact hheld
    · exact (h.held i r hi).congr hd
  · funext j
    unfold inboxes
    by_cases hid : j = id
    · subst hid; simp [hmap, hcontents]
    · rw [hmap, Function.update_of_ne hid, Function.update_of_ne hid]
      rcases hj : q.fsSwap.mapRecv j with _ | r
      · rfl
      · simp [((h.held j r hj).atEnd.congr (hdisk _ (hne j r hid hj))).2]

end

/-! ## Events -/

/-- The message that an event delivers. -/
def eventMsg (J : JsonLib) (e : FilesEvent) : FilesMsg :=
  match e.1 with
  | .message msg =>
    match readFrame J msg with
    | .ok m => m
    | .error _ => .other
  | _ => .other

/-- Writes succeed, and announced lengths are positive. -/
structure WritesOk (J : JsonLib) (e : FilesEvent) : Prop where
  writes : e.2.writes.ok = true
  length_pos : ∀ m, eventMsg J e = .createDownloadBack m → 1 ≤ m.lengthFile.toInt

/-- No download is created onto a file that another open download is writing. -/
structure DownloadOk (J : JsonLib) (q : QwebFiles) (e : FilesEvent) : Prop
    extends WritesOk J e where
  file_free : ∀ m file, eventMsg J e = .createDownloadBack m → e.2.write = some file →
    ∀ j r, j ≠ m.id → q.fsSwap.mapRecv j = some r → r.spFs.file ≠ file

/-- From `q` to `q'` the end of a download is not announced. -/
def Quiet (q q' : QwebFiles) : Prop :=
  ∃ new, q'.log = q.log ++ new ∧ ∀ ok id, .snFinishDownload ok id ∉ new

/-- What the handling of a message does to the downloads. -/
structure Received (q : QwebFiles) (m : FilesMsg) (q' : QwebFiles) : Prop where
  receiving : Receiving q'
  inboxes_eq : ∃ opens, (opens = true → ∀ m', m = .createDownloadBack m' →
    inboxes q m'.id = none) ∧ inboxes q' = receive opens (inboxes q) m
  finished : ∃ new, q'.log = q.log ++ new ∧ ∀ id, .snFinishDownload true id ∈ new ↔
    m = .finishDownloadBack id true ∧ ∃ contents, inboxes q id = some ((contents.length : ℤ), contents)

section
variable {J : JsonLib} {a : Answers} {q q' : QwebFiles}

theorem Received.quiet {m : FilesMsg} (h : Receiving q') (opens : Bool)
    (hopens : opens = true → ∀ m', m = .createDownloadBack m' → inboxes q m'.id = none)
    (hin : inboxes q' = receive opens (inboxes q) m) (hquiet : Quiet q q')
    (hm : ∀ id ok, m ≠ .finishDownloadBack id ok) : Received q m q' := by
  obtain ⟨new, hlog, hnew⟩ := hquiet
  exact ⟨h, ⟨opens, hopens, hin⟩, new, hlog, fun id =>
    iff_of_false (hnew true id) fun hf => hm id true hf.1⟩

/-- The handling of an event that concerns the downloads in no way. -/
theorem Received.frame {m : FilesMsg} (h : Receiving q)
    (hmap : q'.fsSwap.mapRecv = q.fsSwap.mapRecv) (hdisk : q'.disk = q.disk)
    (hm : ∀ b, receive false b m = b) (hquiet : Quiet q q') : Received q m q' := by
  obtain ⟨hq', hin⟩ := h.frame hmap hdisk
  refine quiet hq' false (fun h => by cases h) (hin.trans (hm _).symm) hquiet ?_
  rintro id ok rfl
  have := congrFun (hm fun _ => some (0, [])) id
  simp [receive] at this

/-! ## Handlers -/

theorem Quiet.refl (q : QwebFiles) : Quiet q q := ⟨[], by simp, by simp⟩

theorem Quiet.emit (h : Quiet q q') {e : FilesEv} (he : ∀ ok id, e ≠ .snFinishDownload ok id) :
    Quiet q (q'.emit e) := by
  obtain ⟨new, hlog, hnew⟩ := h
  refine ⟨new ++ [e], ?_, fun ok id => ?_⟩
  · rw [← List.append_assoc, ← hlog]; rfl
  · simp [hnew ok id, Ne.symm (he ok id)]

theorem Quiet.sendMsg (h : Quiet q q') (s : Str) : Quiet q (q'.sendMsg a s) := by
  obtain ⟨new, hlog, hnew⟩ := h
  refine ⟨new ++ [.sent (setFilesJson s) (a.sends q'.sends)], ?_, fun ok id => ?_⟩
  · rw [← List.append_assoc, ← hlog]; rfl
  · simp [hnew ok id]

/-- The handling of an event that does not concern the downloads. -/
structure Apart (q q' : QwebFiles) : Prop where
  recvSide_eq : q'.fsSwap.recvSide = q.fsSwap.recvSide
  disk_eq : q'.disk = q.disk
  idChannel_eq : q'.idChannel = q.idChannel
  quiet : Quiet q q'

theorem Apart.refl (q : QwebFiles) : Apart q q := ⟨rfl, rfl, rfl, .refl q⟩

theorem Apart.emit (h : Apart q q') {e : FilesEv} (he : ∀ ok id, e ≠ .snFinishDownload ok id) :
    Apart q (q'.emit e) := ⟨h.recvSide_eq, h.disk_eq, h.idChannel_eq, h.quiet.emit he⟩

theorem Apart.sendMsg (h : Apart q q') (s : Str) : Apart q (q'.sendMsg a s) :=
  ⟨h.recvSide_eq, h.disk_eq, h.idChannel_eq, h.quiet.sendMsg s⟩

theorem Received.apart {m : FilesMsg} (h : Receiving q) (hm : ∀ b, receive false b m = b)
    (ha : Apart q q') : Received q m q' :=
  .frame h (congrArg Registry.entry ha.recvSide_eq) ha.disk_eq hm ha.quiet

theorem apart_createUploadBack {m : FilesCreateUploadBack}
    (hq : q.createUploadBack J a m = .ok q') : Apart q q' := by
  unfold QwebFiles.createUploadBack at hq
  split_ifs at hq
  case neg => cases hq; exact .refl q
  obtain ⟨⟨okOpen, fc⟩, hopen, hq⟩ := bind_eq_ok.1 hq
  obtain ⟨s, hs, hq⟩ := bind_eq_ok.1 hq
  cases hq
  have hside : fc.recvSide = q.fsSwap.recvSide := by
    rcases FilesChannel.openFileSendChannel_eq q.fsSwap q.idChannel m.id m.absFile a.read with
      ⟨-, -, herr⟩ | ⟨fc', hok, -, hside, -⟩
    · rw [herr] at hopen; cases hopen
    · rw [hok, Except.ok.injEq, Prod.mk.injEq] at hopen
      rw [← hopen.2]
      exact hside
  have hnote : Apart q ({ q with fsSwap := fc }.noteOpened okOpen m.id a.read) := by
    have hfc : Apart q { q with fsSwap := fc } := ⟨hside, rfl, rfl, .refl q⟩
    unfold QwebFiles.noteOpened
    split
    · exact hfc.emit fun _ _ he => by cases he
    · exact hfc
  exact (hnote.sendMsg s).emit fun _ _ he => by cases he

/-- A round of `add_data_send` sends one frame, and may report progress. -/
theorem quiet_sendRound {id : Int64} {sp sp' : FsSend} {io io' : Io} {b : Bool}
    (hr : sendRound (QwebFiles.funcSend a id) (QwebFiles.funcProg id) sp io = .ok (b, sp', io')) :
    ∃ new, io'.log = io.log ++ new ∧ ∀ ok i, .snFinishDownload ok i ∉ new := by
  obtain ⟨io₁, hcb, -, -, -, -, hio⟩ := sendRound_eq hr
  simp only [QwebFiles.funcSend, QwebFiles.sendData, Io.send, Prod.mk.injEq] at hcb
  obtain ⟨-, rfl⟩ := hcb
  rcases hio with rfl | ⟨prog, sp₁, rfl⟩
  · exact ⟨_, rfl, fun ok i => by simp⟩
  · exact ⟨_, List.append_assoc _ _ _, fun ok i => by simp⟩

theorem apart_beginUploadBack {fuel : ℕ} {id : Int64}
    (hq : q.beginUploadBack J fuel a id = .ok q') : Apart q q' := by
  obtain ⟨⟨okSend, fc, io⟩, hsend, hq⟩ := bind_eq_ok.1 hq
  obtain ⟨s, hs, hq⟩ := bind_eq_ok.1 hq
  cases hq
  have hsent : fc.recvSide = q.fsSwap.recvSide ∧
      ∃ new, io.log = q.log ++ new ∧ ∀ ok i, .snFinishDownload ok i ∉ new := by
    unfold addDataSend at hsend
    rcases hid : q.fsSwap.mapSend id with _ | sp
    · simp only [hid, Except.ok.injEq, Prod.mk.injEq] at hsend
      obtain ⟨-, rfl, rfl⟩ := hsend
      exact ⟨rfl, [], by simp, by simp⟩
    · simp only [hid] at hsend
      rcases hloop : addDataSendLoop (QwebFiles.funcSend a id) (QwebFiles.funcProg id) fuel sp q.toIo
        with e | ⟨b, sp', io'⟩
      · simp [hloop, Except.map] at hsend
      simp only [hloop, Except.map, Except.ok.injEq, Prod.mk.injEq] at hsend
      obtain ⟨-, rfl, rfl⟩ := hsend
      let I : Bool → FsSend → Io → Prop := fun _ _ io =>
        ∃ new, io.log = q.log ++ new ∧ ∀ ok i, .snFinishDownload ok i ∉ new
      have hround : ∀ sp io b sp' io', I true sp io → sp.spFs.eof = false →
          sendRound (QwebFiles.funcSend a id) (QwebFiles.funcProg id) sp io = .ok (b, sp', io') →
            I b sp' io' := by
        rintro sp io b sp' io' ⟨new, hlog, hnew⟩ - hr
        obtain ⟨more, hmore, hquiet⟩ := quiet_sendRound hr
        refine ⟨new ++ more, by rw [hmore, hlog, List.append_assoc], fun ok i => ?_⟩
        simp [hnew ok i, hquiet ok i]
      exact ⟨rfl, (addDataSendLoop_inv hround ⟨[], by simp, by simp⟩ hloop).1⟩
  have happart : Apart q { q with toIo := io, fsSwap := fc } := ⟨hsent.1, rfl, rfl, hsent.2⟩
  exact happart.sendMsg s

theorem apart_finishUploadBack (q : QwebFiles) (id : Int64) (ok : Bool) :
    Apart q (q.finishUploadBack id ok) := by
  have hside := FilesChannel.recvSide_closeFileSendChannel q.fsSwap q.idChannel id
  have hclose : Apart q { q with fsSwap := q.fsSwap.closeFileSendChannel q.idChannel id } :=
    ⟨hside, rfl, rfl, .refl q⟩
  exact hclose.emit fun _ _ he => by cases he

theorem apart_beginDownloadBack {id : Int64} (hq : q.beginDownloadBack J a id = .ok q') :
    Apart q q' := by
  obtain ⟨s, hs, hq⟩ := bind_eq_ok.1 hq
  cases hq
  exact (Apart.refl q).sendMsg s

theorem apart_uploadFile {absPath savePath : Str} (hq : q.uploadFile J a absPath savePath = .ok q') :
    Apart q q' := by
  unfold QwebFiles.uploadFile at hq
  rcases hsize : a.upload with _ | fileSize <;> simp only [hsize] at hq
  · cases hq
    exact .refl q
  · obtain ⟨s, hs, hq⟩ := bind_eq_ok.1 hq
    cases hq
    exact (Apart.refl q).sendMsg s

theorem apart_downloadFile {absPath savePath : Str}
    (hq : q.downloadFile J a absPath savePath = .ok q') : Apart q q' := by
  obtain ⟨s, hs, hq⟩ := bind_eq_ok.1 hq
  cases hq
  exact (Apart.refl q).sendMsg s

/-- The files on disk after an attempt to create a download: the file it opens is
    emptied, and what is open under the id is flushed. -/
theorem openFileRecvChannel_disk (fc : FilesChannel) (disk : Str → Str) (c i : Int64)
    (lengthMax : ℤ) (filename : Str) (file : Option Str) (closes : ℕ) :
    (fc.openFileRecvChannel disk c i lengthMax filename file closes).2.2 =
      match fc.mapRecv i, file with
      | some sp, _ => sp.spFs.close disk closes
      | none, some file => Function.update disk file []
      | none, none => disk := by
  have hmap : ∀ fc : FilesChannel, (fc.addFileRecv c i).2.mapRecv = fc.mapRecv := fun fc =>
    (congrArg (fun r => r.2.entry) (FilesChannel.recvSide_addFileRecv fc c i)).trans
      (Registry.list_entry _ _ _)
  unfold FilesChannel.openFileRecvChannel FilesChannel.openFileRecv
  rcases hi : fc.mapRecv i with _ | sp
  · rcases file with _ | file
    · simp [FilesChannel.flushFileRecv, hmap, hi]
    · simp only [Option.isSome_none, Bool.false_eq_true, if_false, Bool.true_and]
      split_ifs
      · rfl
      · simp [FilesChannel.flushFileRecv, hmap, Ofstream.close_opened]
  · simp [FilesChannel.flushFileRecv, hmap, hi]

/-- **Creating a download** opens an empty inbox, or closes the one that is open. -/
theorem received_createDownloadBack (h : Receiving q) {m : FilesCreateDownloadBack}
    (hlen : 1 ≤ m.lengthFile.toInt)
    (hfree : ∀ file, a.write = some file → ∀ j r, j ≠ m.id → q.fsSwap.mapRecv j = some r →
      r.spFs.file ≠ file)
    (hq : q.createDownloadBack J a m = .ok q') : Received q (.createDownloadBack m) q' := by
  unfold QwebFiles.createDownloadBack at hq
  by_cases hok : m.ok = true
  case neg =>
    rw [if_neg hok] at hq
    cases hq
    exact .frame h rfl rfl (fun b => if_neg hok) (.refl q)
  rw [if_pos hok] at hq
  set filename := if m.savePath = [] then pathTemp ++ getFilename m.absPath else m.savePath
  have hside := (FilesChannel.openFileRecvChannel_eq q.fsSwap q.idChannel m.id q.disk
    m.lengthFile.toInt filename a.write a.closes).1
  have hdisk := openFileRecvChannel_disk q.fsSwap q.disk q.idChannel m.id m.lengthFile.toInt
    filename a.write a.closes
  rcases hopen : q.fsSwap.openFileRecvChannel q.disk q.idChannel m.id m.lengthFile.toInt filename
    a.write a.closes with ⟨okOpen, fc, disk⟩
  simp only [hopen] at hq hside hdisk
  obtain ⟨s, hs, hq⟩ := bind_eq_ok.1 hq
  cases hq
  have hquiet : Quiet q { q with fsSwap := fc, disk := disk } := .refl q
  suffices key : ∀ q' : QwebFiles, q'.fsSwap = fc → q'.disk = disk → Quiet q q' →
      Received q (.createDownloadBack m) q' from key _ rfl rfl ((hquiet.sendMsg s).emit fun _ _ he => by cases he)
  rintro q' rfl rfl hquiet
  by_cases hcan : q.fsSwap.mapRecv m.id = none ∧
    (FilesChannel.recvEntry m.lengthFile.toInt filename a.write).isSome ∧
      (q.fsSwap.recvSide.lists q.idChannel).isSome
  · rw [Registry.openAt_of_ok _ _ _ _ hcan.1 hcan.2.1 hcan.2.2] at hside
    rcases hfile : a.write with _ | file <;> rw [hfile] at hcan hside hdisk
    · exact absurd hcan.2.1 (by simp [FilesChannel.recvEntry])
    have hmap : q'.fsSwap.mapRecv = Function.update q.fsSwap.mapRecv m.id
        (FilesChannel.recvEntry m.lengthFile.toInt filename (some file)) :=
      congrArg Registry.entry (Prod.mk.inj hside).2
    rw [hcan.1] at hdisk
    simp only at hdisk
    have hempty : (Ofstream.opened file).contents (Function.update q.disk file []) = [] :=
      Ofstream.contents_opened file
    obtain ⟨hq', hin⟩ := h.write hmap (fun f hf => by rw [hdisk]; exact Function.update_of_ne hf _ _)
      (hdisk ▸ hempty) (hfree file hfile)
      ⟨hdisk ▸ Ofstream.atEnd_opened file, by rw [hdisk, hempty]; rfl, Int.add_one_le_iff.1 hlen⟩
    refine Received.quiet hq' true ?_ (hin.trans (if_pos hok).symm) hquiet fun _ _ hm => by cases hm
    rintro - _ ⟨⟩
    exact inboxes_eq_none.2 hcan.1
  · rw [Registry.openAt_of_not _ _ _ _ hcan] at hside
    have hmap : q'.fsSwap.mapRecv = Function.update q.fsSwap.mapRecv m.id none :=
      (congrArg Registry.entry (Prod.mk.inj hside).2).trans (Registry.closeAt_entry _ _ _)
    have hother : ∀ j r, j ≠ m.id → q.fsSwap.mapRecv j = some r →
        q'.disk r.spFs.file = q.disk r.spFs.file := by
      intro j r hj hr
      rw [hdisk]
      rcases hid : q.fsSwap.mapRecv m.id with _ | r₁
      · rcases hfile : a.write with _ | file
        · rfl
        · exact Function.update_of_ne (hfree file hfile j r hj hr) _ _
      · exact r₁.spFs.close_of_ne q.disk _ (h.files_ne j m.id r r₁ hr hid hj)
    obtain ⟨hq', hin⟩ := h.close hmap hother
    exact Received.quiet hq' false (fun h => by cases h) (hin.trans (if_pos hok).symm) hquiet fun _ _ hm => by cases hm

/-- **Binary data** is appended to the inbox that it names. -/
theorem received_taskRecvBinaryData (h : Receiving q) {id : Int64} {data : Str}
    (hwrites : a.writes.ok = true) (hq : q.taskRecvBinaryData a id data = .ok q') :
    Received q (.binary id data) q' := by
  unfold QwebFiles.taskRecvBinaryData FilesChannel.addDataRecv at hq
  rcases hid : q.fsSwap.mapRecv id with _ | r
  · simp only [hid, Except.map, Except.ok.injEq] at hq
    subst hq
    refine Received.quiet (h.frame rfl rfl).1 false (fun h => by cases h) ?_ (.refl q) fun _ _ hm => by cases hm
    refine (h.frame rfl rfl).2.trans (Function.update_eq_self_iff.2 ?_).symm
    rw [inboxes_eq_none.2 hid]; rfl
  · have hr := h.held id r hid
    obtain ⟨p, hp⟩ := percent_ok (r.countRecv + data.length) hr.length_pos
    obtain ⟨hend, hcontents⟩ := hr.atEnd.write data hwrites
    have hfile : (r.spFs.write q.disk data a.writes).1.file = r.spFs.file := r.spFs.write_file _ _ _
    have hgood : (r.spFs.write q.disk data a.writes).1.good = true := by
      rw [Ofstream.write_good, Ofstream.good, hr.atEnd.bad_eq, hwrites]; rfl
    simp only [hid, hgood, if_true, hp, Except.map, Except.ok.injEq] at hq
    -- the transfer and its file, whatever the progress that is reported
    have key : ∀ (q' : QwebFiles) (prog : ℤ), Quiet q q' →
        q'.fsSwap.mapRecv = Function.update q.fsSwap.mapRecv id (some { r with
          prog := prog
          countRecv := r.countRecv + data.length
          spFs := (r.spFs.write q.disk data a.writes).1 }) →
        q'.disk = (r.spFs.write q.disk data a.writes).2 → Received q (.binary id data) q' := by
      intro q' prog hquiet hmap hdisk
      have hgot : (r.spFs.write q.disk data a.writes).1.contents q'.disk =
          r.spFs.contents q.disk ++ data := by rw [hdisk]; exact hcontents
      obtain ⟨hq', hin⟩ := h.write hmap
        (fun f hf => by rw [hdisk]; exact r.spFs.write_of_ne q.disk data a.writes (hfile ▸ hf)) hgot
        (fun j s hj hs => hfile.symm ▸ h.files_ne j id s r hs hid hj)
        ⟨hdisk.symm ▸ hend, by simp [hgot, hr.count_eq], hr.length_pos⟩
      refine Received.quiet hq' false (fun h => by cases h) (hin.trans ?_) hquiet fun _ _ hm => by cases hm
      simp [receive, inboxes, hid]
    split_ifs at hq
    · subst hq
      exact key _ p ((Quiet.refl q).emit fun _ _ he => by cases he) rfl rfl
    · subst hq
      exact key _ r.prog (.refl q) rfl rfl

/-- **The end of a download** is announced when all of it has arrived. -/
theorem received_finishDownloadBack (h : Receiving q) {id : Int64} {ok : Bool}
    (hq : q.finishDownloadBack J a id ok = .ok q') : Received q (.finishDownloadBack id ok) q' := by
  obtain ⟨s, hs, hq⟩ := bind_eq_ok.1 hq
  cases hq
  have hmap : (q.fsSwap.closeFileRecvChannel q.idChannel id).mapRecv =
      Function.update q.fsSwap.mapRecv id none :=
    (congrArg Registry.entry (FilesChannel.recvSide_closeFileRecvChannel q.fsSwap q.idChannel id)).trans
      (Registry.closeAt_entry _ _ _)
  suffices key : ∀ q' : QwebFiles, q'.fsSwap = q.fsSwap.closeFileRecvChannel q.idChannel id →
      q'.disk = q.fsSwap.flushFileRecv q.disk id a.closes →
      q'.log = q.log ++ [.sent (setFilesJson s) (a.sends q.sends)] ++
        [.snFinishDownload (q.fsSwap.checkLengthRecv id && ok) id] →
      Received q (.finishDownloadBack id ok) q' from key _ rfl rfl rfl
  intro q' hfs hdisk hlog
  have hother : ∀ j r, j ≠ id → q.fsSwap.mapRecv j = some r →
      q'.disk r.spFs.file = q.disk r.spFs.file := by
    intro j r hj hr
    rw [hdisk, FilesChannel.flushFileRecv]
    rcases hid : q.fsSwap.mapRecv id with _ | s
    · rfl
    · exact s.spFs.close_of_ne q.disk _ (h.files_ne j id r s hr hid hj)
  obtain ⟨hq', hin⟩ := h.close (by rw [hfs, hmap]) hother
  refine ⟨hq', ⟨false, (fun h => by cases h), hin⟩, _, hlog.trans (List.append_assoc _ _ _), fun i => ?_⟩
  have hcheck : q.fsSwap.checkLengthRecv id = true ↔
      ∃ contents, inboxes q id = some ((contents.length : ℤ), contents) := by
    unfold FilesChannel.checkLengthRecv inboxes
    rcases hid : q.fsSwap.mapRecv id with _ | r
    · simp
    · simp only [(h.held id r hid).count_eq, beq_iff_eq, Option.map_some, Option.some.injEq,
        Prod.mk.injEq]
      constructor
      · intro he; exact ⟨_, he.symm, rfl⟩
      · rintro ⟨contents, he, rfl⟩; exact he.symm
  simp only [List.mem_append, List.mem_singleton, FilesEv.snFinishDownload.injEq, reduceCtorEq,
    false_or, FilesMsg.finishDownloadBack.injEq]
  rw [eq_comm, Bool.and_eq_true, hcheck]
  constructor
  · rintro ⟨⟨hc, rfl⟩, rfl⟩; exact ⟨⟨rfl, rfl⟩, hc⟩
  · rintro ⟨⟨rfl, rfl⟩, hc⟩; exact ⟨⟨hc, rfl⟩, rfl⟩

/-- **Every event does to the inboxes what its message says.** -/
theorem receive_handle (h : Receiving q) {fuel : ℕ} {e : FilesEvent} (hok : DownloadOk J q e)
    (hq : q.handle J fuel e = .ok q') : Received q (eventMsg J e) q' := by
  obtain ⟨input, a⟩ := e
  -- the count of calls of `send()` concerns nothing here
  have h₀ : Receiving { q with sends := 0 } := ⟨h.files_ne, h.held⟩
  have hsends : ∀ {m}, Received { q with sends := 0 } m q' → Received q m q' := fun hr =>
    ⟨hr.receiving, hr.inboxes_eq, hr.finished⟩
  cases input with
  | opened c =>
    cases hq
    have hmap := congrArg Registry.entry (FilesChannel.recvSide_addIdChannel q.fsSwap c)
    rw [Registry.addChannel_entry] at hmap
    have hopen : Quiet q { q with sends := 0, idChannel := c, fsSwap := (q.fsSwap.addIdChannel c).2 } :=
      .refl q
    exact .frame h hmap rfl (fun _ => rfl) (hopen.emit fun _ _ he => by cases he)
  | closed =>
    cases hq
    have hclose : Quiet q { q with sends := 0, fsSwap := q.fsSwap.removeIdChannel q.idChannel } :=
      .refl q
    exact .frame h rfl rfl (fun _ => rfl) (hclose.emit fun _ _ he => by cases he)
  | uploadFile absPath savePath => exact hsends (.apart h₀ (fun _ => rfl) (apart_uploadFile hq))
  | downloadFile absPath savePath => exact hsends (.apart h₀ (fun _ => rfl) (apart_downloadFile hq))
  | message msg =>
    refine hsends ?_
    simp only [QwebFiles.handle, QwebFiles.slMessage_eq] at hq
    obtain ⟨m, hm, hq⟩ := bind_eq_ok.1 hq
    have he : eventMsg J (.message msg, a) = m := by simp only [eventMsg, hm]
    rw [he]
    cases m with
    | createUploadBack m => exact .apart h₀ (fun _ => rfl) (apart_createUploadBack hq)
    | beginUploadBack id => exact .apart h₀ (fun _ => rfl) (apart_beginUploadBack hq)
    | finishUploadBack id ok =>
      cases hq
      exact .apart h₀ (fun _ => rfl) (apart_finishUploadBack _ id ok)
    | createDownloadBack m =>
      exact received_createDownloadBack h₀ (hok.length_pos m he)
        (fun file hfile j r => hok.file_free m file he hfile j r) hq
    | beginDownloadBack id => exact .apart h₀ (fun _ => rfl) (apart_beginDownloadBack hq)
    | finishDownloadBack id ok => exact received_finishDownloadBack h₀ hq
    | binary id data => exact received_taskRecvBinaryData h₀ hok.writes hq
    | other => cases hq; exact .frame h₀ rfl rfl (fun _ => rfl) (.refl _)

end

/-! ## Runs -/

section
variable (J : JsonLib) (fuel : ℕ)

/-- The steps of the client that meet the condition. -/
abbrev DownloadStep : QwebFiles → FilesEvent → QwebFiles → Prop :=
  Guarded (DownloadOk J) (QwebFiles.Step J fuel)

/-- The steps after which `id` is open. -/
def StayOpen (id : Int64) (step : QwebFiles → FilesEvent → QwebFiles → Prop) :
    QwebFiles → FilesEvent → QwebFiles → Prop :=
  fun q e q' => step q e q' ∧ (q'.fsSwap.mapRecv id).isSome

end

section
variable {J : JsonLib} {fuel : ℕ} {q q' : QwebFiles}

theorem receiving_of_run (h : Receiving q) {es : List FilesEvent}
    (hrun : Run (DownloadStep J fuel) q es q') : Receiving q' :=
  hrun.invariant h fun _ _ _ hI hs => (receive_handle hI hs.1 hs.2).receiving

theorem isSome_inboxes {id : Int64} : (inboxes q id).isSome = (q.fsSwap.mapRecv id).isSome := by
  simp [inboxes]

/-- **While `id` stays open, the payloads for it are collected.** -/
theorem inboxes_of_run (h : Receiving q) {id : Int64} {len : ℤ} {contents : Str}
    (hid : inboxes q id = some (len, contents)) {fs : List FilesEvent}
    (hrun : Run (StayOpen id (DownloadStep J fuel)) q fs q') :
    Receiving q' ∧
      inboxes q' id = some (len, contents ++ fs.flatMap fun e => payload id (eventMsg J e)) := by
  induction hrun with
  | start => exact ⟨h, by simp [hid]⟩
  | @next fs q₁ q₂ e _ hs ih =>
    obtain ⟨hq₁, hid₁⟩ := ih
    obtain ⟨hq₂, ⟨opens, hopens, hin⟩, -⟩ := receive_handle hq₁ hs.1.1 hs.1.2
    refine ⟨hq₂, ?_⟩
    have hstay := isSome_inboxes.trans hs.2
    rw [hin] at hstay ⊢
    rw [receive_stay hid₁ hopens hstay]
    simp

end

/-- What holds of concurrent downloads in a state `q` that is reached, under the
    steps `step`; `holds` is what a stream is taken to have received so far. -/
structure Multiplexed (J : JsonLib) (fuel : ℕ) (holds : Ofstream → (Str → Str) → Str)
    (step : QwebFiles → FilesEvent → QwebFiles → Prop) (q : QwebFiles) : Prop where
  /-- From its opening on, as long as `id` stays open, it holds exactly what the
      binary frames for it have brought, and the count is their length. -/
  collects : ∀ e q₁ id fs q₂, step q e q₁ → q.fsSwap.mapRecv id = none →
    (q₁.fsSwap.mapRecv id).isSome → Run (StayOpen id step) q₁ fs q₂ →
      ∃ m r, eventMsg J e = .createDownloadBack m ∧ m.id = id ∧
        q₂.fsSwap.mapRecv id = some r ∧ r.lengthMax = m.lengthFile.toInt ∧
        holds r.spFs q₂.disk = (fs.flatMap fun e => payload id (eventMsg J e)) ∧
        r.countRecv = (fs.flatMap fun e => payload id (eventMsg J e)).length
  /-- A binary frame for an id that is not open changes nothing. -/
  ignores : ∀ id data a, q.fsSwap.mapRecv id = none →
    q.handle J fuel (.message (setFilesBinary id data), a) = .ok { q with sends := 0 }
  /-- A binary frame for an open id is handled as what it carries. -/
  accepts : ∀ id data a, (q.fsSwap.mapRecv id).isSome → a.writes.ok = true →
    eventMsg J (.message (setFilesBinary id data), a) = .binary id data ∧
      ∃ q', q.handle J fuel (.message (setFilesBinary id data), a) = .ok q'
  /-- The end of a download is announced exactly when it is due. -/
  finishes : ∀ e q', step q e q' → ∃ new, q'.log = q.log ++ new ∧
    ∀ id, .snFinishDownload true id ∈ new ↔ eventMsg J e = .finishDownloadBack id true ∧
      ∃ r, q.fsSwap.mapRecv id = some r ∧ r.countRecv = r.lengthMax
  /-- The message that ends a download is always handled, and leaves in the file what
      has been received, if the flush is carried out. -/
  ends : ∀ msg a id ok, readFrame J msg = .ok (.finishDownloadBack id ok) →
    ∃ q', q.handle J fuel (.message msg, a) = .ok q' ∧
      ∀ r, q.fsSwap.mapRecv id = some r → r.spFs.pend.length ≤ a.closes →
        q'.disk r.spFs.file = holds r.spFs q.disk

section
variable {J : JsonLib} {fuel : ℕ} {q : QwebFiles}

theorem readFrame_setFilesBinary (id : Int64) (data : Str) :
    readFrame J (setFilesBinary id data) = .ok (.binary id data) := by
  have hjson : checkFilesFlg (setFilesBinary id data) ≠ csFilesJson := by
    simp only [setFilesBinary, checkFilesFlg, List.headD_cons]
    decide
  have hbinary : checkFilesFlg (setFilesBinary id data) = csFilesBinary := rfl
  unfold readFrame
  rw [if_neg hjson, if_pos hbinary, getFilesBinary_set]

theorem eventMsg_setFilesBinary (a : Answers) (id : Int64) (data : Str) :
    eventMsg J (.message (setFilesBinary id data), a) = .binary id data := by
  simp only [eventMsg, readFrame_setFilesBinary]

theorem exists_setFilesFinishDownload (id : Int64) (ok : Bool) :
    ∃ t, setFilesFinishDownload J id ok = .ok t :=
  csSet_utf8 (by decide +kernel) (by decide +kernel) (by simp [plain_int64Field, Json.Plain])
    (by
      have hid : Json.validUtf8 (lit "id") = true := by decide +kernel
      have hok : Json.validUtf8 (lit "ok") = true := by decide +kernel
      simp [hid, hok, int64Field, Json.Utf8])

/-- A binary frame for an open id is written to its stream. -/
theorem step_setFilesBinary (J : JsonLib) (fuel : ℕ) {id : Int64} {r : FsRecv} (a : Answers) (data : Str)
    (hr : q.fsSwap.mapRecv id = some r) (hlen : 0 < r.lengthMax) :
    ∃ q' r', QwebFiles.Step J fuel q (.message (setFilesBinary id data), a) q' ∧
      q'.disk = (r.spFs.write q.disk data a.writes).2 ∧
      q'.fsSwap.mapRecv = Function.update q.fsSwap.mapRecv id (some r') ∧
      r'.spFs = (r.spFs.write q.disk data a.writes).1 := by
  simp only [QwebFiles.Step, QwebFiles.handle, QwebFiles.slMessage_eq, readFrame_setFilesBinary,
    ok_bind, QwebFiles.onMsg, QwebFiles.taskRecvBinaryData, FilesChannel.addDataRecv, hr]
  rcases hw : r.spFs.write q.disk data a.writes with ⟨fs, disk⟩
  simp only
  obtain ⟨p, hp⟩ := percent_ok (if fs.good then r.countRecv + data.length else r.countRecv) hlen
  rw [hp]
  simp only [Except.map]
  split_ifs <;> exact ⟨_, _, rfl, rfl, rfl, rfl⟩

theorem Receiving.multiplexed (h : Receiving q) :
    Multiplexed J fuel Ofstream.contents (DownloadStep J fuel) q where
  collects := by
    intro e q₁ id fs q₂ hstep hclosed hopen hrun
    obtain ⟨hq₁, ⟨opens, -, hin⟩, -⟩ := receive_handle h hstep.1 hstep.2
    rw [← isSome_inboxes, hin] at hopen
    obtain ⟨m, hm, hmid, hreceive⟩ := receive_open (inboxes_eq_none.2 hclosed) hopen
    obtain ⟨hq₂, hid₂⟩ := inboxes_of_run hq₁ (hin ▸ hreceive) hrun
    obtain ⟨r, hr, hx⟩ := Option.map_eq_some_iff.1 hid₂
    simp only [List.nil_append, Prod.mk.injEq] at hx
    exact ⟨m, r, hm, hmid, hr, hx.1, hx.2, by rw [(hq₂.held id r hr).count_eq, hx.2]⟩
  ignores := by
    intro id data a hid
    simp only [QwebFiles.handle, QwebFiles.slMessage_eq, readFrame_setFilesBinary, ok_bind,
      QwebFiles.onMsg, QwebFiles.taskRecvBinaryData, FilesChannel.addDataRecv, hid, Except.map]
  accepts := by
    intro id data a hid _
    obtain ⟨r, hr⟩ := Option.isSome_iff_exists.1 hid
    obtain ⟨q', -, hq', -⟩ :=
      step_setFilesBinary J fuel a data hr (h.held id r hr).length_pos
    exact ⟨eventMsg_setFilesBinary a id data, q', hq'⟩
  finishes := by
    intro e q' hstep
    obtain ⟨new, hlog, hnew⟩ := (receive_handle h hstep.1 hstep.2).finished
    refine ⟨new, hlog, fun id => (hnew id).trans (and_congr_right fun _ => ?_)⟩
    unfold inboxes
    rcases hid : q.fsSwap.mapRecv id with _ | r
    · simp
    · simp [(h.held id r hid).count_eq, eq_comm]
  ends := by
    intro msg a id ok hread
    obtain ⟨t, ht⟩ := exists_setFilesFinishDownload (J := J) id true
    simp only [QwebFiles.handle, QwebFiles.slMessage_eq, hread, ok_bind, QwebFiles.onMsg,
      QwebFiles.finishDownloadBack, ht]
    refine ⟨_, rfl, fun r hr hflush => ?_⟩
    calc q.fsSwap.flushFileRecv q.disk id a.closes r.spFs.file
        = r.spFs.close q.disk a.closes r.spFs.file := by rw [FilesChannel.flushFileRecv, hr]
      _ = r.spFs.contents q.disk := (h.held id r hr).atEnd.close hflush

/-- **Multiplexed receiving**, in every state of every run in which no download is
    created onto a file that another one is writing: what the streams have received
    is what the frames have brought. -/
theorem downloads_multiplexed (J : JsonLib) (fuel : ℕ) (disk : Str → Str) {es : List FilesEvent}
    (h : Run (DownloadStep J fuel) (.init disk) es q) :
    Multiplexed J fuel Ofstream.contents (DownloadStep J fuel) q :=
  (receiving_of_run (receiving_init disk) h).multiplexed

end

/-! ## A download, and two downloads of one file -/

/-- Every call of `send()` is accepted, every write succeeds and stays in the buffer
    until the file is closed, and the path to be written is the file "f". -/
def answersFile : Answers := ⟨fun _ => true, .closed, none, some (lit "f"), ⟨true, 0⟩, 1024⟩

/-- The same, but what is written reaches the file at once. -/
def answersThrough : Answers := { answersFile with writes := ⟨true, 1024⟩ }

/-- `files_create_download_back` for the ids 7 and 8. -/
def createDownloadBackFrame (seven : Bool) : Str := setFilesJson (lit (if seven then
  "\x7b\"extend\":\x7b\"abs_path\":\"a\",\"id\":7,\"length_file\":2,\"ok\":true,\"save_path\":\"f\"\x7d,\"head\":\"SMCHPRO\",\"stream\":\"sc\",\"type\":\"files_create_download_back\",\"version\":\"1\"\x7d"
  else
  "\x7b\"extend\":\x7b\"abs_path\":\"b\",\"id\":8,\"length_file\":2,\"ok\":true,\"save_path\":\"f\"\x7d,\"head\":\"SMCHPRO\",\"stream\":\"sc\",\"type\":\"files_create_download_back\",\"version\":\"1\"\x7d"))

theorem readFrame_createDownloadBackFrame : ∀ seven, readFrame Json.jsonText
    (createDownloadBackFrame seven) = .ok (.createDownloadBack
      (if seven then ⟨7, 2, lit "a", lit "f", true⟩ else ⟨8, 2, lit "b", lit "f", true⟩)) := by
  decide +kernel

theorem exists_setFilesBeginDownload (J : JsonLib) (id : Int64) :
    ∃ t, setFilesBeginDownload J id = .ok t :=
  csSet_utf8 (by decide +kernel) (by decide +kernel) (by simp [plain_int64Field])
    (by
      have hid : Json.validUtf8 (lit "id") = true := by decide +kernel
      simp [hid, int64Field, Json.Utf8])

/-- The message of a frame that is created here. -/
theorem eventMsg_createDownloadBackFrame (seven : Bool) (a : Answers) :
    eventMsg Json.jsonText (.message (createDownloadBackFrame seven), a) = .createDownloadBack
      (if seven then ⟨7, 2, lit "a", lit "f", true⟩ else ⟨8, 2, lit "b", lit "f", true⟩) := by
  simp only [eventMsg, readFrame_createDownloadBackFrame]

/-- The client just after its connection opens. -/
def connected : QwebFiles := .slOpen (.init fun _ => []) 1

/-- `files_finish_download_back` for the id 7. -/
def finishDownloadFrame : Str := setFilesJson (lit
  "\x7b\"extend\":\x7b\"id\":7,\"ok\":true\x7d,\"head\":\"SMCHPRO\",\"stream\":\"sc\",\"type\":\"files_finish_download_back\",\"version\":\"1\"\x7d")

theorem readFrame_finishDownloadFrame :
    readFrame Json.jsonText finishDownloadFrame = .ok (.finishDownloadBack 7 true) := by
  rw [finishDownloadFrame, lit_ofList rfl]
  decide +kernel

theorem eventMsg_finishDownloadFrame (a : Answers) :
    eventMsg Json.jsonText (.message finishDownloadFrame, a) = .finishDownloadBack 7 true := by
  simp only [eventMsg, readFrame_finishDownloadFrame]

/-- The download of 7 is created, its data arrives, and it ends: until then its file is
    empty. -/
theorem exists_downloaded_hi : ∃ q₁ q₂ q₃ r new,
    QwebFiles.Step Json.jsonText 10 connected (.message (createDownloadBackFrame true), answersFile) q₁ ∧
    QwebFiles.Step Json.jsonText 10 q₁ (.message (setFilesBinary 7 (lit "hi")), answersFile) q₂ ∧
    QwebFiles.Step Json.jsonText 10 q₂ (.message finishDownloadFrame, answersFile) q₃ ∧
    q₁.idChannel = 1 ∧ q₁.fsSwap.mapRecv 7 = some ⟨0, 0, 2, lit "f", .opened (lit "f")⟩ ∧
    inboxes q₁ 7 = some (2, []) ∧ q₂.fsSwap.mapRecv 7 = some r ∧
    r.spFs = ⟨lit "f", 0, lit "hi", false⟩ ∧ r.countRecv = 2 ∧ r.lengthMax = 2 ∧
    q₂.disk (lit "f") = [] ∧ q₃.disk (lit "f") = lit "hi" ∧ q₃.log = q₂.log ++ new := by
  obtain ⟨begun, hbegun⟩ := exists_setFilesBeginDownload Json.jsonText 7
  obtain ⟨t, ht⟩ := exists_setFilesFinishDownload (J := Json.jsonText) 7 true
  simp only [QwebFiles.Step, QwebFiles.handle, QwebFiles.slMessage_eq,
    readFrame_createDownloadBackFrame, readFrame_setFilesBinary, readFrame_finishDownloadFrame,
    ok_bind, QwebFiles.onMsg, QwebFiles.createDownloadBack, QwebFiles.finishDownloadBack, if_true,
    hbegun, ht]
  exact ⟨_, _, _, _, _, rfl, rfl, rfl, rfl, rfl, rfl, rfl, rfl, rfl, rfl, rfl, rfl,
    List.append_assoc _ _ _⟩

/-- The downloads of 7 and 8 are created onto one file. -/
theorem exists_downloads_f : ∃ q₁ q₂,
    QwebFiles.Step Json.jsonText 10 connected (.message (createDownloadBackFrame true), answersFile) q₁ ∧
    QwebFiles.Step Json.jsonText 10 q₁ (.message (createDownloadBackFrame false), answersFile) q₂ ∧
    (q₁.fsSwap.mapRecv 7).isSome ∧
    q₂.fsSwap.mapRecv 7 = some ⟨0, 0, 2, lit "f", .opened (lit "f")⟩ ∧
    q₂.fsSwap.mapRecv 8 = some ⟨0, 0, 2, lit "f", .opened (lit "f")⟩ ∧ q₂.disk (lit "f") = [] := by
  obtain ⟨begun₇, hbegun₇⟩ := exists_setFilesBeginDownload Json.jsonText 7
  obtain ⟨begun₈, hbegun₈⟩ := exists_setFilesBeginDownload Json.jsonText 8
  simp only [QwebFiles.Step, QwebFiles.handle, QwebFiles.slMessage_eq,
    readFrame_createDownloadBackFrame, ok_bind, QwebFiles.onMsg, QwebFiles.createDownloadBack,
    if_true, Bool.false_eq_true, if_false, hbegun₇, hbegun₈]
  exact ⟨_, _, rfl, rfl, rfl, rfl, rfl, rfl⟩

theorem writesOk_createDownloadBackFrame (seven : Bool) :
    WritesOk Json.jsonText (.message (createDownloadBackFrame seven), answersFile) := by
  refine ⟨rfl, fun m hm => ?_⟩
  rw [eventMsg_createDownloadBackFrame] at hm
  cases seven <;> cases hm <;> decide

theorem writesOk_setFilesBinary (J : JsonLib) (id : Int64) (data : Str) {a : Answers}
    (ha : a.writes.ok = true) : WritesOk J (.message (setFilesBinary id data), a) := by
  refine ⟨ha, fun m hm => ?_⟩
  rw [eventMsg_setFilesBinary] at hm
  cases hm

/-- The steps of the download above meet the condition. -/
theorem downloadSteps_hi {q₁ q₂ : QwebFiles}
    (hcreate : QwebFiles.Step Json.jsonText 10 connected
      (.message (createDownloadBackFrame true), answersFile) q₁)
    (hdata : QwebFiles.Step Json.jsonText 10 q₁ (.message (setFilesBinary 7 (lit "hi")), answersFile) q₂) :
    DownloadStep Json.jsonText 10 (.init fun _ => []) (.opened 1, answersFile) connected ∧
    DownloadStep Json.jsonText 10 connected (.message (createDownloadBackFrame true), answersFile) q₁ ∧
    DownloadStep Json.jsonText 10 q₁ (.message (setFilesBinary 7 (lit "hi")), answersFile) q₂ := by
  refine ⟨⟨⟨⟨rfl, fun _ h => by cases h⟩, fun _ _ h => by cases h⟩, rfl⟩,
    ⟨⟨writesOk_createDownloadBackFrame true, fun _ _ _ _ _ _ _ h => by cases h⟩, hcreate⟩,
    ⟨⟨writesOk_setFilesBinary _ _ _ rfl, fun m file hm => ?_⟩, hdata⟩⟩
  rw [eventMsg_setFilesBinary] at hm
  cases hm

/-- The data of one download is collected, and is in its file when the download ends. -/
theorem downloads_multiplexed_hi : ∃ q₁ q₂ q₃ r,
    QwebFiles.Step Json.jsonText 10 connected (.message (createDownloadBackFrame true), answersFile) q₁ ∧
    QwebFiles.Step Json.jsonText 10 q₁ (.message (setFilesBinary 7 (lit "hi")), answersFile) q₂ ∧
    QwebFiles.Step Json.jsonText 10 q₂ (.message finishDownloadFrame, answersFile) q₃ ∧
    q₂.fsSwap.mapRecv 7 = some r ∧ r.spFs.contents q₂.disk = lit "hi" ∧
    r.countRecv = r.lengthMax ∧ q₃.disk r.spFs.file = lit "hi" := by
  obtain ⟨q₁, q₂, q₃, r₂, new, hcreate, hdata, hfinish, -, hr₁, -, hr₂, hfs, -⟩ :=
    exists_downloaded_hi
  obtain ⟨hconnect, hcreateOk, hdataOk⟩ := downloadSteps_hi hcreate hdata
  have hrun := Run.next Run.start hconnect
  obtain ⟨m, r, hm, -, hr, hlen, hcontents, hcount⟩ :=
    (downloads_multiplexed Json.jsonText 10 (fun _ => []) hrun).collects _ q₁ 7 _ q₂ hcreateOk rfl
      (by rw [hr₁]; rfl) (Run.next Run.start ⟨hdataOk, by rw [hr₂]; rfl⟩)
  rw [eventMsg_createDownloadBackFrame] at hm
  cases hm
  simp only [List.nil_append, List.flatMap_singleton, eventMsg_setFilesBinary, payload, if_true]
    at hcontents hcount
  obtain ⟨q, hq, hclosed⟩ := (downloads_multiplexed Json.jsonText 10 (fun _ => [])
    ((hrun.next hcreateOk).next hdataOk)).ends _ answersFile 7 true readFrame_finishDownloadFrame
  cases hq.symm.trans hfinish
  refine ⟨q₁, q₂, q₃, r, hcreate, hdata, hfinish, hr, hcontents, by rw [hcount, hlen]; decide, ?_⟩
  rw [hclosed r hr (by rw [Option.some.inj (hr.symm.trans hr₂), hfs]; decide), hcontents]

/-- What a download has received is not in its file while it is open; and if two
    downloads are saved to one file, the data of one is found with the other. -/
theorem downloads_not_in_files :
    (¬ ∀ (J : JsonLib) (fuel : ℕ) (disk : Str → Str) (es : List FilesEvent) (q : QwebFiles),
      Run (DownloadStep J fuel) (.init disk) es q →
        Multiplexed J fuel (fun s disk => disk s.file) (DownloadStep J fuel) q) ∧
    ¬ ∀ (J : JsonLib) (fuel : ℕ) (disk : Str → Str) (es : List FilesEvent) (q : QwebFiles),
      Run (Guarded (fun _ e => WritesOk J e) (QwebFiles.Step J fuel)) (.init disk) es q →
        Multiplexed J fuel Ofstream.contents
          (Guarded (fun _ e => WritesOk J e) (QwebFiles.Step J fuel)) q := by
  constructor
  · intro h
    obtain ⟨q₁, q₂, q₃, r₂, new, hcreate, hdata, -, -, hr₁, -, hr₂, hfs, -, -, hdisk, -⟩ :=
      exists_downloaded_hi
    obtain ⟨hconnect, hcreateOk, hdataOk⟩ := downloadSteps_hi hcreate hdata
    obtain ⟨m, r, -, -, hr, -, hfile, -⟩ :=
      (h Json.jsonText 10 (fun _ => []) _ connected (Run.next Run.start hconnect)).collects _ q₁ 7 _ q₂
        hcreateOk rfl (by rw [hr₁]; rfl) (Run.next Run.start ⟨hdataOk, by rw [hr₂]; rfl⟩)
    cases hr₂.symm.trans hr
    simp only [List.nil_append, List.flatMap_singleton, eventMsg_setFilesBinary, payload, if_true,
      hfs, hdisk] at hfile
    exact absurd hfile (by decide)
  · intro h
    obtain ⟨q₁, q₂, hcreate₇, hcreate₈, hopen, hr₇, hr₈, hempty⟩ := exists_downloads_f
    -- a chunk of the size that the server sends is not held back
    obtain ⟨chunk, hlen⟩ : ∃ chunk : Str, chunk.length = 1024 :=
      ⟨List.replicate 1024 120, List.length_replicate⟩
    obtain ⟨q₃, r₃, hdata, hdisk, hmap, -⟩ := step_setFilesBinary Json.jsonText 10
      answersThrough chunk hr₈ (by decide)
    have hstay : q₃.fsSwap.mapRecv 7 = some ⟨0, 0, 2, lit "f", .opened (lit "f")⟩ := by
      rw [hmap, Function.update_of_ne (by decide), hr₇]
    have hconnect : Guarded (fun _ e => WritesOk Json.jsonText e) (QwebFiles.Step Json.jsonText 10)
        (.init fun _ => []) (.opened 1, answersFile) connected := ⟨⟨rfl, fun _ h => by cases h⟩, rfl⟩
    have hstays : Run (StayOpen 7 (Guarded (fun _ e => WritesOk Json.jsonText e)
        (QwebFiles.Step Json.jsonText 10))) q₁
        ([] ++ [(.message (createDownloadBackFrame false), answersFile)] ++
          [(.message (setFilesBinary 8 chunk), answersThrough)]) q₃ :=
      .next (.next .start ⟨⟨writesOk_createDownloadBackFrame false, hcreate₈⟩, by rw [hr₇]; rfl⟩)
        ⟨⟨writesOk_setFilesBinary _ _ _ rfl, hdata⟩, by rw [hstay]; rfl⟩
    obtain ⟨m, r, -, -, hr, -, hcontents, -⟩ :=
      (h Json.jsonText 10 (fun _ => []) _ connected (Run.next Run.start hconnect)).collects _ q₁ 7 _ q₃
        ⟨writesOk_createDownloadBackFrame true, hcreate₇⟩ rfl hopen hstays
    cases hstay.symm.trans hr
    have hend : (Ofstream.opened (lit "f")).AtEnd q₂.disk := ⟨by rw [Ofstream.opened, hempty]; rfl, rfl⟩
    have hfile : q₃.disk (lit "f") = chunk := by
      rw [hdisk, Ofstream.write, if_neg (by decide)]
      exact (hend.put _ _).trans (by
        rw [Ofstream.opened, hempty, List.nil_append, List.nil_append]
        exact List.take_of_length_le hlen.le)
    simp only [List.nil_append, List.singleton_append, List.flatMap_cons, List.flatMap_nil,
      eventMsg_createDownloadBackFrame, eventMsg_setFilesBinary, payload, Ofstream.contents,
      Ofstream.opened, hfile] at hcontents
    rw [List.append_nil] at hcontents
    rw [hcontents, if_neg (by decide)] at hlen
    cases hlen

end SimpleChat
