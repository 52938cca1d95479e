/-
  qweb_files: the completion reports to the server.

  * `FinishUpload`, `FinishDownload`: what the server reads in a control frame;
  * `uploads`: of the last opening of an id for sending, the contents of its file
    and the payloads that `send()` has accepted since;
  * `ReportOk`: when an event leads to a true report at most: data is asked for an
    open upload only, every chunk is accepted, and the end of a download is
    announced when all of it has arrived;
  * `Sound`: between two events, what has been accepted for an open upload is
    what has been read of its file; `reports_truthful`: so the reports of runs of
    such events are true.
-/
import SimpleChat.Channels
import SimpleChat.Lib.JsonText
import SimpleChat.QwebFiles

namespace SimpleChat

open Lib

/-! ## What the server sees -/

section
variable (J : JsonLib)

/-- The frame is a `files_finish_upload` with these fields. -/
def FinishUpload (frame : Str) (id : Int64) (ok : Bool) : Prop :=
  ∃ t, frame = setFilesJson t ∧
    checkJson J t = .ok (some (streamCs, lit "files_finish_upload")) ∧
    getFilesFinishUpload J t = .ok (some (id, ok))

/-- The frame is a `files_finish_download` with these fields. -/
def FinishDownload (frame : Str) (id : Int64) (ok : Bool) : Prop :=
  ∃ t, frame = setFilesJson t ∧
    checkJson J t = .ok (some (streamCs, lit "files_finish_download")) ∧
    getFilesFinishDownload J t = .ok (some (id, ok))

end

/-- The id and the payload of a binary frame. -/
def binaryOf (frame : Str) : Option (Int64 × Str) :=
  if checkFilesFlg frame = csFilesBinary then getFilesBinary frame else none

/-- What an event adds to the upload of `id`. -/
def noteUpload (id : Int64) (u : Option (Str × Str)) : FilesEv → Option (Str × Str)
  | .openedSend i contents => if i = id then some (contents, []) else u
  | .sent frame true =>
    match binaryOf frame with
    | some (i, data) => if i = id then u.map fun x => (x.1, x.2 ++ data) else u
    | none => u
  | _ => u

/-- The file last opened for sending under `id`, and what has been accepted of
    it since. -/
def uploads (id : Int64) (log : List FilesEv) : Option (Str × Str) := log.foldl (noteUpload id) none

theorem uploads_append_singleton (id : Int64) (log : List FilesEv) (e : FilesEv) :
    uploads id (log ++ [e]) = noteUpload id (uploads id log) e := by
  simp [uploads, List.foldl_append]

theorem binaryOf_setFilesBinary (id : Int64) (data : Str) :
    binaryOf (setFilesBinary id data) = some (id, data) :=
  (if_pos rfl).trans (getFilesBinary_set id data)

theorem binaryOf_setFilesJson (t : Str) : binaryOf (setFilesJson t) = none := by
  rw [binaryOf, if_neg]
  simp only [setFilesJson, checkFilesFlg, List.headD_cons]
  decide

theorem setFilesBinary_ne_json (id : Int64) (data t : Str) :
    setFilesBinary id data ≠ setFilesJson t := by
  intro h
  exact absurd (List.cons.inj h).1 (by decide)

/-! ## Conditions on events -/

/-- Every chunk that is not empty is accepted, in a call of `add_data_send` that
    goes on from stream `fs`, count `count` and `n` calls of `send()`. -/
def ChunksAccepted (a : Answers) : ℕ → Ifstream → ℤ → ℕ → Prop
  | 0, _, _, _ => True
  | rounds + 1, fs, count, n =>
    fs.eof = false →
      ((fs.read 1024).2 ≠ [] → a.sends n = true) ∧
      (a.sends n = true → (count + (fs.read 1024).2.length).tmod QwebFiles.flux ≠ 0 →
        ChunksAccepted a rounds (fs.read 1024).1 (count + (fs.read 1024).2.length) (n + 1))

section
variable (J : JsonLib)

/-- The server asks for data of an open upload only, and every chunk is accepted;
    it announces the end of a download when all of it has been received. -/
structure ReportOk (q : QwebFiles) (e : FilesEvent) : Prop where
  begin_upload : ∀ msg id, e.1 = .message msg → readFrame J msg = .ok (.beginUploadBack id) →
    ∃ sp, q.fsSwap.mapSend id = some sp ∧
      ∀ rounds, ChunksAccepted e.2 rounds sp.spFs sp.countSend 0
  finish_download : ∀ msg id ok, e.1 = .message msg →
    readFrame J msg = .ok (.finishDownloadBack id ok) → q.fsSwap.checkLengthRecv id = true

/-! ## Truthful events -/

/-- A report sent after `log`, in the handling of an event from `q`, is true. -/
def TrueReport (q : QwebFiles) (log : List FilesEv) (frame : Str) : Prop :=
  (∀ id, FinishUpload J frame id true → ∃ contents, uploads id log = some (contents, contents)) ∧
  (∀ id, FinishDownload J frame id true →
    ∃ r, q.fsSwap.mapRecv id = some r ∧ r.countRecv = r.lengthMax)

/-- All reports among the events `new` after `log` are true. -/
def Truthful (q : QwebFiles) (log new : List FilesEv) : Prop :=
  ∀ l₁ frame b l₂, new = l₁ ++ .sent frame b :: l₂ → TrueReport J q (log ++ l₁) frame

end

section
variable {J : JsonLib} {q : QwebFiles} {log new new' : List FilesEv}

theorem truthful_nil : Truthful J q log [] := fun l₁ frame b l₂ h => by simp at h

theorem Truthful.append (h : Truthful J q log new) (h' : Truthful J q (log ++ new) new') :
    Truthful J q log (new ++ new') := by
  intro l₁ frame b l₂ he
  rcases List.append_eq_append_iff.1 he with ⟨m, hm, hn⟩ | ⟨m, hm, hn⟩
  · rw [hm, ← List.append_assoc]
    exact h' m frame b l₂ hn
  · rcases m with _ | ⟨e, m⟩
    · rw [List.append_nil] at hm
      have := h' [] frame b l₂ (by simpa using hn.symm)
      rwa [List.append_nil, hm] at this
    · simp only [List.cons_append, List.cons.injEq] at hn
      exact h l₁ frame b m (by rw [hm, hn.1])

theorem truthful_sent {frame : Str} {b : Bool} (h : TrueReport J q log frame) :
    Truthful J q log [.sent frame b] := by
  intro l₁ frame' b' l₂ he
  rcases l₁ with _ | ⟨e, l₁⟩
  · simp only [List.nil_append, List.cons.injEq, FilesEv.sent.injEq] at he
    rw [List.append_nil, ← he.1.1]
    exact h
  · simp at he

/-- An event that is no frame is no report. -/
theorem truthful_signal {e : FilesEv} (h : ∀ frame b, e ≠ .sent frame b) :
    Truthful J q log [e] := by
  intro l₁ frame b l₂ he
  rcases l₁ with _ | ⟨e', l₁⟩
  · simp only [List.nil_append, List.cons.injEq] at he
    exact absurd he.1 (h frame b)
  · simp at he

theorem trueReport_binary (id : Int64) (data : Str) : TrueReport J q log (setFilesBinary id data) :=
  ⟨fun _ ⟨t, h, _⟩ => absurd h (setFilesBinary_ne_json id data t),
    fun _ ⟨t, h, _⟩ => absurd h (setFilesBinary_ne_json id data t)⟩

/-- A control frame of another type is no report. -/
theorem trueReport_other {type t : Str} (h : checkJson J t = .ok (some (streamCs, type)))
    (hu : type ≠ lit "files_finish_upload") (hd : type ≠ lit "files_finish_download") :
    TrueReport J q log (setFilesJson t) := by
  constructor
  · rintro id ⟨t', ht, htype, -⟩
    cases (List.cons.inj ht).2
    rw [h, Except.ok.injEq, Option.some.injEq, Prod.mk.injEq] at htype
    exact absurd htype.2 hu
  · rintro id ⟨t', ht, htype, -⟩
    cases (List.cons.inj ht).2
    rw [h, Except.ok.injEq, Option.some.injEq, Prod.mk.injEq] at htype
    exact absurd htype.2 hd

theorem trueReport_finishUpload {t : Str} {id : Int64} {ok : Bool}
    (h : setFilesFinishUpload J id ok = .ok t)
    (htrue : ok = true → ∃ contents, uploads id log = some (contents, contents)) :
    TrueReport J q log (setFilesJson t) := by
  have htype := checkJson_csSet (by simp [plain_int64Field, Json.Plain]) h
  constructor
  · rintro id' ⟨t', ht, -, hget⟩
    cases (List.cons.inj ht).2
    rw [getFilesFinishUpload_set h, Except.ok.injEq, Option.some.injEq, Prod.mk.injEq] at hget
    rw [← hget.1]
    exact htrue hget.2
  · rintro id' ⟨t', ht, htype', -⟩
    cases (List.cons.inj ht).2
    rw [htype, Except.ok.injEq, Option.some.injEq, Prod.mk.injEq] at htype'
    exact absurd htype'.2 (by decide)

theorem trueReport_finishDownload {t : Str} {id : Int64} {ok : Bool}
    (h : setFilesFinishDownload J id ok = .ok t)
    (htrue : ok = true → ∃ r, q.fsSwap.mapRecv id = some r ∧ r.countRecv = r.lengthMax) :
    TrueReport J q log (setFilesJson t) := by
  have htype := checkJson_csSet (by simp [plain_int64Field, Json.Plain]) h
  constructor
  · rintro id' ⟨t', ht, htype', -⟩
    cases (List.cons.inj ht).2
    rw [htype, Except.ok.injEq, Option.some.injEq, Prod.mk.injEq] at htype'
    exact absurd htype'.2 (by decide)
  · rintro id' ⟨t', ht, -, hget⟩
    cases (List.cons.inj ht).2
    rw [getFilesFinishDownload_set h, Except.ok.injEq, Option.some.injEq, Prod.mk.injEq] at hget
    rw [← hget.1]
    exact htrue hget.2

end

/-! ## Uploads in progress -/

/-- Of every open upload, exactly what has been read has been accepted. -/
def Sound (q : QwebFiles) : Prop :=
  ∀ id sp, q.fsSwap.mapSend id = some sp →
    uploads id q.log = some (sp.spFs.data, sp.spFs.data.take sp.spFs.pos)

/-- What holds during a call of `add_data_send` for `id`, begun in `q`, after a
    callback with the given result. -/
structure Uploading (J : JsonLib) (a : Answers) (q : QwebFiles) (id : Int64) (data : Str)
    (running : Bool) (sp : FsSend) (io : Io) : Prop where
  data_eq : sp.spFs.data = data
  accepted : uploads id io.log = some (data, data.take sp.spFs.pos)
  others : ∀ j, j ≠ id → uploads j io.log = uploads j q.log
  truthful : ∃ new, io.log = q.log ++ new ∧ Truthful J q q.log new
  chunks : running = true → ∀ rounds, ChunksAccepted a rounds sp.spFs sp.countSend io.sends

/-- **A round keeps what holds of an upload.** -/
theorem Uploading.round {J : JsonLib} {a : Answers} {q : QwebFiles} {id : Int64} {data : Str}
    {sp sp' : FsSend} {io io' : Io} {b : Bool} (h : Uploading J a q id data true sp io)
    (he : sp.spFs.eof = false)
    (hr : sendRound (QwebFiles.funcSend a id) (QwebFiles.funcProg id) sp io = .ok (b, sp', io')) :
    Uploading J a q id data b sp' io' := by
  obtain ⟨io₁, hcb, hfs, hcount, -, -, hio⟩ := sendRound_eq hr
  obtain ⟨new, hlog, htruth⟩ := h.truthful
  have hchunk := fun rounds => h.chunks rfl (rounds + 1) he
  set buf := (sp.spFs.read 1024).2 with hbuf
  have hread := Ifstream.read_take sp.spFs 1024
  rw [Ifstream.read_data, h.data_eq, ← hbuf] at hread
  simp only [QwebFiles.funcSend, QwebFiles.sendData, Io.send, Prod.mk.injEq] at hcb
  obtain ⟨hb, rfl⟩ := hcb
  -- what the frame adds to the upload: the chunk, accepted unless it is empty
  have hnote : noteUpload id (uploads id io.log) (.sent (setFilesBinary id buf) (a.sends io.sends)) =
      some (data, data.take sp'.spFs.pos) := by
    rw [h.accepted, hfs, hread]
    cases hs : a.sends io.sends with
    | true => simp [noteUpload, binaryOf_setFilesBinary]
    | false =>
      have hnil : buf = [] := by
        by_contra hne
        rw [(hchunk 0).1 hne] at hs
        cases hs
      simp [noteUpload, hnil]
  have hother : ∀ j, j ≠ id →
      noteUpload j (uploads j io.log) (.sent (setFilesBinary id buf) (a.sends io.sends)) =
        uploads j q.log := by
    intro j hj
    rw [h.others j hj]
    cases a.sends io.sends <;> simp [noteUpload, binaryOf_setFilesBinary, Ne.symm hj]
  have hrunning : b = true → ∀ rounds,
      ChunksAccepted a rounds sp'.spFs sp'.countSend (io.sends + 1) := by
    intro hb' rounds
    rw [hb', FilesChannel.checkLinitFlux] at hb
    split_ifs at hb with hflux
    rw [hfs, hcount]
    exact (hchunk rounds).2 hb hflux
  rcases hio with rfl | ⟨prog, sp₁, rfl⟩
  · refine ⟨?_, ?_, ?_, ⟨new ++ [.sent (setFilesBinary id buf) (a.sends io.sends)], ?_,
      htruth.append (truthful_sent (trueReport_binary _ _))⟩, hrunning⟩
    · rw [hfs, Ifstream.read_data, h.data_eq]
    · rw [uploads_append_singleton, hnote]
    · intro j hj; rw [uploads_append_singleton, hother j hj]
    · rw [hlog, List.append_assoc]
  · refine ⟨?_, ?_, ?_, ⟨new ++ [.sent (setFilesBinary id buf) (a.sends io.sends)] ++
      [.snProgUpload id prog], ?_, (htruth.append (truthful_sent (trueReport_binary _ _))).append
      (truthful_signal (fun _ _ h => by cases h))⟩, hrunning⟩
    · rw [hfs, Ifstream.read_data, h.data_eq]
    · simp only [QwebFiles.funcProg, Io.emit, uploads_append_singleton, hnote]; rfl
    · intro j hj
      simp only [QwebFiles.funcProg, Io.emit, uploads_append_singleton, hother j hj]; rfl
    · simp only [QwebFiles.funcProg, Io.emit, hlog, List.append_assoc]

/-! ## Events -/

/-- The client in `q'` is sound, and its reports since `q` are true. -/
structure Honest (J : JsonLib) (q q' : QwebFiles) : Prop where
  sound : Sound q'
  reports : ∃ new, q'.log = q.log ++ new ∧ Truthful J q q.log new

section
variable {J : JsonLib} {a : Answers} {q q' q'' : QwebFiles}

theorem Honest.refl (h : Sound q) : Honest J q q := ⟨h, [], by simp, truthful_nil⟩

/-- The count of calls does not matter. -/
theorem Honest.of_sends (h : Honest J { q with sends := 0 } q') : Honest J q q' :=
  ⟨h.sound, h.reports⟩

/-- A change that opens nothing for sending. -/
theorem Honest.update (h : Honest J q q') (hlog : q''.log = q'.log)
    (hmap : ∀ id sp, q''.fsSwap.mapSend id = some sp → q'.fsSwap.mapSend id = some sp) :
    Honest J q q'' := by
  refine ⟨fun id sp hsp => ?_, by rw [hlog]; exact h.reports⟩
  rw [hlog]
  exact h.sound id sp (hmap id sp hsp)

/-- An event that adds nothing to any upload, and is true if it is a report. -/
theorem Honest.log (h : Honest J q q') {e : FilesEv} (hquiet : ∀ id u, noteUpload id u e = u)
    (htrue : Truthful J q q'.log [e]) (hlog : q''.log = q'.log ++ [e])
    (hfs : q''.fsSwap = q'.fsSwap) : Honest J q q'' := by
  obtain ⟨new, hnew, hreports⟩ := h.reports
  refine ⟨fun id sp hsp => ?_, new ++ [e], ?_, hreports.append (hnew ▸ htrue)⟩
  · rw [hlog, uploads_append_singleton, hquiet]
    exact h.sound id sp (hfs ▸ hsp)
  · rw [hlog, hnew, List.append_assoc]

theorem Honest.sendMsg (h : Honest J q q') {t : Str} (ht : TrueReport J q q'.log (setFilesJson t)) :
    Honest J q (q'.sendMsg a t) := by
  refine h.log (fun id u => ?_) (truthful_sent ht) rfl rfl
  cases a.sends q'.sends <;> simp [noteUpload, binaryOf_setFilesJson]

/-- An event that is neither a frame nor the opening of a file. -/
def IsSignal : FilesEv → Prop
  | .sent _ _ | .openedSend _ _ => False
  | _ => True

theorem Honest.emit (h : Honest J q q') {e : FilesEv} (he : IsSignal e) :
    Honest J q (q'.emit e) := by
  refine h.log (fun id u => ?_) (truthful_signal fun frame b hsent => ?_) rfl rfl
  · cases e <;> first | rfl | exact he.elim
  · rw [hsent] at he
    exact he

/-- A request that is no report. -/
theorem trueReport_request {log : List FilesEv} {type t : Str} {fields : List (Str × Json)}
    (h : csSet J streamCs type fields = .ok t) (hf : ∀ f ∈ fields, f.2.Plain)
    (hu : type ≠ lit "files_finish_upload") (hd : type ≠ lit "files_finish_download") :
    TrueReport J q log (setFilesJson t) := trueReport_other (checkJson_csSet hf h) hu hd

/-- The client after a file was opened for sending, or not. -/
theorem honest_openSend (h : Sound q) {id : Int64} {filename : Str} {okOpen : Bool}
    {fc : FilesChannel}
    (hopen : q.fsSwap.openFileSendChannel q.idChannel id filename a.read = .ok (okOpen, fc)) :
    Honest J q ({ q with fsSwap := fc }.noteOpened okOpen id a.read) := by
  rcases FilesChannel.openFileSendChannel_eq q.fsSwap q.idChannel id filename a.read with
    ⟨-, -, herr⟩ | ⟨fc', hok, hside, -, -⟩
  · rw [herr] at hopen; cases hopen
  · rw [hok, Except.ok.injEq, Prod.mk.injEq] at hopen
    obtain ⟨rfl, rfl⟩ := hopen
    by_cases hcan : q.fsSwap.mapSend id = none ∧
      (FilesChannel.sendEntry filename a.read).isSome ∧
        ((q.fsSwap.sendSide.lists q.idChannel)).isSome
    · rw [Registry.openAt_of_ok _ _ _ _ hcan.1 hcan.2.1 hcan.2.2] at hside ⊢
      have hmap : fc'.mapSend =
          Function.update q.fsSwap.mapSend id (FilesChannel.sendEntry filename a.read) :=
        congrArg Registry.entry hside
      rcases hread : a.read with _ | _ | ⟨contents, ioError⟩ <;> rw [hread] at hcan hmap
      case closed => exact absurd hcan.2.1 (by simp [FilesChannel.sendEntry])
      case unsized => exact absurd hcan.2.1 (by simp [FilesChannel.sendEntry])
      refine ⟨fun i sp hsp => ?_, [.openedSend id contents], rfl,
        truthful_signal fun _ _ he => by cases he⟩
      simp only [QwebFiles.noteOpened, QwebFiles.emit, Io.emit, hmap, uploads_append_singleton, noteUpload] at hsp ⊢
      by_cases hi : i = id
      · subst hi
        simp only [Function.update_self, FilesChannel.sendEntry, Option.some.injEq] at hsp
        subst hsp
        simp [Ifstream.opened]
      · rw [Function.update_of_ne hi] at hsp
        rw [if_neg (Ne.symm hi)]
        exact h i sp hsp
    · rw [Registry.openAt_of_not _ _ _ _ hcan] at hside ⊢
      have hmap : fc'.mapSend = Function.update q.fsSwap.mapSend id none :=
        (congrArg Registry.entry hside).trans (Registry.closeAt_entry _ _ _)
      refine (Honest.refl h).update rfl fun i sp hsp => ?_
      change fc'.mapSend i = some sp at hsp
      rw [hmap] at hsp
      by_cases hi : i = id
      · rw [hi, Function.update_self] at hsp; cases hsp
      · rwa [Function.update_of_ne hi] at hsp

theorem honest_createUploadBack (h : Sound q) {m : FilesCreateUploadBack}
    (hq : q.createUploadBack J a m = .ok q') : Honest J q q' := by
  unfold QwebFiles.createUploadBack at hq
  split_ifs at hq
  case neg => cases hq; exact .refl h
  obtain ⟨⟨okOpen, fc⟩, hopen, hq⟩ := bind_eq_ok.1 hq
  obtain ⟨s, hs, hq⟩ := bind_eq_ok.1 hq
  cases hq
  refine Honest.emit (Honest.sendMsg (honest_openSend h hopen) ?_) trivial
  cases okOpen with
  | true => exact trueReport_request hs (by simp [plain_int64Field]) (by decide) (by decide)
  | false => exact trueReport_finishUpload hs fun h => by cases h

/-- **Sending data.**  The end of the file is reported only when all of it has
    been accepted. -/
theorem honest_beginUploadBack (h : Sound q) {fuel : ℕ} {id : Int64} {sp : FsSend}
    (hid : q.fsSwap.mapSend id = some sp)
    (hchunks : ∀ rounds, ChunksAccepted a rounds sp.spFs sp.countSend q.sends)
    (hq : q.beginUploadBack J fuel a id = .ok q') : Honest J q q' := by
  have hstart : Uploading J a q id sp.spFs.data true sp q.toIo :=
    ⟨rfl, h id sp hid, fun _ _ => rfl, ⟨[], by simp, truthful_nil⟩, fun _ => hchunks⟩
  obtain ⟨⟨okSend, fc, io⟩, hsend, hq⟩ := bind_eq_ok.1 hq
  obtain ⟨s, hs, hq⟩ := bind_eq_ok.1 hq
  cases hq
  simp only [addDataSend, hid] at hsend
  rcases hloop : addDataSendLoop (QwebFiles.funcSend a id) (QwebFiles.funcProg id) fuel sp q.toIo
    with e | ⟨b, sp', io'⟩
  · simp [hloop, Except.map] at hsend
  simp only [hloop, Except.map, Except.ok.injEq, Prod.mk.injEq] at hsend
  obtain ⟨rfl, rfl, rfl⟩ := hsend
  obtain ⟨hend, heof⟩ := addDataSendLoop_inv (fun _ _ _ _ _ hI he hr => hI.round he hr) hstart hloop
  have hsent : Honest J q { q with
      toIo := io'
      fsSwap := { q.fsSwap with mapSend := Function.update q.fsSwap.mapSend id (some sp') } } := by
    refine ⟨fun i sp₁ hsp => ?_, hend.truthful⟩
    by_cases hi : i = id
    · subst hi
      simp only [Function.update_self, Option.some.injEq] at hsp
      rw [← hsp, hend.data_eq]
      exact hend.accepted
    · simp only [Function.update_of_ne hi] at hsp
      exact (hend.others i hi).trans (h i sp₁ hsp)
  refine hsent.sendMsg ?_
  cases b with
  | true =>
    refine trueReport_finishUpload hs fun _ => ⟨sp.spFs.data, ?_⟩
    have hpos := sp'.spFs.eof_pos (heof rfl)
    rw [hend.data_eq] at hpos
    exact hend.accepted.trans (by rw [hpos, List.take_length])
  | false => exact trueReport_request hs (by simp [plain_int64Field]) (by decide) (by decide)

theorem honest_finishUploadBack (h : Sound q) (id : Int64) (ok : Bool) :
    Honest J q (q.finishUploadBack id ok) := by
  have hmap : (q.fsSwap.closeFileSendChannel q.idChannel id).mapSend =
      Function.update q.fsSwap.mapSend id none :=
    (congrArg Registry.entry (FilesChannel.sendSide_closeFileSendChannel _ _ _)).trans
      (Registry.closeAt_entry _ _ _)
  have hclose : Honest J q
      { q with fsSwap := q.fsSwap.closeFileSendChannel q.idChannel id } := by
    refine (Honest.refl h).update rfl fun i sp hsp => ?_
    simp only [hmap] at hsp
    by_cases hi : i = id
    · rw [hi, Function.update_self] at hsp; cases hsp
    · rwa [Function.update_of_ne hi] at hsp
  exact hclose.emit trivial

/-- What leaves the sending side as it is. -/
theorem Honest.recv (h : Honest J q q') {fc : FilesChannel} {disk : Str → Str}
    (hside : fc.sendSide = q'.fsSwap.sendSide) :
    Honest J q { q' with fsSwap := fc, disk := disk } := by
  have hmap : fc.mapSend = q'.fsSwap.mapSend := congrArg Registry.entry hside
  exact h.update rfl fun i sp hsp => hmap ▸ hsp

theorem honest_createDownloadBack (h : Sound q) {m : FilesCreateDownloadBack}
    (hq : q.createDownloadBack J a m = .ok q') : Honest J q q' := by
  unfold QwebFiles.createDownloadBack at hq
  by_cases hok : m.ok = true
  case neg => rw [if_neg hok] at hq; cases hq; exact .refl h
  rw [if_pos hok] at hq
  set filename := if m.savePath = [] then pathTemp ++ getFilename m.absPath else m.savePath
  have hside := (FilesChannel.openFileRecvChannel_eq q.fsSwap q.idChannel m.id q.disk
    m.lengthFile.toInt filename a.write a.closes).2
  rcases hopen : q.fsSwap.openFileRecvChannel q.disk q.idChannel m.id m.lengthFile.toInt filename
    a.write a.closes with ⟨okOpen, fc, disk⟩
  simp only [hopen] at hq hside
  obtain ⟨s, hs, hq⟩ := bind_eq_ok.1 hq
  cases hq
  refine Honest.emit (Honest.sendMsg ((Honest.refl h).recv hside) ?_) trivial
  split_ifs at hs
  · exact trueReport_request hs (by simp [plain_int64Field]) (by decide) (by decide)
  · exact trueReport_finishDownload hs fun h => by cases h

theorem honest_beginDownloadBack (h : Sound q) {id : Int64}
    (hq : q.beginDownloadBack J a id = .ok q') : Honest J q q' := by
  obtain ⟨s, hs, hq⟩ := bind_eq_ok.1 hq
  cases hq
  exact (Honest.refl h).sendMsg
    (trueReport_request hs (by simp [plain_int64Field]) (by decide) (by decide))

/-- The answer is always true, so that all of the file must have arrived. -/
theorem honest_finishDownloadBack (h : Sound q) {id : Int64} {ok : Bool}
    (hid : q.fsSwap.checkLengthRecv id = true)
    (hq : q.finishDownloadBack J a id ok = .ok q') : Honest J q q' := by
  obtain ⟨s, hs, hq⟩ := bind_eq_ok.1 hq
  cases hq
  have hclose : Honest J q
      { q with
        fsSwap := q.fsSwap.closeFileRecvChannel q.idChannel id
        disk := q.fsSwap.flushFileRecv q.disk id a.closes } :=
    (Honest.refl h).recv (FilesChannel.sendSide_closeFileRecvChannel q.fsSwap q.idChannel id)
  refine Honest.emit (hclose.sendMsg ?_) trivial
  refine trueReport_finishDownload hs fun _ => ?_
  unfold FilesChannel.checkLengthRecv at hid
  rcases hr : q.fsSwap.mapRecv id with _ | r
  · simp [hr] at hid
  · exact ⟨r, rfl, by simpa [hr] using hid⟩

theorem addDataRecv_sendSide {fc fc' : FilesChannel} {disk disk' : Str → Str} {id : Int64}
    {data : Str} {write : WriteAnswer} {ok : Bool} {prog : Option ℤ}
    (h : fc.addDataRecv disk id data write = .ok (ok, fc', disk', prog)) :
    fc'.sendSide = fc.sendSide := by
  unfold FilesChannel.addDataRecv at h
  rcases hr : fc.mapRecv id with _ | sp
  · simp only [hr, Except.ok.injEq, Prod.mk.injEq] at h
    rw [h.2.1]
  · simp only [hr] at h
    rcases hw : sp.spFs.write disk data write with ⟨fs, disk₁⟩
    simp only [hw] at h
    rcases hp : percent (if fs.good then sp.countRecv + data.length else sp.countRecv) sp.lengthMax
      with e | p
    · simp [hp, Except.map] at h
    · simp only [hp, Except.map, Except.ok.injEq] at h
      split_ifs at h
      all_goals
        simp only [Prod.mk.injEq] at h
        rw [← h.2.1]
        rfl

theorem honest_taskRecvBinaryData (h : Sound q) {id : Int64} {data : Str}
    (hq : q.taskRecvBinaryData a id data = .ok q') : Honest J q q' := by
  unfold QwebFiles.taskRecvBinaryData at hq
  rcases hadd : q.fsSwap.addDataRecv q.disk id data a.writes with e | ⟨ok, fc, disk, prog⟩
  · simp [hadd, Except.map] at hq
  simp only [hadd, Except.map, Except.ok.injEq] at hq
  subst hq
  have hfc : Honest J q { q with fsSwap := fc, disk := disk } :=
    (Honest.refl h).recv (addDataRecv_sendSide hadd)
  cases prog with
  | none => exact hfc
  | some prog => exact hfc.emit trivial

/-- **Every event that meets the condition keeps the client honest.** -/
theorem honest_handle (h : Sound q) {fuel : ℕ} {e : FilesEvent} (hok : ReportOk J q e)
    (hq : q.handle J fuel e = .ok q') : Honest J q q' := by
  have h₀ : Sound { q with sends := 0 } := h
  refine Honest.of_sends ?_
  obtain ⟨input, a⟩ := e
  cases input with
  | opened c =>
    cases hq
    have hmap := congrArg Registry.entry (FilesChannel.sendSide_addIdChannel q.fsSwap c)
    rw [Registry.addChannel_entry] at hmap
    have hopen : Honest J { q with sends := 0 }
        { q with sends := 0, idChannel := c, fsSwap := (q.fsSwap.addIdChannel c).2 } :=
      (Honest.refl h₀).update rfl fun id sp hsp => (congrFun hmap id).symm.trans hsp
    exact hopen.emit trivial
  | closed =>
    cases hq
    have hclose : Honest J { q with sends := 0 }
        { q with sends := 0, fsSwap := q.fsSwap.removeIdChannel q.idChannel } :=
      (Honest.refl h₀).update rfl fun _ _ hsp => hsp
    exact hclose.emit trivial
  | uploadFile absPath savePath =>
    simp only [QwebFiles.handle, QwebFiles.uploadFile] at hq
    cases hsize : a.upload with
    | none => rw [hsize] at hq; cases hq; exact .refl h₀
    | some fileSize =>
      simp only [hsize] at hq
      obtain ⟨s, hs, hq⟩ := bind_eq_ok.1 hq
      cases hq
      exact (Honest.refl h₀).sendMsg (trueReport_request hs (by simp [plain_int64Field, Json.Plain])
        (by decide) (by decide))
  | downloadFile absPath savePath =>
    obtain ⟨s, hs, hq⟩ := bind_eq_ok.1 hq
    cases hq
    exact (Honest.refl h₀).sendMsg
      (trueReport_request hs (by simp [Json.Plain]) (by decide) (by decide))
  | message msg =>
    simp only [QwebFiles.handle, QwebFiles.slMessage_eq] at hq
    obtain ⟨m, hm, hq⟩ := bind_eq_ok.1 hq
    cases m with
    | createUploadBack m => exact honest_createUploadBack h₀ hq
    | beginUploadBack id =>
      obtain ⟨sp, hid, hchunks⟩ := hok.begin_upload msg id rfl hm
      exact honest_beginUploadBack h₀ hid hchunks hq
    | finishUploadBack id ok => cases hq; exact honest_finishUploadBack h₀ id ok
    | createDownloadBack m => exact honest_createDownloadBack h₀ hq
    | beginDownloadBack id => exact honest_beginDownloadBack h₀ hq
    | finishDownloadBack id ok => exact honest_finishDownloadBack h₀ (hok.finish_download msg id ok rfl hm) hq
    | binary id data => exact honest_taskRecvBinaryData h₀ hq
    | other => cases hq; exact .refl h₀

end

/-! ## Runs -/

theorem sound_init (disk : Str → Str) : Sound (.init disk) := fun _ _ h => by cases h

theorem sound_of_run {J : JsonLib} {fuel : ℕ} {disk : Str → Str} {es : List FilesEvent}
    {q : QwebFiles} (h : Run (Guarded (ReportOk J) (QwebFiles.Step J fuel)) (.init disk) es q) :
    Sound q :=
  h.invariant (sound_init disk) fun _ _ _ hs hstep => (honest_handle hs hstep.1 hstep.2).sound

/-- **Completion reports are true.**  In every run of events that meet the
    condition, every report that an event leads to is true. -/
theorem reports_truthful (J : JsonLib) (fuel : ℕ) (disk : Str → Str) {es : List FilesEvent}
    {e : FilesEvent} {q q' : QwebFiles}
    (h : Run (Guarded (ReportOk J) (QwebFiles.Step J fuel)) (.init disk) es q)
    (he : Guarded (ReportOk J) (QwebFiles.Step J fuel) q e q') :
    ∃ new, q'.log = q.log ++ new ∧ Truthful J q q.log new :=
  (honest_handle (sound_of_run h) he.1 he.2).reports

/-! ## An upload, and a report that is not true -/

/-- Every call of `send()` is accepted, and the file to be read is "hi". -/
def answersHi : Answers := ⟨fun _ => true, .file (lit "hi") none, none, none, ⟨true, 0⟩, 0⟩

def createUploadBackFrame : Str := setFilesJson (lit
  "\x7b\"extend\":\x7b\"abs_file\":\"a\",\"id\":7,\"ok\":true\x7d,\"head\":\"SMCHPRO\",\"stream\":\"sc\",\"type\":\"files_create_upload_back\",\"version\":\"1\"\x7d")

def beginUploadBackFrame : Str := setFilesJson (lit
  "\x7b\"extend\":\x7b\"id\":7\x7d,\"head\":\"SMCHPRO\",\"stream\":\"sc\",\"type\":\"files_begin_upload_back\",\"version\":\"1\"\x7d")

theorem readFrame_createUploadBackFrame : readFrame Json.jsonText createUploadBackFrame =
    .ok (.createUploadBack ⟨7, lit "a", true⟩) := by decide +kernel

theorem readFrame_beginUploadBackFrame : readFrame Json.jsonText beginUploadBackFrame =
    .ok (.beginUploadBack 7) := by decide +kernel

/-- The ids of uploads can be written. -/
theorem exists_setFilesBeginUpload (J : JsonLib) (id : Int64) :
    ∃ t, setFilesBeginUpload J id = .ok t :=
  csSet_utf8 (by decide +kernel) (by decide +kernel) (by simp [plain_int64Field])
    (by
      have hid : Json.validUtf8 (lit "id") = true := by decide +kernel
      simp [hid, int64Field, Json.Utf8])

theorem exists_setFilesFinishUpload (J : JsonLib) (id : Int64) (ok : Bool) :
    ∃ t, setFilesFinishUpload J id ok = .ok t :=
  csSet_utf8 (by decide +kernel) (by decide +kernel) (by simp [plain_int64Field, Json.Plain])
    (by
      have hid : Json.validUtf8 (lit "id") = true := by decide +kernel
      have hfinish : Json.validUtf8 (lit "finish") = true := by decide +kernel
      simp [hid, hfinish, int64Field, Json.Utf8])

theorem chunksAccepted_of_all {a : Answers} (h : ∀ n, a.sends n = true) (rounds : ℕ) :
    ∀ fs count n, ChunksAccepted a rounds fs count n := by
  induction rounds with
  | zero => exact fun _ _ _ => trivial
  | succ rounds ih => exact fun _ _ n _ => ⟨fun _ => h n, fun _ _ => ih _ _ _⟩

/-- The upload is opened. -/
theorem exists_createUpload_hi : ∃ q, QwebFiles.Step Json.jsonText 10 (.slOpen (.init fun _ => []) 1)
    (.message createUploadBackFrame, answersHi) q ∧
      q.fsSwap.mapSend 7 = some ⟨0, 0, 2, lit "a", .opened (lit "hi") none⟩ := by
  obtain ⟨begun, hbegun⟩ := exists_setFilesBeginUpload Json.jsonText 7
  simp only [QwebFiles.Step, QwebFiles.handle, QwebFiles.slMessage_eq,
    readFrame_createUploadBackFrame, ok_bind, QwebFiles.onMsg, QwebFiles.createUploadBack, hbegun]
  exact ⟨_, rfl, rfl⟩

/-- Its data is sent. -/
theorem exists_beginUpload_hi {q : QwebFiles}
    (hid : q.fsSwap.mapSend 7 = some ⟨0, 0, 2, lit "a", .opened (lit "hi") none⟩) :
    ∃ q', QwebFiles.Step Json.jsonText 10 q (.message beginUploadBackFrame, answersHi) q' := by
  obtain ⟨finished, hfinished⟩ := exists_setFilesFinishUpload Json.jsonText 7 true
  obtain ⟨⟨b, sp, io⟩, hloop, hb⟩ : ∃ r, addDataSendLoop (QwebFiles.funcSend answersHi 7)
      (QwebFiles.funcProg 7) 10 ⟨0, 0, 2, lit "a", .opened (lit "hi") none⟩ ⟨q.log, 0⟩ = .ok r ∧
        r.1 = true := ⟨_, rfl, rfl⟩
  cases hb
  simp only [QwebFiles.Step, QwebFiles.handle, QwebFiles.slMessage_eq,
    readFrame_beginUploadBackFrame, ok_bind, QwebFiles.onMsg, QwebFiles.beginUploadBack,
    addDataSend, hid, hloop, Except.map, if_true, hfinished]
  exact ⟨_, rfl⟩

theorem reportOk_createUpload_hi : ReportOk Json.jsonText (.slOpen (.init fun _ => []) 1)
    (.message createUploadBackFrame, answersHi) := by
  constructor
  · rintro _ id ⟨⟩ hread
    rw [readFrame_createUploadBackFrame] at hread
    cases hread
  · rintro _ id ok ⟨⟩ hread
    rw [readFrame_createUploadBackFrame] at hread
    cases hread

theorem reportOk_beginUpload_hi {q : QwebFiles} {sp : FsSend}
    (hid : q.fsSwap.mapSend 7 = some sp) :
    ReportOk Json.jsonText q (.message beginUploadBackFrame, answersHi) := by
  constructor
  · rintro _ id ⟨⟩ hread
    rw [readFrame_beginUploadBackFrame] at hread
    cases hread
    exact ⟨sp, hid, fun rounds => chunksAccepted_of_all (fun _ => rfl) rounds _ _ _⟩
  · rintro _ id ok ⟨⟩ hread
    rw [readFrame_beginUploadBackFrame] at hread
    cases hread

/-- A file is opened and sent, and every frame is accepted. -/
theorem reports_truthful_hi : ∃ q q' new,
    Run (QwebFiles.Step Json.jsonText 10) (.init fun _ => [])
      [(.opened 1, answersHi), (.message createUploadBackFrame, answersHi)] q ∧
    QwebFiles.Step Json.jsonText 10 q (.message beginUploadBackFrame, answersHi) q' ∧
    q'.log = q.log ++ new ∧ Truthful Json.jsonText q q.log new := by
  obtain ⟨q, hcreate, hid⟩ := exists_createUpload_hi
  obtain ⟨q', hbegin⟩ := exists_beginUpload_hi hid
  have hopen : Guarded (ReportOk Json.jsonText) (QwebFiles.Step Json.jsonText 10)
      (.init fun _ => []) (.opened 1, answersHi) (.slOpen (.init fun _ => []) 1) :=
    ⟨⟨(fun _ _ h => by cases h), fun _ _ _ h => by cases h⟩, rfl⟩
  have hcreated : Guarded (ReportOk Json.jsonText) (QwebFiles.Step Json.jsonText 10)
      (.slOpen (.init fun _ => []) 1) (.message createUploadBackFrame, answersHi) q :=
    ⟨reportOk_createUpload_hi, hcreate⟩
  have hrun := Run.next (Run.next Run.start hopen) hcreated
  obtain ⟨new, hnew⟩ := reports_truthful Json.jsonText 10 (fun _ => []) hrun
    ⟨reportOk_beginUpload_hi hid, hbegin⟩
  exact ⟨q, q', new, hrun.unguard, hbegin, hnew⟩

/-- Asked for data of an id that was never opened, the client reports the end of
    its upload. -/
theorem finishUpload_unopened :
    ¬ ∀ (J : JsonLib) (fuel : ℕ) (disk : Str → Str) (es : List FilesEvent) (e : FilesEvent)
      (q q' : QwebFiles), Run (QwebFiles.Step J fuel) (.init disk) es q →
        QwebFiles.Step J fuel q e q' → ∃ new, q'.log = q.log ++ new ∧ Truthful J q q.log new := by
  intro h
  obtain ⟨t, ht⟩ := exists_setFilesFinishUpload Json.jsonText 7 true
  have hbegin : QwebFiles.Step Json.jsonText 10 (.init fun _ => [])
      (.message beginUploadBackFrame, answersHi)
      (QwebFiles.sendMsg answersHi (.init fun _ => []) t) := by
    simp only [QwebFiles.Step, QwebFiles.handle, QwebFiles.slMessage_eq,
      readFrame_beginUploadBackFrame, ok_bind, QwebFiles.onMsg, QwebFiles.beginUploadBack]
    simp [addDataSend, QwebFiles.init, FilesChannel.empty, ht]
  obtain ⟨new, hlog, htrue⟩ := h _ _ _ _ _ _ _ .start hbegin
  have hreport := (htrue [] (setFilesJson t) true [] hlog.symm).1 7
    ⟨t, rfl, checkJson_csSet (by simp [plain_int64Field, Json.Plain]) ht, getFilesFinishUpload_set ht⟩
  simp [QwebFiles.init, uploads] at hreport

end SimpleChat
