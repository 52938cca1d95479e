/-
  qweb_files: what of every upload gets to the server.

  `add_data_send` reads the next chunk, passes it to `send()` and stops if that does
  not return a positive number; the next grant goes on behind the chunk.  A chunk that
  `send()` did not write at once may still leave later, or get lost.

  * `Upload`, `uploadOf`: the file last opened under an id, and the chunks passed to
    `send()` since, each with its result;
  * `InOrder`: between two events, the chunks of an open upload are what has been read
    of its file; `uploads_in_order`: so in every run, whatever gets lost, the server
    gets a file with holes at most;
  * `report_complete_iff`: when the end of an open upload is reported, all of its file
    was passed, and the server has it if and only if no chunk but empty ones gets lost.
-/
import SimpleChat.UploadFlow

namespace SimpleChat

open Lib

/-! ## The chunks of an upload -/

/-- An upload as it is observed: the contents of its file, and the chunks passed to
    `send()`, each with whether it was written at once. -/
structure Upload where
  contents : Str
  chunks : List (Str × Bool)

namespace Upload

/-- What was passed to `send()`. -/
def passed (u : Upload) : Str := (u.chunks.map Prod.fst).flatten

/-- What was written at once of it. -/
def accepted (u : Upload) : Str := ((u.chunks.filter Prod.snd).map Prod.fst).flatten

/-- The upload after another chunk. -/
def pass (u : Upload) (data : Str) (ok : Bool) : Upload := ⟨u.contents, u.chunks ++ [(data, ok)]⟩

variable (u : Upload) (data : Str) (ok : Bool)

@[simp] theorem contents_pass : (u.pass data ok).contents = u.contents := rfl

@[simp] theorem passed_pass : (u.pass data ok).passed = u.passed ++ data := by
  simp [passed, pass]

/-- Nothing is added, and the order stays. -/
theorem accepted_sublist : u.accepted.Sublist u.passed :=
  (List.filter_sublist.map Prod.fst).flatten

/-- Whatever chunks get through: nothing is added, and the order stays. -/
theorem sublist_passed {got : List Str} (h : got.Sublist (u.chunks.map Prod.fst)) :
    got.flatten.Sublist u.passed := h.flatten

/-- What gets through of a text in parts is all of it if and only if no part but empty
    ones gets lost. -/
theorem flatten_eq_iff {got parts : List Str} (h : got.Sublist parts) :
    got.flatten = parts.flatten ↔ got.filter (· ≠ []) = parts.filter (· ≠ []) := by
  constructor
  · intro heq
    induction h with
    | slnil => rfl
    | cons part h ih =>
      -- the rest cannot make up for a part that is lost
      have hle := h.flatten.length_le
      have hlen := congrArg List.length heq
      simp only [List.flatten_cons, List.length_append] at hlen
      obtain rfl : part = [] := List.eq_nil_of_length_eq_zero (by omega)
      rw [ih (by simpa using heq)]
      rfl
    | cons_cons part h ih =>
      rw [List.flatten_cons, List.flatten_cons, List.append_cancel_left_eq] at heq
      rw [List.filter_cons, List.filter_cons, ih heq]
  · intro heq
    rw [← List.flatten_filter_ne_nil, heq, List.flatten_filter_ne_nil]

end Upload

/-- What an observation adds to the upload of `id`. -/
def notePassed (id : Int64) (u : Option Upload) : FilesEv → Option Upload
  | .openedSend i contents => if i = id then some ⟨contents, []⟩ else u
  | .sent frame ok =>
    match binaryOf frame with
    | some (i, data) => if i = id then u.map fun u => u.pass data ok else u
    | none => u
  | _ => u

/-- The upload last opened under `id`. -/
def uploadOf (id : Int64) (log : List FilesEv) : Option Upload := log.foldl (notePassed id) none

section
variable (id : Int64) (log : List FilesEv)

theorem uploadOf_append_singleton (e : FilesEv) :
    uploadOf id (log ++ [e]) = notePassed id (uploadOf id log) e := by
  simp [uploadOf, List.foldl_append]

theorem notePassed_binary (u : Option Upload) (i : Int64) (data : Str) (ok : Bool) :
    notePassed id u (.sent (setFilesBinary i data) ok) = if i = id then u.map fun u => u.pass data ok else u := by
  simp only [notePassed, binaryOf_setFilesBinary]

theorem notePassed_json (u : Option Upload) (t : Str) (ok : Bool) :
    notePassed id u (.sent (setFilesJson t) ok) = u := by
  simp only [notePassed, binaryOf_setFilesJson]

end

/-- An event that is about another upload. -/
theorem notePassed_of_observed {J : JsonLib} {id : Int64} {e : FilesEvent} {ev : FilesEv}
    (hev : ObservedAt J e ev) (hid : uploadId (eventMsg J e) ≠ some id) (u : Option Upload) :
    notePassed id u ev = u := by
  rcases hev with ⟨-⟩ | ⟨-⟩ | h
  · rfl
  · rfl
  · generalize eventMsg J e = m at h hid
    cases h with
    | control => exact notePassed_json id u _ _
    | openedSend => exact if_neg fun hi => hid (by rw [← hi]; rfl)
    | chunk =>
      rw [notePassed_binary]
      exact if_neg fun hi => hid (by rw [← hi]; rfl)
    | _ => rfl

theorem uploadOf_of_observed {J : JsonLib} {id : Int64} {e : FilesEvent} {log new : List FilesEv}
    (hnew : ∀ ev ∈ new, ObservedAt J e ev) (hid : uploadId (eventMsg J e) ≠ some id) :
    uploadOf id (log ++ new) = uploadOf id log := by
  induction new using List.reverseRecOn with
  | nil => rw [List.append_nil]
  | append_singleton new ev ih =>
    rw [← List.append_assoc, uploadOf_append_singleton,
      notePassed_of_observed (hnew ev (by simp)) hid]
    exact ih fun ev hev => hnew ev (List.mem_append_left _ hev)

/-! ## Reports of the end -/

section
variable {J : JsonLib} {id id' : Int64} {t : Str} {b ok : Bool}

/-- A control frame of another type. -/
theorem not_finishUpload_request {type : Str} {fields : List (Str × Json)}
    (h : csSet J streamCs type fields = .ok t) (hf : ∀ f ∈ fields, f.2.Plain)
    (hu : type ≠ lit "files_finish_upload") : ¬ FinishUpload J (setFilesJson t) id ok := by
  rintro ⟨t', ht, htype, -⟩
  cases (List.cons.inj ht).2
  rw [checkJson_csSet hf h, Except.ok.injEq, Option.some.injEq, Prod.mk.injEq] at htype
  exact hu htype.2

/-- The report says what it was made of. -/
theorem finishUpload_set (h : setFilesFinishUpload J id b = .ok t)
    (hreport : FinishUpload J (setFilesJson t) id' ok) : id' = id ∧ ok = b := by
  obtain ⟨t', ht, -, hget⟩ := hreport
  cases (List.cons.inj ht).2
  rw [getFilesFinishUpload_set h, Except.ok.injEq, Option.some.injEq, Prod.mk.injEq] at hget
  exact ⟨hget.1.symm, hget.2.symm⟩

theorem not_finishUpload_binary (i : Int64) (data : Str) :
    ¬ FinishUpload J (setFilesBinary i data) id ok :=
  fun ⟨t, ht, _⟩ => setFilesBinary_ne_json i data t ht

end

/-- No success of an upload is reported among what was added to a log. -/
def Unreported (J : JsonLib) (log log' : List FilesEv) : Prop :=
  ∃ new, log' = log ++ new ∧
    ∀ frame ok id, .sent frame ok ∈ new → ¬ FinishUpload J frame id true

section
variable {J : JsonLib} {a : Answers} {fuel : ℕ} {q q' : QwebFiles} {log : List FilesEv}

theorem Unreported.refl (J : JsonLib) (log : List FilesEv) : Unreported J log log :=
  ⟨[], by simp, by simp⟩

theorem Unreported.sendMsg (h : Unreported J log q.log) {t : Str}
    (ht : ∀ id, ¬ FinishUpload J (setFilesJson t) id true) : Unreported J log (q.sendMsg a t).log := by
  obtain ⟨new, hlog, hnew⟩ := h
  refine ⟨new ++ [.sent (setFilesJson t) (a.sends q.sends)], ?_, fun frame ok id hmem => ?_⟩
  · rw [← List.append_assoc, ← hlog]
    rfl
  · rcases List.mem_append.1 hmem with hmem | hmem
    · exact hnew frame ok id hmem
    · obtain ⟨rfl, -⟩ := FilesEv.sent.inj (List.mem_singleton.1 hmem)
      exact ht id

theorem Unreported.signal {log log' : List FilesEv} (h : Unreported J log log') {e : FilesEv}
    (he : IsSignal e) : Unreported J log (log' ++ [e]) := by
  obtain ⟨new, hlog, hnew⟩ := h
  refine ⟨new ++ [e], by rw [hlog, List.append_assoc], fun frame ok id hmem => ?_⟩
  rcases List.mem_append.1 hmem with hmem | hmem
  · exact hnew frame ok id hmem
  · rw [← List.mem_singleton.1 hmem] at he
    exact he.elim

theorem Unreported.emit (h : Unreported J log q.log) {e : FilesEv} (he : IsSignal e) :
    Unreported J log (q.emit e).log := h.signal he

theorem unreported_createUploadBack {m : FilesCreateUploadBack} (hq : q.createUploadBack J a m = .ok q') :
    Unreported J q.log q'.log := by
  unfold QwebFiles.createUploadBack at hq
  split_ifs at hq
  case neg => cases hq; exact .refl J _
  obtain ⟨⟨okOpen, fc⟩, -, hq⟩ := bind_eq_ok.1 hq
  obtain ⟨t, ht, hq⟩ := bind_eq_ok.1 hq
  cases hq
  have hopened : Unreported J q.log ({ q with fsSwap := fc }.noteOpened okOpen m.id a.read).log := by
    unfold QwebFiles.noteOpened
    split
    · refine ⟨_, rfl, fun frame ok id hmem => ?_⟩
      cases List.mem_singleton.1 hmem
    · exact .refl J _
  refine (hopened.sendMsg fun id => ?_).emit trivial
  cases okOpen with
  | true => exact not_finishUpload_request ht (by simp [plain_int64Field]) (by decide)
  | false => exact fun hreport => absurd (finishUpload_set ht hreport).2 (by decide)

theorem unreported_createDownloadBack {m : FilesCreateDownloadBack}
    (hq : q.createDownloadBack J a m = .ok q') : Unreported J q.log q'.log := by
  unfold QwebFiles.createDownloadBack at hq
  by_cases hok : m.ok = true
  case neg => rw [if_neg hok] at hq; cases hq; exact .refl J _
  rw [if_pos hok] at hq
  rcases hopen : q.fsSwap.openFileRecvChannel q.disk q.idChannel m.id m.lengthFile.toInt
    (if m.savePath = [] then pathTemp ++ getFilename m.absPath else m.savePath) a.write a.closes with
    ⟨okOpen, fc, disk⟩
  simp only [hopen] at hq
  obtain ⟨t, ht, hq⟩ := bind_eq_ok.1 hq
  cases hq
  refine (Unreported.sendMsg (.refl J _) fun id => ?_).emit trivial
  split_ifs at ht
  · exact not_finishUpload_request ht (by simp [plain_int64Field]) (by decide)
  · exact not_finishUpload_request ht (by simp [plain_int64Field, Json.Plain]) (by decide)

/-- **Success is reported when data is asked for only.** -/
theorem unreported_handle {e : FilesEvent} (hm : ∀ id, eventMsg J e ≠ .beginUploadBack id)
    (hq : q.handle J fuel e = .ok q') : Unreported J q.log q'.log := by
  obtain ⟨input, a⟩ := e
  unfold QwebFiles.handle at hq
  cases input with
  | opened c => cases hq; exact Unreported.emit (.refl J _) trivial
  | closed => cases hq; exact Unreported.emit (.refl J _) trivial
  | uploadFile absPath savePath =>
    simp only [QwebFiles.uploadFile] at hq
    cases hsize : a.upload with
    | none => rw [hsize] at hq; cases hq; exact .refl J _
    | some fileSize =>
      simp only [hsize] at hq
      obtain ⟨t, ht, hq⟩ := bind_eq_ok.1 hq
      cases hq
      exact Unreported.sendMsg (.refl J _) fun id =>
        not_finishUpload_request ht (by simp [plain_int64Field, Json.Plain]) (by decide)
  | downloadFile absPath savePath =>
    obtain ⟨t, ht, hq⟩ := bind_eq_ok.1 hq
    cases hq
    exact Unreported.sendMsg (.refl J _) fun id =>
      not_finishUpload_request ht (by simp [Json.Plain]) (by decide)
  | message msg =>
    simp only [QwebFiles.slMessage_eq] at hq
    obtain ⟨m, hread, hq⟩ := bind_eq_ok.1 hq
    rw [eventMsg_message hread] at hm
    cases m with
    | createUploadBack m => exact unreported_createUploadBack (q := { q with sends := 0 }) hq
    | beginUploadBack id => exact absurd rfl (hm id)
    | finishUploadBack id ok => cases hq; exact Unreported.emit (.refl J _) trivial
    | createDownloadBack m => exact unreported_createDownloadBack (q := { q with sends := 0 }) hq
    | beginDownloadBack id =>
      obtain ⟨t, ht, hq⟩ := bind_eq_ok.1 hq
      cases hq
      exact Unreported.sendMsg (.refl J _) fun id =>
        not_finishUpload_request ht (by simp [plain_int64Field]) (by decide)
    | finishDownloadBack id ok =>
      obtain ⟨t, ht, hq⟩ := bind_eq_ok.1 hq
      cases hq
      exact (Unreported.sendMsg (.refl J _) fun id =>
        not_finishUpload_request ht (by simp [plain_int64Field, Json.Plain]) (by decide)).emit trivial
    | binary id data =>
      simp only [QwebFiles.onMsg, QwebFiles.taskRecvBinaryData] at hq
      obtain ⟨⟨ok, fc, disk, prog⟩, -, rfl⟩ := map_eq_ok.1 hq
      cases prog with
      | none => exact .refl J _
      | some prog => exact Unreported.emit (.refl J _) trivial
    | other => cases hq; exact .refl J _

end

/-! ## Uploads between two events -/

/-- The upload of `id` that is observed is the one that is open. -/
structure InOrder (id : Int64) (q : QwebFiles) : Prop where
  opened : ∀ sp, q.fsSwap.mapSend id = some sp → ∃ u, uploadOf id q.log = some u ∧
    u.contents = sp.spFs.data ∧ u.passed = sp.spFs.data.take sp.spFs.pos
  within : ∀ u, uploadOf id q.log = some u → u.passed <+: u.contents
  before : uploadOf id q.log = none → payloads id q.log = []

section
variable {J : JsonLib} {a : Answers} {fuel : ℕ} {id : Int64} {q q' : QwebFiles}

theorem inOrder_init (id : Int64) (disk : Str → Str) : InOrder id (.init disk) :=
  ⟨(fun _ h => by cases h), (fun _ h => by cases h), fun _ => rfl⟩

/-- An event that adds nothing to the upload, which stays or is closed. -/
theorem InOrder.quiet (h : InOrder id q) (new : List FilesEv) (hlog : q'.log = q.log ++ new)
    (hnew : uploadOf id (q.log ++ new) = uploadOf id q.log) (hsent : payloads id new = [])
    (hopen : ∀ sp, q'.fsSwap.mapSend id = some sp → q.fsSwap.mapSend id = some sp) : InOrder id q' := by
  refine ⟨fun sp hsp => ?_, ?_, ?_⟩
  · rw [hlog, hnew]
    exact h.opened sp (hopen sp hsp)
  · rw [hlog, hnew]
    exact h.within
  · rw [hlog, hnew, payloads_append, hsent, List.append_nil]
    exact h.before

/-- A control frame. -/
theorem InOrder.sendMsg (h : InOrder id q) (t : Str) : InOrder id (q.sendMsg a t) := by
  refine h.quiet [.sent (setFilesJson t) (a.sends q.sends)] rfl ?_ ?_ fun _ hsp => hsp
  · rw [uploadOf_append_singleton, notePassed_json]
  · simp [payloads, payloadOf_json]

/-- A signal. -/
theorem InOrder.emit (h : InOrder id q) {e : FilesEv} (he : IsSignal e) : InOrder id (q.emit e) := by
  refine h.quiet [e] rfl ?_ ?_ fun _ hsp => hsp
  · rw [uploadOf_append_singleton]
    cases e <;> first | rfl | exact he.elim
  · cases e <;> first | rfl | exact he.elim

/-- The opening of a file begins its upload; where it fails, nothing is open. -/
theorem InOrder.openSend (h : InOrder id q) {filename : Str} {okOpen : Bool} {fc : FilesChannel}
    (hopen : q.fsSwap.openFileSendChannel q.idChannel id filename a.read = .ok (okOpen, fc)) :
    InOrder id ({ q with fsSwap := fc }.noteOpened okOpen id a.read) := by
  have hmap := congrFun (mapSend_openFileSendChannel hopen) id
  rw [Function.update_self] at hmap
  have hclosed : (if okOpen then FilesChannel.sendEntry filename a.read else none) = none →
      InOrder id { q with fsSwap := fc } := by
    intro hnone
    refine h.quiet [] (by simp) (by simp) rfl fun sp hsp => ?_
    rw [show ({ q with fsSwap := fc } : QwebFiles).fsSwap.mapSend id = none from hmap.trans hnone] at hsp
    cases hsp
  cases okOpen with
  | false => exact hclosed rfl
  | true =>
    rcases hread : a.read with _ | _ | ⟨contents, ioError⟩
    · exact hclosed (by rw [hread]; rfl)
    · exact hclosed (by rw [hread]; rfl)
    · rw [hread] at hmap
      have hlog : uploadOf id (q.log ++ [.openedSend id contents]) = some ⟨contents, []⟩ := by
        rw [uploadOf_append_singleton]
        exact if_pos rfl
      refine ⟨fun sp hsp => ?_, fun u hu => ?_, fun hnone => ?_⟩
      · obtain rfl := Option.some.inj (hmap.symm.trans hsp)
        exact ⟨_, hlog, rfl, rfl⟩
      · obtain rfl := Option.some.inj (hlog.symm.trans hu)
        exact List.nil_prefix
      · exact absurd (hlog.symm.trans hnone) (by simp)

/-- What holds of the upload of `id` during a grant. -/
def Passing (id : Int64) (data : Str) (sp : FsSend) (io : Io) : Prop :=
  sp.spFs.data = data ∧ ∃ u, uploadOf id io.log = some u ∧ u.contents = data ∧
    u.passed = data.take sp.spFs.pos

/-- **A round passes the chunk that it reads**, accepted or not. -/
theorem Passing.round {data : Str} {sp sp' : FsSend} {io io' : Io} {b : Bool} (h : Passing id data sp io)
    (hr : sendRound (QwebFiles.funcSend a id) (QwebFiles.funcProg id) sp io = .ok (b, sp', io')) :
    Passing id data sp' io' := by
  obtain ⟨hdata, u, hu, hcontents, hpassed⟩ := h
  obtain ⟨io₁, hcb, hfs, -, -, -, hio⟩ := sendRound_eq hr
  set chunk := (sp.spFs.read 1024).2
  simp only [QwebFiles.funcSend, QwebFiles.sendData, Io.send, Prod.mk.injEq] at hcb
  obtain ⟨-, rfl⟩ := hcb
  have hnote : uploadOf id (io.log ++ [.sent (setFilesBinary id chunk) (a.sends io.sends)]) =
      some (u.pass chunk (a.sends io.sends)) := by
    rw [uploadOf_append_singleton, notePassed_binary, if_pos rfl, hu]
    rfl
  have hlog : uploadOf id io'.log = some (u.pass chunk (a.sends io.sends)) := by
    rcases hio with rfl | ⟨prog, sp₁, rfl⟩
    · exact hnote
    · exact (uploadOf_append_singleton _ _ _).trans hnote
  have hread := Ifstream.read_take sp.spFs 1024
  rw [Ifstream.read_data, hdata] at hread
  refine ⟨?_, _, hlog, hcontents, ?_⟩
  · rw [hfs, Ifstream.read_data, hdata]
  · rw [Upload.passed_pass, hpassed, hfs, hread]

/-- A round reports nothing. -/
theorem Unreported.round {log : List FilesEv} {sp sp' : FsSend} {io io' : Io} {b : Bool}
    (h : Unreported J log io.log)
    (hr : sendRound (QwebFiles.funcSend a id) (QwebFiles.funcProg id) sp io = .ok (b, sp', io')) :
    Unreported J log io'.log := by
  obtain ⟨new, hlog, hnew⟩ := h
  obtain ⟨io₁, hcb, -, -, -, -, hio⟩ := sendRound_eq hr
  set chunk := (sp.spFs.read 1024).2
  simp only [QwebFiles.funcSend, QwebFiles.sendData, Io.send, Prod.mk.injEq] at hcb
  obtain ⟨-, rfl⟩ := hcb
  have hsent : Unreported J log (io.log ++ [.sent (setFilesBinary id chunk) (a.sends io.sends)]) := by
    refine ⟨new ++ [.sent (setFilesBinary id chunk) (a.sends io.sends)], ?_, fun frame ok i hmem => ?_⟩
    · rw [hlog, List.append_assoc]
    · rcases List.mem_append.1 hmem with hmem | hmem
      · exact hnew frame ok i hmem
      · obtain ⟨rfl, -⟩ := FilesEv.sent.inj (List.mem_singleton.1 hmem)
        exact not_finishUpload_binary id chunk
  rcases hio with rfl | ⟨prog, sp₁, rfl⟩
  · exact hsent
  · exact hsent.signal trivial

/-- A grant for an upload that is not open sends its report. -/
theorem beginUploadBack_none (hid : q.fsSwap.mapSend id = none)
    (hq : q.beginUploadBack J fuel a id = .ok q') :
    ∃ t, setFilesFinishUpload J id true = .ok t ∧ q' = q.sendMsg a t := by
  obtain ⟨⟨okSend, fc, io⟩, hsend, hq⟩ := bind_eq_ok.1 hq
  obtain ⟨t, ht, hq⟩ := bind_eq_ok.1 hq
  cases hq
  simp only [addDataSend, hid, Except.ok.injEq, Prod.mk.injEq] at hsend
  obtain ⟨rfl, rfl, rfl⟩ := hsend
  exact ⟨t, ht, rfl⟩

/-- **A grant for an open upload** passes chunks, and then reports the end of the file
    or asks to go on. -/
theorem beginUploadBack_passing (h : InOrder id q) {sp : FsSend} (hid : q.fsSwap.mapSend id = some sp)
    (hq : q.beginUploadBack J fuel a id = .ok q') :
    ∃ sp' io t, Passing id sp.spFs.data sp' io ∧ Unreported J q.log io.log ∧
      q'.fsSwap.mapSend id = some sp' ∧ q'.log = io.log ++ [.sent (setFilesJson t) (a.sends io.sends)] ∧
      (setFilesFinishUpload J id true = .ok t ∧ sp'.spFs.eof = true ∨ setFilesBeginUpload J id = .ok t) := by
  obtain ⟨⟨okSend, fc, io⟩, hsend, hq⟩ := bind_eq_ok.1 hq
  obtain ⟨t, ht, hq⟩ := bind_eq_ok.1 hq
  cases hq
  simp only [addDataSend, hid] at hsend
  obtain ⟨⟨b, sp', io'⟩, hloop, hsend⟩ := map_eq_ok.1 hsend
  simp only [Prod.mk.injEq] at hsend
  obtain ⟨rfl, rfl, rfl⟩ := hsend
  let I : Bool → FsSend → Io → Prop := fun _ sp₁ io =>
    Passing id sp.spFs.data sp₁ io ∧ Unreported J q.log io.log
  have hround : ∀ sp io b sp' io', I true sp io → sp.spFs.eof = false →
      sendRound (QwebFiles.funcSend a id) (QwebFiles.funcProg id) sp io = .ok (b, sp', io') →
        I b sp' io' :=
    fun _ _ _ _ _ hI _ hr => ⟨hI.1.round hr, hI.2.round hr⟩
  have hstart : I true sp q.toIo := ⟨⟨rfl, h.opened sp hid⟩, .refl J _⟩
  obtain ⟨⟨hpass, hnone⟩, heof⟩ := addDataSendLoop_inv hround hstart hloop
  refine ⟨sp', io', t, hpass, hnone, Function.update_self _ _ _, rfl, ?_⟩
  cases b with
  | true => exact Or.inl ⟨ht, heof rfl⟩
  | false => exact Or.inr ht

/-- **A grant keeps the upload in order.** -/
theorem InOrder.beginUploadBack (h : InOrder id q) (hq : q.beginUploadBack J fuel a id = .ok q') :
    InOrder id q' := by
  rcases hid : q.fsSwap.mapSend id with _ | sp
  · obtain ⟨t, -, rfl⟩ := beginUploadBack_none hid hq
    exact h.sendMsg t
  · obtain ⟨sp', io, t, ⟨hdata, u, hu, hcontents, hpassed⟩, -, hsp', hlog, -⟩ :=
      beginUploadBack_passing h hid hq
    have hu' : uploadOf id q'.log = some u := by
      rw [hlog, uploadOf_append_singleton, notePassed_json, hu]
    refine ⟨fun sp₁ hsp₁ => ?_, fun u₁ hu₁ => ?_, fun hnone => ?_⟩
    · obtain rfl := Option.some.inj (hsp'.symm.trans hsp₁)
      exact ⟨u, hu', by rw [hdata, hcontents], by rw [hdata, hpassed]⟩
    · obtain rfl := Option.some.inj (hu'.symm.trans hu₁)
      rw [hpassed, hcontents]
      exact List.take_prefix _ _
    · rw [hu'] at hnone
      cases hnone

/-- **Every event keeps every upload in order.** -/
theorem InOrder.handle {e : FilesEvent} (h : InOrder id q) (hq : q.handle J fuel e = .ok q') :
    InOrder id q' := by
  by_cases hid : uploadId (eventMsg J e) = some id
  case neg =>
    obtain ⟨⟨new, hlog, hnew⟩, hothers⟩ := handled_handle hq
    refine h.quiet new hlog (uploadOf_of_observed hnew hid) (payloads_of_observed hnew ?_) fun sp hsp => ?_
    · intro hm
      exact hid (by rw [hm]; rfl)
    · rwa [hothers id hid] at hsp
  -- a message about this upload
  have h₀ : InOrder id { q with sends := 0 } := ⟨h.opened, h.within, h.before⟩
  obtain ⟨msg, hmsg, hread⟩ : ∃ msg, e.1 = .message msg ∧ readFrame J msg = .ok (eventMsg J e) := by
    refine message_of_eventMsg rfl fun hother => ?_
    rw [hother] at hid
    cases hid
  unfold QwebFiles.handle at hq
  simp only [hmsg, QwebFiles.slMessage_eq, hread, ok_bind] at hq
  generalize eventMsg J e = m at hid hq
  cases m with
  | createUploadBack m =>
    obtain rfl : m.id = id := Option.some.inj hid
    simp only [QwebFiles.onMsg, QwebFiles.createUploadBack] at hq
    split_ifs at hq
    case neg => cases hq; exact h₀
    obtain ⟨⟨okOpen, fc⟩, hopen, hq⟩ := bind_eq_ok.1 hq
    obtain ⟨t, -, hq⟩ := bind_eq_ok.1 hq
    cases hq
    exact ((h₀.openSend hopen).sendMsg t).emit trivial
  | beginUploadBack i =>
    obtain rfl : i = id := Option.some.inj hid
    exact h₀.beginUploadBack hq
  | finishUploadBack i ok =>
    obtain rfl : i = id := Option.some.inj hid
    cases hq
    refine InOrder.emit (h₀.quiet [] (by simp) (by simp) rfl fun sp hsp => ?_) trivial
    have hmap := congrFun ((congrArg Registry.entry (FilesChannel.sendSide_closeFileSendChannel
      q.fsSwap q.idChannel i)).trans (Registry.closeAt_entry _ _ _)) i
    rw [Function.update_self] at hmap
    exact absurd (hmap.symm.trans hsp) (by simp)
  | _ => cases hid

/-- A run keeps every upload in order. -/
theorem inOrder_of_run {disk : Str → Str} {es : List FilesEvent}
    (h : Run (QwebFiles.Step J fuel) (.init disk) es q) (id : Int64) : InOrder id q :=
  h.invariant (inOrder_init id disk) fun _ _ _ hq hstep => hq.handle hstep

/-- **Uploads are in order.**  In every run, under any interleaving of uploads,
    downloads and connections and whatever `send()` returns: nothing is sent under an
    id that was not opened; what was passed under an id is a beginning of the file
    last opened under it, and what of it was written at once, or whatever else gets
    through to the server, is that with holes. -/
theorem uploads_in_order {disk : Str → Str} {es : List FilesEvent}
    (h : Run (QwebFiles.Step J fuel) (.init disk) es q) (id : Int64) :
    (uploadOf id q.log = none → payloads id q.log = []) ∧
    ∀ u, uploadOf id q.log = some u → u.passed <+: u.contents ∧ u.accepted.Sublist u.contents ∧
      ∀ got : List Str, got.Sublist (u.chunks.map Prod.fst) → got.flatten.Sublist u.contents := by
  have hq := inOrder_of_run h id
  refine ⟨hq.before, fun u hu => ⟨hq.within u hu, ?_, fun got hgot => ?_⟩⟩
  · exact u.accepted_sublist.trans (hq.within u hu).sublist
  · exact (u.sublist_passed hgot).trans (hq.within u hu).sublist

/-- A report behind frames that are none is the last frame. -/
theorem Unreported.report_last {log log' l₁ l₂ : List FilesEv} (h : Unreported J log log')
    {frame t : Str} {ok ok' : Bool} (hreport : FinishUpload J frame id true)
    (hlog : log' ++ [.sent t ok'] = log ++ (l₁ ++ .sent frame ok :: l₂)) :
    log' = log ++ l₁ ∧ t = frame := by
  obtain ⟨new, rfl, hnew⟩ := h
  rw [List.append_assoc, List.append_cancel_left_eq] at hlog
  rcases List.eq_nil_or_concat l₂ with rfl | ⟨l₂, e, rfl⟩
  · obtain ⟨rfl, hlast⟩ := List.append_inj' hlog rfl
    exact ⟨rfl, (FilesEv.sent.inj (List.singleton_inj.1 hlast)).1⟩
  · rw [List.concat_eq_append, ← List.cons_append, ← List.append_assoc] at hlog
    obtain ⟨rfl, -⟩ := List.append_inj' hlog rfl
    exact absurd hreport (hnew frame ok id (by simp))

/-- **What a report of success means.**  In every run, when the end of an open upload is
    reported as a success, the chunks passed to `send()` since it was opened make up its
    file; the server has the file if and only if no chunk but empty ones gets lost. -/
theorem report_complete_iff {disk : Str → Str} {es : List FilesEvent} {e : FilesEvent}
    (hrun : Run (QwebFiles.Step J fuel) (.init disk) es q) (hstep : QwebFiles.Step J fuel q e q')
    {l₁ l₂ : List FilesEv} {frame : Str} {ok : Bool} {sp : FsSend}
    (hlog : q'.log = q.log ++ (l₁ ++ .sent frame ok :: l₂)) (hreport : FinishUpload J frame id true)
    (hopen : q.fsSwap.mapSend id = some sp) :
    ∃ u, uploadOf id (q.log ++ l₁) = some u ∧ u.contents = sp.spFs.data ∧ u.passed = u.contents ∧
      ∀ got : List Str, got.Sublist (u.chunks.map Prod.fst) → (got.flatten = u.contents ↔
        got.filter (· ≠ []) = (u.chunks.map Prod.fst).filter (· ≠ [])) := by
  by_cases hm : ∃ i, eventMsg J e = .beginUploadBack i
  case neg =>
    obtain ⟨new, hnew, hnone⟩ := unreported_handle (fun i hi => hm ⟨i, hi⟩) hstep
    obtain rfl := List.append_cancel_left (hlog.symm.trans hnew)
    exact absurd hreport (hnone frame ok id (by simp))
  obtain ⟨i, hm⟩ := hm
  obtain ⟨msg, hmsg, hread⟩ := message_of_eventMsg hm (by simp)
  unfold QwebFiles.Step QwebFiles.handle at hstep
  simp only [hmsg, QwebFiles.slMessage_eq, hread, ok_bind, QwebFiles.onMsg] at hstep
  have hi : InOrder i { q with sends := 0 } := by
    have hq := inOrder_of_run hrun i
    exact ⟨hq.opened, hq.within, hq.before⟩
  rcases hid : q.fsSwap.mapSend i with _ | sp₁
  · -- the report of an upload that is not open
    obtain ⟨t, ht, rfl⟩ := beginUploadBack_none (q := { q with sends := 0 }) hid hstep
    obtain ⟨-, rfl⟩ := (Unreported.refl J q.log).report_last hreport hlog
    obtain ⟨rfl, -⟩ := finishUpload_set ht hreport
    rw [hid] at hopen
    cases hopen
  · obtain ⟨sp', io, t, ⟨hdata, u, hu, hcontents, hpassed⟩, hnone, -, hlog', hlast⟩ :=
      beginUploadBack_passing hi hid hstep
    obtain ⟨hio, rfl⟩ := hnone.report_last hreport (hlog'.symm.trans hlog)
    rcases hlast with ⟨ht, heof⟩ | ht
    · obtain ⟨rfl, -⟩ := finishUpload_set ht hreport
      obtain rfl := Option.some.inj (hid.symm.trans hopen)
      -- at the end of the file all of it was passed
      have hall : u.passed = u.contents := by
        have hpos := sp'.spFs.eof_pos heof
        rw [hdata] at hpos
        rw [hpassed, hcontents, hpos, List.take_length]
      exact ⟨u, hio ▸ hu, hcontents, hall, fun got hgot => hall ▸ Upload.flatten_eq_iff hgot⟩
    · exact absurd hreport (not_finishUpload_request ht (by simp [plain_int64Field]) (by decide))

end

/-! ## A chunk that gets lost -/

/-- No call of `send()` returns a positive number. -/
def answersRefused : Answers := { answersHi with sends := fun _ => false }

/-- The upload of a file whose one chunk is refused. -/
theorem exists_beginUpload_refused {q : QwebFiles}
    (hid : q.fsSwap.mapSend 7 = some ⟨0, 0, 2, lit "a", .opened (lit "hi") none⟩) :
    ∃ q' t sp, QwebFiles.Step Json.jsonText 10 q (.message beginUploadBackFrame, answersRefused) q' ∧
      q'.log = q.log ++ [.sent (setFilesBinary 7 (lit "hi")) false] ++ [.snProgUpload 7 100] ++
        [.sent (setFilesJson t) false] ∧
      q'.fsSwap.mapSend 7 = some sp ∧ sp.spFs.eof = true := by
  obtain ⟨t, ht⟩ := exists_setFilesBeginUpload Json.jsonText 7
  have hbuf : ((Ifstream.opened (lit "hi") none).read 1024).2 = lit "hi" := by decide +kernel
  have heof : ((Ifstream.opened (lit "hi") none).read 1024).1.eof = true := by decide +kernel
  have hprog : percent (0 + ((lit "hi").length : ℤ)) 2 = .ok 100 := by decide +kernel
  obtain ⟨sp, hloop, heof'⟩ : ∃ sp, addDataSendLoop (QwebFiles.funcSend answersRefused 7)
      (QwebFiles.funcProg 7) 10 ⟨0, 0, 2, lit "a", .opened (lit "hi") none⟩ ⟨q.log, 0⟩ =
        .ok (false, sp, ⟨q.log ++ [.sent (setFilesBinary 7 (lit "hi")) false] ++ [.snProgUpload 7 100], 1⟩) ∧
        sp.spFs.eof = true := by
    unfold addDataSendLoop
    rw [if_neg (by decide)]
    simp only [sendRound, hbuf, hprog]
    exact ⟨_, rfl, heof⟩
  simp only [QwebFiles.Step, QwebFiles.handle, QwebFiles.slMessage_eq,
    readFrame_beginUploadBackFrame, ok_bind, QwebFiles.onMsg, QwebFiles.beginUploadBack,
    addDataSend, hid, hloop, Except.map, Bool.false_eq_true, if_false, ht]
  refine ⟨_, t, sp, rfl, rfl, ?_, heof'⟩
  simp only [QwebFiles.sendMsg, Function.update_self]

/-- Its end is reported nevertheless. -/
theorem exists_finishUpload_refused {q : QwebFiles} {sp : FsSend} (hid : q.fsSwap.mapSend 7 = some sp)
    (heof : sp.spFs.eof = true) :
    ∃ q' frame, QwebFiles.Step Json.jsonText 10 q (.message beginUploadBackFrame, answersHi) q' ∧
      q'.log = q.log ++ ([] ++ .sent frame true :: []) ∧ FinishUpload Json.jsonText frame 7 true := by
  obtain ⟨t, ht⟩ := exists_setFilesFinishUpload Json.jsonText 7 true
  have hloop : addDataSendLoop (QwebFiles.funcSend answersHi 7) (QwebFiles.funcProg 7) 10 sp
      ⟨q.log, 0⟩ = .ok (true, sp, ⟨q.log, 0⟩) := by
    unfold addDataSendLoop
    exact if_pos heof
  simp only [QwebFiles.Step, QwebFiles.handle, QwebFiles.slMessage_eq,
    readFrame_beginUploadBackFrame, ok_bind, QwebFiles.onMsg, QwebFiles.beginUploadBack,
    addDataSend, hid, hloop, Except.map, if_true, ht]
  exact ⟨_, setFilesJson t, rfl, rfl, t, rfl, checkJson_csSet (by simp [plain_int64Field, Json.Plain]) ht,
    getFilesFinishUpload_set ht⟩

/-- The run, its end, and what was observed before the report. -/
theorem exists_refused : ∃ q q' frame u sp,
    Run (QwebFiles.Step Json.jsonText 10) (.init fun _ => []) [(.opened 1, answersHi),
      (.message createUploadBackFrame, answersHi), (.message beginUploadBackFrame, answersRefused)] q ∧
    QwebFiles.Step Json.jsonText 10 q (.message beginUploadBackFrame, answersHi) q' ∧
    q'.log = q.log ++ ([] ++ .sent frame true :: []) ∧ FinishUpload Json.jsonText frame 7 true ∧
    q.fsSwap.mapSend 7 = some sp ∧ uploadOf 7 q.log = some u ∧ (lit "hi", false) ∈ u.chunks := by
  obtain ⟨q₁, hcreate, hid⟩ := exists_createUpload_hi
  obtain ⟨q, t, sp, hbegin, hlog, hsp, heof⟩ := exists_beginUpload_refused hid
  obtain ⟨q', frame, hstep, hlog', hreport⟩ := exists_finishUpload_refused hsp heof
  have hopened : Run (QwebFiles.Step Json.jsonText 10) (.init fun _ => []) [(.opened 1, answersHi)]
      (.slOpen (.init fun _ => []) 1) := Run.next .start rfl
  obtain ⟨u, hu, -⟩ := (inOrder_of_run (hopened.next hcreate) 7).opened _ hid
  refine ⟨q, q', frame, u.pass (lit "hi") false, sp, (hopened.next hcreate).next hbegin, hstep, hlog',
    hreport, hsp, ?_, List.mem_append_right _ (List.mem_singleton_self _)⟩
  rw [hlog, uploadOf_append_singleton, notePassed_json, uploadOf_append_singleton,
    uploadOf_append_singleton, notePassed_binary, if_pos rfl, hu]
  rfl

/-- What gets lost is missing, and the rest is in order. -/
theorem uploads_in_order_refused : ∃ q u,
    Run (QwebFiles.Step Json.jsonText 10) (.init fun _ => []) [(.opened 1, answersHi),
      (.message createUploadBackFrame, answersHi), (.message beginUploadBackFrame, answersRefused)] q ∧
    uploadOf 7 q.log = some u ∧ u.passed <+: u.contents ∧ u.accepted.Sublist u.contents ∧
      ∀ got : List Str, got.Sublist (u.chunks.map Prod.fst) → got.flatten.Sublist u.contents := by
  obtain ⟨q, q', frame, u, sp, hrun, -, -, -, -, hu, -⟩ := exists_refused
  have hinOrder := (uploads_in_order hrun 7).2 u hu
  exact ⟨q, u, hrun, hu, hinOrder⟩

/-- The only chunk gets lost, and the client reports that the file is uploaded. -/
theorem report_complete_iff_refused : ∃ q q' frame u,
    Run (QwebFiles.Step Json.jsonText 10) (.init fun _ => []) [(.opened 1, answersHi),
      (.message createUploadBackFrame, answersHi), (.message beginUploadBackFrame, answersRefused)] q ∧
    QwebFiles.Step Json.jsonText 10 q (.message beginUploadBackFrame, answersHi) q' ∧
    q'.log = q.log ++ [.sent frame true] ∧ FinishUpload Json.jsonText frame 7 true ∧
    uploadOf 7 q.log = some u ∧ u.passed = u.contents ∧ ([] : List Str).flatten ≠ u.contents := by
  obtain ⟨q, q', frame, u, sp, hrun, hstep, hlog, hreport, hsp, hu, hchunk⟩ := exists_refused
  obtain ⟨u', hu', -, hpassed, hiff⟩ := report_complete_iff hrun hstep hlog hreport hsp
  rw [List.append_nil] at hu'
  obtain rfl := Option.some.inj (hu.symm.trans hu')
  refine ⟨q, q', frame, u, hrun, hstep, hlog, hreport, hu, hpassed, fun hall => ?_⟩
  have hnone := (hiff [] (List.nil_sublist _)).1 hall
  have hmem : lit "hi" ∈ (u.chunks.map Prod.fst).filter (· ≠ []) :=
    List.mem_filter.2 ⟨List.mem_map_of_mem hchunk, by decide⟩
  rw [← hnone] at hmem
  cases hmem

end SimpleChat
