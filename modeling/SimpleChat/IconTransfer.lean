/-
  qweb_files.h: `qweb_ac_download` and `qweb_ac_upload`, the transfers of icons.

  Each is a client of the file server with two slots: when the connection opens it sends
  its request, and when the end of a transfer is signalled it calls the user back and
  closes the connection.  A slot runs when its signal is emitted, which is the last thing
  that a handler does.  Frames that the connection has read before `close()` are still
  delivered.

  * `IconTransfer`: which of the two; `QwebAc.handle`: its events;
  * `calls_of_run`: the user is called back once for every finish reply, and for no other
    frame;
  * `calls_once_iff`: when that is once for every transfer that has ended.
-/
import SimpleChat.FilesLog

namespace SimpleChat

open Lib

/-- `qweb_ac_download` or `qweb_ac_upload`. -/
inductive IconTransfer where
  | download | upload
  deriving DecidableEq, Repr

/-- The members of the two classes: the client, the account and the path, and the
    calls that the slots made of the user's callback and of `close()`. -/
structure QwebAc where
  client : QwebFiles
  account : Int64
  path : Str
  calls : List (Bool × Int64 × Str)
  closes : ℕ

/-- The transfer before its connection opens. -/
def QwebAc.init (disk : Str → Str) (account : Int64) (path : Str) : QwebAc :=
  ⟨.init disk, account, path, [], 0⟩

/-- The path of an icon at the server: `_path_icon + "icon_" + std::to_string(account)`. -/
def iconPath (account : Int64) : Str := lit "../data/head_icon/icon_" ++ intText account.toInt

section
variable (J : JsonLib) (a : Answers)

/-- `download_icon`: its result, the path, and the client. -/
def downloadIcon (q : QwebFiles) (account : Int64) : Outcome (Bool × Str × QwebFiles) :=
  (q.downloadFile J a (iconPath account) (iconPath account)).map fun q' =>
    (a.sends q.sends, iconPath account, q')

/-- `upload_icon`: its result, and the client. -/
def uploadIcon (q : QwebFiles) (absPath : Str) (account : Int64) : Outcome (Bool × QwebFiles) :=
  (q.uploadFile J a absPath (iconPath account)).map fun q' => (a.upload.isSome && a.sends q.sends, q')

namespace QwebAc

/-- The call of `_fn_download_cb` or `_fn_upload_cb`. -/
def call (x : QwebAc) (ok : Bool) : QwebAc := { x with calls := x.calls ++ [(ok, x.account, x.path)] }

/-- The request that is sent when the connection opens. -/
def request (K : IconTransfer) (x : QwebAc) : Outcome (Bool × QwebAc) :=
  match K with
  | .download => (downloadIcon J a x.client x.account).map fun r =>
      (r.1, { x with path := r.2.1, client := r.2.2 })
  | .upload => (uploadIcon J a x.client x.path x.account).map fun r => (r.1, { x with client := r.2 })

/-- The slot of `sn_open`: the user is called back if the request cannot be sent. -/
def onOpen (K : IconTransfer) (x : QwebAc) : Outcome QwebAc :=
  (request J a K x).map fun r => if r.1 then r.2 else r.2.call r.1

/-- The slot of `sn_finish_download` or `sn_finish_upload`. -/
def onFinish (x : QwebAc) (ok : Bool) : QwebAc := { x.call ok with closes := x.closes + 1 }

/-- The slots of a signal. -/
def slots (K : IconTransfer) (x : QwebAc) (ev : FilesEv) : Outcome QwebAc :=
  match K, ev with
  | _, .snOpen => onOpen J a K x
  | .download, .snFinishDownload ok _ => .ok (x.onFinish ok)
  | .upload, .snFinishUpload ok _ => .ok (x.onFinish ok)
  | _, _ => .ok x

/-- An event: it is handled by the client, and the slots run for what that emits. -/
def handle (fuel : ℕ) (K : IconTransfer) (x : QwebAc) (e : FilesEvent) : Outcome QwebAc :=
  x.client.handle J fuel e >>= fun q =>
    (q.log.drop x.client.log.length).foldlM (slots J e.2 K) { x with client := q }

/-- The transfer whose connection has just opened. -/
def opened (x : QwebAc) (c : Int64) : QwebAc :=
  { x with client := { x.client with sends := 0 }.slOpen c }

/-- A call that returns. -/
def Step (fuel : ℕ) (K : IconTransfer) (x : QwebAc) (e : FilesEvent) (x' : QwebAc) : Prop :=
  handle J fuel K x e = .ok x'

end QwebAc

end

/-! ## How a transfer ends -/

/-- The message is the finish reply. -/
def IconTransfer.finishes : IconTransfer → FilesMsg → Bool
  | .download, .finishDownloadBack _ _ | .upload, .finishUploadBack _ _ => true
  | _, _ => false

/-- The message is a create reply that refuses, or whose file cannot be opened: its id
    is open already, the file does not open, or the connection is gone. -/
def IconTransfer.CreateFails (K : IconTransfer) (q : QwebFiles) (a : Answers) (m : FilesMsg) : Prop :=
  match K with
  | .download => ∃ m', m = .createDownloadBack m' ∧ (m'.ok = true →
      ¬ (q.fsSwap.mapRecv m'.id = none ∧ a.write.isSome ∧ (q.fsSwap.mapChannel q.idChannel).isSome))
  | .upload => ∃ m', m = .createUploadBack m' ∧ (m'.ok = true →
      ¬ (q.fsSwap.mapSend m'.id = none ∧ (∃ data ioError, a.read = .file data ioError) ∧
        (q.fsSwap.mapChannel q.idChannel).isSome))

section
variable {J : JsonLib} {a : Answers} {fuel : ℕ} {K : IconTransfer} {q q' : QwebFiles} {m : FilesMsg}

/-- A create reply fails iff the client signals so: downloads. -/
theorem createFails_download {m : FilesCreateDownloadBack} (hm : m.ok = true)
    (hq : q.createDownloadBack J a m = .ok q') :
    ∃ s b, q'.log = q.log ++ [.sent s (a.sends q.sends), .snCreateDownload b m.id m.absPath] ∧
      (b = false ↔ IconTransfer.download.CreateFails q a (.createDownloadBack m)) := by
  unfold QwebFiles.createDownloadBack at hq
  rw [if_pos hm] at hq
  set filename := if m.savePath = [] then pathTemp ++ getFilename m.absPath else m.savePath
  have hside := (FilesChannel.openFileRecvChannel_eq q.fsSwap q.idChannel m.id q.disk
    m.lengthFile.toInt filename a.write a.closes).1
  rcases hopen : q.fsSwap.openFileRecvChannel q.disk q.idChannel m.id m.lengthFile.toInt filename
    a.write a.closes with ⟨okOpen, fc, disk⟩
  simp only [hopen] at hq hside
  obtain ⟨s, hs, hq⟩ := bind_eq_ok.1 hq
  cases hq
  have hfst : okOpen = true ↔ q.fsSwap.mapRecv m.id = none ∧ a.write.isSome ∧
      (q.fsSwap.mapChannel q.idChannel).isSome := by
    have hopened : okOpen = _ := congrArg Prod.fst hside
    rw [hopened, Registry.openAt_fst]
    simp [FilesChannel.recvSide, FilesChannel.recvEntry]
  refine ⟨setFilesJson s, okOpen, List.append_assoc _ _ _, ?_⟩
  rw [← Bool.not_eq_true, hfst]
  constructor
  · intro h
    exact ⟨m, rfl, fun _ => h⟩
  · rintro ⟨m', hm', h⟩
    cases hm'
    exact h hm

theorem isSome_sendEntry {filename : Str} {file : OpenRead} :
    (FilesChannel.sendEntry filename file).isSome ↔ ∃ data ioError, file = .file data ioError := by
  cases file <;> simp [FilesChannel.sendEntry]

/-- A create reply fails iff the client signals so: uploads. -/
theorem createFails_upload {m : FilesCreateUploadBack} (hm : m.ok = true)
    (hq : q.createUploadBack J a m = .ok q') :
    ∃ new b, q'.log = q.log ++ (new ++ [.snCreateUpload b m.id m.absFile]) ∧
      (b = false ↔ IconTransfer.upload.CreateFails q a (.createUploadBack m)) := by
  unfold QwebFiles.createUploadBack at hq
  rw [if_pos hm] at hq
  obtain ⟨⟨okOpen, fc⟩, hopen, hq⟩ := bind_eq_ok.1 hq
  obtain ⟨s, hs, hq⟩ := bind_eq_ok.1 hq
  have hfst : okOpen = true ↔ q.fsSwap.mapSend m.id = none ∧
      (∃ data ioError, a.read = .file data ioError) ∧ (q.fsSwap.mapChannel q.idChannel).isSome := by
    rcases FilesChannel.openFileSendChannel_eq q.fsSwap q.idChannel m.id m.absFile a.read with
      ⟨-, -, herr⟩ | ⟨fc', hok, -⟩
    · rw [herr] at hopen
      cases hopen
    · rw [hok, Except.ok.injEq, Prod.mk.injEq] at hopen
      rw [← hopen.1, Registry.openAt_fst, isSome_sendEntry]
      simp [FilesChannel.sendSide]
  have hnote : ∃ new, ({ q with fsSwap := fc }.noteOpened okOpen m.id a.read).log = q.log ++ new := by
    unfold QwebFiles.noteOpened
    split
    · exact ⟨_, rfl⟩
    · exact ⟨[], (List.append_nil _).symm⟩
  obtain ⟨new, hnew⟩ := hnote
  cases hq
  refine ⟨new ++ [.sent (setFilesJson s)
    (a.sends ({ q with fsSwap := fc }.noteOpened okOpen m.id a.read).sends)], okOpen, ?_, ?_⟩
  · rw [← List.append_assoc, ← List.append_assoc, ← hnew]
    rfl
  · rw [← Bool.not_eq_true, hfst]
    constructor
    · intro h
      exact ⟨m, rfl, fun _ => h⟩
    · rintro ⟨m', hm', h⟩
      cases hm'
      exact h hm

/-! ## What a frame leads to -/

/-- Observations of another message run no slot. -/
theorem slots_other {x : QwebAc} {ev : FilesEv} (h : Observed m ev) (hm : K.finishes m = false) :
    QwebAc.slots J a K x ev = .ok x := by
  cases K <;> cases h <;> first | rfl | exact absurd hm (by simp [IconTransfer.finishes])

theorem foldlM_slots_other {x : QwebAc} {new : List FilesEv} (h : ∀ ev ∈ new, Observed m ev)
    (hm : K.finishes m = false) : new.foldlM (QwebAc.slots J a K) x = .ok x := by
  induction new with
  | nil => rfl
  | cons ev new ih =>
    obtain ⟨hev, hnew⟩ := List.forall_mem_cons.1 h
    rw [List.foldlM_cons, slots_other hev hm]
    exact ih hnew

/-- The finish reply is signalled once. -/
theorem finishes_signal (hm : K.finishes m = true) (hq : q.onMsg J fuel a m = .ok q') :
    ∃ new ok, q'.log = q.log ++ new ∧
      ∀ x, new.foldlM (QwebAc.slots J a K) x = .ok (x.onFinish ok) := by
  cases K with
  | download =>
    cases m with
    | finishDownloadBack id ok =>
      obtain ⟨s, hs, hq⟩ := bind_eq_ok.1 hq
      cases hq
      exact ⟨_, q.fsSwap.checkLengthRecv id && ok, List.append_assoc _ _ _, fun x => rfl⟩
    | _ => cases hm
  | upload =>
    cases m with
    | finishUploadBack id ok =>
      cases hq
      exact ⟨_, ok, rfl, fun x => rfl⟩
    | _ => cases hm

/-- **The user is called back once for a finish reply**, and for no other frame. -/
theorem QwebAc.step_message {x x' : QwebAc} {msg : Str}
    (h : QwebAc.Step J fuel K x (.message msg, a) x') :
    x'.calls.length = x.calls.length +
      if K.finishes (eventMsg J (.message msg, a)) then 1 else 0 := by
  obtain ⟨q, hq, hslots⟩ := bind_eq_ok.1 h
  simp only [QwebFiles.handle, QwebFiles.slMessage_eq] at hq
  obtain ⟨m, hm, hq⟩ := bind_eq_ok.1 hq
  rw [eventMsg_message hm]
  cases hfin : K.finishes m with
  | true =>
    obtain ⟨new, ok, hlog, hnew⟩ := finishes_signal hfin hq
    rw [hlog, List.drop_left, hnew] at hslots
    rw [← Except.ok.inj hslots]
    exact List.length_append
  | false =>
    obtain ⟨new, hlog, hnew⟩ := (handled_onMsg hq).added
    rw [hlog, List.drop_left, foldlM_slots_other hnew hfin] at hslots
    rw [← Except.ok.inj hslots]
    rfl

/-! ## Runs -/

theorem QwebAc.request_calls {x x' : QwebAc} {ok : Bool} (h : x.request J a K = .ok (ok, x')) :
    x'.calls = x.calls := by
  cases K <;>
  · obtain ⟨r, -, hr⟩ := map_eq_ok.1 h
    cases hr
    rfl

/-- When the connection opens, the request is made. -/
theorem QwebAc.handle_opened (x : QwebAc) (c : Int64) :
    x.handle J fuel K (.opened c, a) = (x.opened c).onOpen J a K := by
  have hnew : (x.opened c).client.log.drop x.client.log.length = [.snOpen] := List.drop_left
  have hhandle : x.handle J fuel K (.opened c, a) =
      ((x.opened c).client.log.drop x.client.log.length).foldlM (slots J a K) (x.opened c) := rfl
  simp only [hhandle, hnew, List.foldlM_cons, List.foldlM_nil]
  cases K <;> exact bind_pure _

/-- The calls of a run are its finish replies. -/
theorem calls_of_run {x₁ x : QwebAc} {es : List FilesEvent} (h : Run (QwebAc.Step J fuel K) x₁ es x)
    (hmsg : ∀ e ∈ es, ∃ msg, e.1 = .message msg) :
    x.calls.length = x₁.calls.length + es.countP fun e => K.finishes (eventMsg J e) := by
  induction h with
  | start => rfl
  | @next es s s' e _ hs ih =>
    obtain ⟨hes, he⟩ := List.forall_mem_append.1 hmsg
    obtain ⟨msg, hmsg⟩ := he e (List.mem_singleton_self e)
    obtain ⟨input, a⟩ := e
    obtain rfl : input = .message msg := hmsg
    have hcount := QwebAc.step_message hs
    rw [ih hes] at hcount
    rw [hcount, List.countP_append, List.countP_singleton, Nat.add_assoc]

/-- By the frames `l`, the server has ended the transfer in a way that the client
    handles: a finish reply, or a create reply that refuses or that the client
    answers with a refusal of its own. -/
def IconTransfer.Ended (K : IconTransfer) (J : JsonLib) (fuel : ℕ) (x₁ : QwebAc)
    (l : List FilesEvent) : Prop :=
  ∃ l₁ e l₂ y, l = l₁ ++ e :: l₂ ∧ Run (QwebAc.Step J fuel K) x₁ l₁ y ∧
    (K.finishes (eventMsg J e) = true ∨ K.CreateFails y.client e.2 (eventMsg J e))

/-- A create reply is no finish reply. -/
theorem finishes_of_createFails (h : K.CreateFails q a m) : K.finishes m = false := by
  cases K <;> obtain ⟨m', rfl, -⟩ := h <;> rfl

/-- **The user is called back once for every transfer that has ended, iff** the server
    sends one finish reply at most, and no create reply fails before it: of the ways in
    which a transfer ends, the slots hear of that one only, and they hear of it each
    time. -/
theorem calls_once_iff (disk : Str → Str) (account : Int64) (path : Str) (c : Int64)
    {x₁ x : QwebAc} {es : List FilesEvent}
    (hopen : QwebAc.Step J fuel K (.init disk account path) (.opened c, a) x₁)
    (hsent : ∃ x', ((QwebAc.init disk account path).opened c).request J a K = .ok (true, x'))
    (hrun : Run (QwebAc.Step J fuel K) x₁ es x)
    (hmsg : ∀ e ∈ es, ∃ msg, e.1 = .message msg) :
    (∀ l r y, es = l ++ r → Run (QwebAc.Step J fuel K) x₁ l y →
      y.calls.length ≤ 1 ∧ (K.Ended J fuel x₁ l → y.calls ≠ [])) ↔
    ((es.countP fun e => K.finishes (eventMsg J e)) ≤ 1 ∧
      ∀ l₁ e l₂ y, es = l₁ ++ e :: l₂ → Run (QwebAc.Step J fuel K) x₁ l₁ y →
        K.CreateFails y.client e.2 (eventMsg J e) →
          0 < l₁.countP fun e => K.finishes (eventMsg J e)) := by
  have hcalls : x₁.calls = [] := by
    obtain ⟨x', hrequest⟩ := hsent
    rw [QwebAc.Step, QwebAc.handle_opened, QwebAc.onOpen, hrequest] at hopen
    rw [← Except.ok.inj hopen]
    exact QwebAc.request_calls hrequest
  have hcount : ∀ {l r y}, es = l ++ r → Run (QwebAc.Step J fuel K) x₁ l y →
      y.calls.length = l.countP fun e => K.finishes (eventMsg J e) := by
    intro l r y hes hl
    rw [calls_of_run hl fun e he => hmsg e (hes ▸ List.mem_append_left r he), hcalls]
    exact Nat.zero_add _
  constructor
  · intro h
    refine ⟨?_, fun l₁ e l₂ y hes hl₁ hfail => ?_⟩
    · have hend := (h es [] x (List.append_nil es).symm hrun).1
      rwa [hcount (List.append_nil es).symm hrun] at hend
    · -- the create reply has been handled: what happened before it called the user back
      have hes' : es = (l₁ ++ [e]) ++ l₂ := by rw [hes, List.append_assoc]; rfl
      obtain ⟨y', hy', -⟩ := Run.split (Eq.subst (motive := fun es => Run _ x₁ es x) hes' hrun)
      have hcalled := (h _ _ y' hes' hy').2 ⟨l₁, e, [], y, rfl, hl₁, .inr hfail⟩
      rw [← List.length_pos_iff, hcount hes' hy', List.countP_append, List.countP_singleton,
        finishes_of_createFails hfail] at hcalled
      exact hcalled
  · rintro ⟨hfinish, hfails⟩ l r y hes hl
    have hy := hcount hes hl
    refine ⟨?_, ?_⟩
    · rw [hes, List.countP_append] at hfinish
      omega
    · rintro ⟨l₁, e, l₂, y₁, hsplit, hl₁, hended⟩
      rw [← List.length_pos_iff, hy, hsplit, List.countP_append, List.countP_cons]
      rcases hended with hfin | hfail
      · rw [if_pos hfin]
        omega
      · have hbefore := hfails l₁ e (l₂ ++ r) y₁
          (by rw [hes, hsplit, List.append_assoc]; rfl) hl₁ hfail
        omega

end

/-! ## A download of an icon -/

/-- A `files_create_download_back` that refuses. -/
def refusalFrame : Str := setFilesJson (lit
  "\x7b\"extend\":\x7b\"abs_path\":\"a\",\"id\":7,\"length_file\":2,\"ok\":false,\"save_path\":\"f\"\x7d,\"head\":\"SMCHPRO\",\"stream\":\"sc\",\"type\":\"files_create_download_back\",\"version\":\"1\"\x7d")

theorem readFrame_refusalFrame : readFrame Json.jsonText refusalFrame =
    .ok (.createDownloadBack ⟨7, 2, lit "a", lit "f", false⟩) := by
  rw [refusalFrame, lit_ofList rfl]
  decide +kernel

/-- The request for the icon of account 5 is sent. -/
theorem exists_requested : ∃ x₁,
    QwebAc.Step Json.jsonText 10 .download (.init (fun _ => []) 5 []) (.opened 1, answersFile) x₁ ∧
    (∃ x', ((QwebAc.init (fun _ => []) 5 []).opened 1).request Json.jsonText answersFile .download =
      .ok (true, x')) ∧ x₁.calls = [] := by
  obtain ⟨t, ht⟩ : ∃ t, setFilesCreateDownload Json.jsonText (iconPath 5) (iconPath 5) = .ok t := by
    have hpath : Json.validUtf8 (iconPath 5) = true := by decide +kernel
    have habs : Json.validUtf8 (lit "abs_path") = true := by decide +kernel
    have hsave : Json.validUtf8 (lit "save_path") = true := by decide +kernel
    exact csSet_utf8 (by decide +kernel) (by decide +kernel) (by simp [Json.Plain])
      (by simp [habs, hsave, hpath, Json.Utf8])
  obtain ⟨x', hx'⟩ : ∃ x', ((QwebAc.init (fun _ => []) 5 []).opened 1).request Json.jsonText
      answersFile .download = .ok (true, x') := by
    simp only [QwebAc.request, downloadIcon, QwebFiles.downloadFile]
    rw [show ((QwebAc.init (fun _ => []) 5 []).opened 1).account = 5 from rfl, ht]
    exact ⟨_, rfl⟩
  refine ⟨x', ?_, ⟨x', hx'⟩, QwebAc.request_calls hx'⟩
  rw [QwebAc.Step, QwebAc.handle_opened, QwebAc.onOpen, hx']
  rfl

theorem step_refusalFrame (x : QwebAc) : ∃ x',
    QwebAc.Step Json.jsonText 10 .download x (.message refusalFrame, answersFile) x' ∧
    x'.calls = x.calls := by
  have hq : ({ x.client with sends := 0 }).slMessage Json.jsonText 10 answersFile refusalFrame =
      .ok { x.client with sends := 0 } := by
    rw [QwebFiles.slMessage_eq, readFrame_refusalFrame]
    rfl
  refine ⟨{ x with client := { x.client with sends := 0 } }, ?_, rfl⟩
  simp only [QwebAc.Step, QwebAc.handle, QwebFiles.handle, hq, ok_bind, List.drop_length]
  rfl

theorem step_finishDownloadFrame (x : QwebAc) : ∃ x',
    QwebAc.Step Json.jsonText 10 .download x (.message finishDownloadFrame, answersFile) x' := by
  obtain ⟨t, ht⟩ := exists_setFilesFinishDownload (J := Json.jsonText) 7 true
  obtain ⟨q', hm⟩ : ∃ q', ({ x.client with sends := 0 }).onMsg Json.jsonText 10 answersFile
      (.finishDownloadBack 7 true) = .ok q' := by
    simp only [QwebFiles.onMsg, QwebFiles.finishDownloadBack, ht, ok_bind]
    exact ⟨_, rfl⟩
  have hq : x.client.handle Json.jsonText 10 (.message finishDownloadFrame, answersFile) = .ok q' := by
    simp only [QwebFiles.handle, QwebFiles.slMessage_eq, readFrame_finishDownloadFrame, ok_bind]
    exact hm
  obtain ⟨new, ok, hlog, hnew⟩ := finishes_signal (K := .download) rfl hm
  refine ⟨QwebAc.onFinish { x with client := q' } ok, ?_⟩
  rw [QwebAc.Step, QwebAc.handle, hq, ok_bind, hlog, List.drop_left, hnew]

/-- The download of an icon that the server ends with one reply. -/
theorem calls_once_iff_icon : ∃ x₁ x,
    QwebAc.Step Json.jsonText 10 .download (.init (fun _ => []) 5 []) (.opened 1, answersFile) x₁ ∧
    Run (QwebAc.Step Json.jsonText 10 .download) x₁ [(.message finishDownloadFrame, answersFile)] x ∧
    ((∀ l r y, [(.message finishDownloadFrame, answersFile)] = l ++ r →
      Run (QwebAc.Step Json.jsonText 10 .download) x₁ l y →
        y.calls.length ≤ 1 ∧ (IconTransfer.download.Ended Json.jsonText 10 x₁ l → y.calls ≠ [])) ↔
    (([(.message finishDownloadFrame, answersFile)].countP fun e =>
        IconTransfer.download.finishes (eventMsg Json.jsonText e)) ≤ 1 ∧
      ∀ l₁ e l₂ y, [(.message finishDownloadFrame, answersFile)] = l₁ ++ e :: l₂ →
        Run (QwebAc.Step Json.jsonText 10 .download) x₁ l₁ y →
          IconTransfer.download.CreateFails y.client e.2 (eventMsg Json.jsonText e) →
            0 < l₁.countP fun e => IconTransfer.download.finishes (eventMsg Json.jsonText e))) := by
  obtain ⟨x₁, hopen, hsent, -⟩ := exists_requested
  obtain ⟨x, hx⟩ := step_finishDownloadFrame x₁
  have hrun : Run (QwebAc.Step Json.jsonText 10 .download) x₁
      ([] ++ [(.message finishDownloadFrame, answersFile)]) x := .next .start hx
  refine ⟨x₁, x, hopen, hrun, calls_once_iff (fun _ => []) 5 [] 1 hopen hsent hrun fun e he => ?_⟩
  rw [List.mem_singleton.1 he]
  exact ⟨_, rfl⟩

/-- The server refuses the download: the transfer has ended, and the user is not
    called back. -/
theorem refusal_not_called : ∃ x₁ x,
    QwebAc.Step Json.jsonText 10 .download (.init (fun _ => []) 5 []) (.opened 1, answersFile) x₁ ∧
    (∃ x', ((QwebAc.init (fun _ => []) 5 []).opened 1).request Json.jsonText answersFile .download =
      .ok (true, x')) ∧
    Run (QwebAc.Step Json.jsonText 10 .download) x₁ [(.message refusalFrame, answersFile)] x ∧
    IconTransfer.download.Ended Json.jsonText 10 x₁ [(.message refusalFrame, answersFile)] ∧
    x.calls = [] := by
  obtain ⟨x₁, hopen, hsent, hcalls⟩ := exists_requested
  obtain ⟨x, hx, hsame⟩ := step_refusalFrame x₁
  refine ⟨x₁, x, hopen, hsent, .next .start hx, ?_, hsame.trans hcalls⟩
  refine ⟨[], _, [], x₁, rfl, .start, .inr ?_⟩
  rw [eventMsg_message readFrame_refusalFrame]
  exact ⟨_, rfl, fun hok => by cases hok⟩

end SimpleChat
