/-
  qweb_files: a file on its way from one client to another.

  * `Swap`: the client that uploads a file and the one that downloads it, each with its
    events, in any order;
  * `ServerOk`: what is relied on of the server between them: it names an upload once,
    announces the length of its file, and forwards what gets through to it in order, in
    frames of any size; the receiver can write, and flush at the end;
  * `Swapped`: at any time, what has arrived is in order, and part of what was passed;
  * `reported_is_uploaded`: so whatever gets lost on the way, and whatever else the
    clients transfer, a download is reported as a success exactly when it ends with the
    file that was uploaded.
-/
import SimpleChat.Leftovers
import SimpleChat.Uploads

namespace SimpleChat

open Lib

/-! ## An upload that goes on -/

/-- `u'` is the upload `u` after some chunks more. -/
structure Upload.Extends (u u' : Upload) : Prop where
  contents_eq : u'.contents = u.contents
  passed_prefix : u.passed <+: u'.passed

theorem Upload.Extends.refl (u : Upload) : u.Extends u := ⟨rfl, List.prefix_rfl⟩

theorem Upload.Extends.pass {u u' : Upload} (h : u.Extends u') (data : Str) (ok : Bool) :
    u.Extends (u'.pass data ok) := by
  refine ⟨h.contents_eq, h.passed_prefix.trans ?_⟩
  rw [Upload.passed_pass]
  exact List.prefix_append _ _

section
variable {J : JsonLib} {fuel : ℕ} {up down : Int64}

/-- **An upload goes on** in an event that does not open it. -/
theorem uploadOf_extends {e : FilesEvent} {log new : List FilesEv} {u : Upload}
    (hu : uploadOf up log = some u) (hnew : ∀ ev ∈ new, ObservedAt J e ev)
    (hopens : ∀ m, eventMsg J e = .createUploadBack m → m.id ≠ up) :
    ∃ u', uploadOf up (log ++ new) = some u' ∧ u.Extends u' := by
  induction new using List.reverseRecOn with
  | nil => exact ⟨u, by rw [List.append_nil, hu], .refl u⟩
  | append_singleton new ev ih =>
    obtain ⟨u', hu', hext⟩ := ih fun ev hev => hnew ev (List.mem_append_left _ hev)
    rw [← List.append_assoc, uploadOf_append_singleton, hu']
    rcases hnew ev (by simp) with ⟨-⟩ | ⟨-⟩ | hev
    · exact ⟨u', rfl, hext⟩
    · exact ⟨u', rfl, hext⟩
    · generalize eventMsg J e = m at hev hopens
      cases hev with
      | control => exact ⟨u', notePassed_json up _ _ _, hext⟩
      | openedSend => exact ⟨u', if_neg (hopens _ rfl), hext⟩
      | @chunk id data ok =>
        rw [notePassed_binary]
        split_ifs
        · exact ⟨u'.pass data ok, rfl, hext.pass data ok⟩
        · exact ⟨u', rfl, hext⟩
      | _ => exact ⟨u', rfl, hext⟩

/-! ## Two clients -/

/-- The client that uploads the file, and the one that downloads it. -/
structure Swap where
  sender : QwebFiles
  receiver : QwebFiles

/-- One of the clients handles an event. -/
def Swap.Step (J : JsonLib) (fuel : ℕ) (s : Swap) : FilesEvent ⊕ FilesEvent → Swap → Prop
  | .inl e, s' => QwebFiles.Step J fuel s.sender e s'.sender ∧ s'.receiver = s.receiver
  | .inr e, s' => QwebFiles.Step J fuel s.receiver e s'.receiver ∧ s'.sender = s.sender

/-- What the receiver relies on: the download `down` is of the file of the upload `up`,
    and its own writes succeed. -/
structure Forwards (J : JsonLib) (up down : Int64) (s : Swap) (e : FilesEvent) : Prop
    extends DownloadOk J s.receiver e where
  /-- The length that is announced is that of the file. -/
  announces : ∀ m, eventMsg J e = .createDownloadBack m → m.id = down → m.ok = true →
    ∃ u, uploadOf up s.sender.log = some u ∧ m.lengthFile.toInt = u.contents.length
  /-- What is forwarded was passed to `send()`, and comes in order; any of it may get
      lost on the way. -/
  in_order : ∀ data len contents, eventMsg J e = .binary down data →
    inboxes s.receiver down = some (len, contents) →
      ∃ u, uploadOf up s.sender.log = some u ∧ (contents ++ data).Sublist u.passed
  /-- A file that is closed at the end is flushed. -/
  flushes : ∀ ok r, eventMsg J e = .finishDownloadBack down ok →
    s.receiver.fsSwap.mapRecv down = some r → r.spFs.pend.length ≤ e.2.closes

/-- What is relied on of the server; it gives an id to one upload. -/
def ServerOk (J : JsonLib) (up down : Int64) (s : Swap) : FilesEvent ⊕ FilesEvent → Prop
  | .inl e => ∀ m, eventMsg J e = .createUploadBack m → m.id = up → uploadOf up s.sender.log = none
  | .inr e => Forwards J up down s e

/-- The steps of the clients with such a server. -/
abbrev ServedStep (J : JsonLib) (fuel : ℕ) (up down : Int64) : Swap → FilesEvent ⊕ FilesEvent → Swap → Prop :=
  Guarded (ServerOk J up down) (Swap.Step J fuel)

/-- At any time: what has arrived of the file is in order, and part of what was passed. -/
structure Swapped (up down : Int64) (s : Swap) : Prop where
  inOrder : InOrder up s.sender
  receiving : Receiving s.receiver
  arrived : ∀ len contents, inboxes s.receiver down = some (len, contents) →
    ∃ u, uploadOf up s.sender.log = some u ∧ len = u.contents.length ∧ contents.Sublist u.passed

variable {s s' : Swap} {e : FilesEvent}

theorem swapped_init (up down : Int64) (disk disk' : Str → Str) :
    Swapped up down ⟨.init disk, .init disk'⟩ :=
  ⟨inOrder_init up disk, receiving_init disk', fun _ _ h => by cases h⟩

/-- What has arrived is in order, and nothing else is in it. -/
theorem Swapped.sublist (h : Swapped up down s) {len : ℤ} {contents : Str}
    (hin : inboxes s.receiver down = some (len, contents)) :
    ∃ u, uploadOf up s.sender.log = some u ∧ len = u.contents.length ∧ contents.Sublist u.contents := by
  obtain ⟨u, hu, hlen, hsub⟩ := h.arrived len contents hin
  exact ⟨u, hu, hlen, hsub.trans (h.inOrder.within u hu).sublist⟩

/-- The sender may pass more chunks. -/
theorem Swapped.send (h : Swapped up down s) (hok : ServerOk J up down s (.inl e))
    (hs : Swap.Step J fuel s (.inl e) s') : Swapped up down s' := by
  obtain ⟨hsender, hreceiver⟩ := hs
  obtain ⟨⟨new, hlog, hnew⟩, -⟩ := handled_handle hsender
  refine ⟨h.inOrder.handle hsender, hreceiver ▸ h.receiving, fun len contents hin => ?_⟩
  rw [hreceiver] at hin
  obtain ⟨u, hu, hlen, hsub⟩ := h.arrived len contents hin
  have hopens : ∀ m, eventMsg J e = .createUploadBack m → m.id ≠ up := by
    intro m hm hid
    rw [hok m hm hid] at hu
    cases hu
  obtain ⟨u', hu', hext⟩ := uploadOf_extends hu hnew hopens
  rw [← hlog] at hu'
  exact ⟨u', hu', by rw [hlen, hext.contents_eq], hsub.trans hext.passed_prefix.sublist⟩

/-- The receiver may get more of them. -/
theorem Swapped.recv (h : Swapped up down s) (hok : ServerOk J up down s (.inr e))
    (hs : Swap.Step J fuel s (.inr e) s') : Swapped up down s' := by
  obtain ⟨hreceiver, hsender⟩ := hs
  obtain ⟨hreceiving, ⟨opens, -, hin⟩, -⟩ := receive_handle h.receiving hok.toDownloadOk hreceiver
  refine ⟨hsender ▸ h.inOrder, hreceiving, fun len contents hdown => ?_⟩
  rw [hin] at hdown
  rw [hsender]
  cases hm : eventMsg J e with
  | createDownloadBack m =>
    rw [hm] at hdown
    by_cases hcreate : m.ok = true ∧ m.id = down
    · obtain ⟨hmok, rfl⟩ := hcreate
      obtain ⟨u, hu, hlen⟩ := hok.announces m hm rfl hmok
      cases opens with
      | false => simp [receive, hmok] at hdown
      | true =>
        simp only [receive, hmok, if_true, Function.update_self, Option.some.injEq, Prod.mk.injEq] at hdown
        obtain ⟨rfl, rfl⟩ := hdown
        exact ⟨u, hu, hlen, List.nil_sublist _⟩
    · refine h.arrived len contents ?_
      rw [← hdown, receive]
      by_cases hmok : m.ok = true
      · rw [if_pos hmok, Function.update_of_ne fun hid => hcreate ⟨hmok, hid.symm⟩]
      · rw [if_neg hmok]
  | binary id data =>
    rw [hm, receive] at hdown
    by_cases hid : id = down
    · subst hid
      rw [Function.update_self] at hdown
      obtain ⟨⟨len', before⟩, hbefore, hx⟩ := Option.map_eq_some_iff.1 hdown
      obtain ⟨rfl, rfl⟩ := Prod.mk.inj hx
      obtain ⟨u, hu, hlen, -⟩ := h.arrived _ _ hbefore
      obtain ⟨u', hu', hsub⟩ := hok.in_order data _ _ hm hbefore
      obtain rfl := Option.some.inj (hu.symm.trans hu')
      exact ⟨u, hu, hlen, hsub⟩
    · rw [Function.update_of_ne (Ne.symm hid)] at hdown
      exact h.arrived len contents hdown
  | finishDownloadBack id ok =>
    rw [hm, receive] at hdown
    by_cases hid : id = down
    · subst hid
      rw [Function.update_self] at hdown
      cases hdown
    · rw [Function.update_of_ne (Ne.symm hid)] at hdown
      exact h.arrived len contents hdown
  | _ =>
    rw [hm] at hdown
    exact h.arrived len contents hdown

theorem swapped_of_run {disk disk' : Str → Str} {es : List (FilesEvent ⊕ FilesEvent)}
    (h : Run (ServedStep J fuel up down) ⟨.init disk, .init disk'⟩ es s) :
    Swapped up down s := by
  refine h.invariant (swapped_init up down disk disk') fun s e s' hI hs => ?_
  cases e with
  | inl e => exact hI.send hs.1 hs.2
  | inr e => exact hI.recv hs.1 hs.2

/-- The end of a download flushes its file. -/
theorem disk_finishDownload {q q' : QwebFiles} {id : Int64} {ok : Bool}
    (hm : eventMsg J e = .finishDownloadBack id ok) (hq : QwebFiles.Step J fuel q e q') :
    q'.disk = q.fsSwap.flushFileRecv q.disk id e.2.closes := by
  rw [disk_handle hq]
  simp only [diskStep, hm]

/-- **What is reported is what was uploaded.**  In every run of the two clients, an open
    download has received, in order and without repetition, bytes of the file that was
    uploaded; and an event reports the success of the download if and only if it ends the
    download, and its file is then the one that was uploaded. -/
theorem reported_is_uploaded {disk disk' : Str → Str} {es : List (FilesEvent ⊕ FilesEvent)}
    (h : Run (ServedStep J fuel up down) ⟨.init disk, .init disk'⟩ es s) :
    (∀ r, s.receiver.fsSwap.mapRecv down = some r → ∃ u, uploadOf up s.sender.log = some u ∧
      (r.spFs.contents s.receiver.disk).Sublist u.contents) ∧
    ∀ e s' new, ServedStep J fuel up down s (.inr e) s' →
      s'.receiver.log = s.receiver.log ++ new →
        (.snFinishDownload true down ∈ new ↔ eventMsg J e = .finishDownloadBack down true ∧
          ∃ u r, uploadOf up s.sender.log = some u ∧ s.receiver.fsSwap.mapRecv down = some r ∧
            s'.receiver.disk r.spFs.file = u.contents) := by
  have hswapped := swapped_of_run h
  have hinbox : ∀ r, s.receiver.fsSwap.mapRecv down = some r →
      inboxes s.receiver down = some (r.lengthMax, r.spFs.contents s.receiver.disk) := by
    intro r hr
    rw [inboxes, hr]
    rfl
  refine ⟨fun r hr => ?_, fun e s' new hs hlog => ?_⟩
  · obtain ⟨u, hu, -, hsub⟩ := hswapped.sublist (hinbox r hr)
    exact ⟨u, hu, hsub⟩
  obtain ⟨hok, hreceiver, -⟩ := hs
  obtain ⟨new', hlog', hfinished⟩ :=
    (receive_handle hswapped.receiving hok.toDownloadOk hreceiver).finished
  obtain rfl := List.append_cancel_left (hlog.symm.trans hlog')
  rw [hfinished down]
  refine and_congr_right fun hm => ?_
  -- when the file is closed, all that was received is in it
  have hclosed : ∀ r, s.receiver.fsSwap.mapRecv down = some r →
      s'.receiver.disk r.spFs.file = r.spFs.contents s.receiver.disk := by
    intro r hr
    rw [disk_finishDownload hm hreceiver, FilesChannel.flushFileRecv, hr]
    exact (hswapped.receiving.held down r hr).atEnd.close (hok.flushes true r hm hr)
  constructor
  · rintro ⟨contents, hin⟩
    obtain ⟨u, hu, hlen, hsub⟩ := hswapped.sublist hin
    obtain ⟨r, hr, hx⟩ := Option.map_eq_some_iff.1 hin
    -- nothing is missing, since nothing was invented and the length is right
    have hall : contents = u.contents := hsub.eq_of_length (Int.ofNat.inj hlen)
    exact ⟨u, r, hu, hr, (hclosed r hr).trans ((Prod.mk.inj hx).2.trans hall)⟩
  · rintro ⟨u, r, hu, hr, hdisk⟩
    obtain ⟨u', hu', hlen, -⟩ := hswapped.sublist (hinbox r hr)
    obtain rfl := Option.some.inj (hu.symm.trans hu')
    exact ⟨u.contents, by rw [hinbox r hr, hlen, ← hclosed r hr, hdisk]⟩

end

/-! ## A file of two bytes -/

/-- The data of the upload is sent in one frame. -/
theorem exists_beginUpload_sent {q : QwebFiles}
    (hid : q.fsSwap.mapSend 7 = some ⟨0, 0, 2, lit "a", .opened (lit "hi") none⟩) :
    ∃ q' t, QwebFiles.Step Json.jsonText 10 q (.message beginUploadBackFrame, answersHi) q' ∧
      q'.log = q.log ++ [.sent (setFilesBinary 7 (lit "hi")) true] ++ [.snProgUpload 7 100] ++
        [.sent (setFilesJson t) true] := by
  obtain ⟨t, ht⟩ := exists_setFilesFinishUpload Json.jsonText 7 true
  have hbuf : ((Ifstream.opened (lit "hi") none).read 1024).2 = lit "hi" := by decide +kernel
  have heof : ((Ifstream.opened (lit "hi") none).read 1024).1.eof = true := by decide +kernel
  have hprog : percent (0 + ((lit "hi").length : ℤ)) 2 = .ok 100 := by decide +kernel
  obtain ⟨sp, hround, hend⟩ : ∃ sp, sendRound (QwebFiles.funcSend answersHi 7) (QwebFiles.funcProg 7)
      ⟨0, 0, 2, lit "a", .opened (lit "hi") none⟩ ⟨q.log, 0⟩ =
        .ok (true, sp, ⟨q.log ++ [.sent (setFilesBinary 7 (lit "hi")) true] ++ [.snProgUpload 7 100], 1⟩) ∧
        sp.spFs.eof = true := by
    simp only [sendRound, hbuf, hprog]
    exact ⟨_, rfl, heof⟩
  have hloop : addDataSendLoop (QwebFiles.funcSend answersHi 7) (QwebFiles.funcProg 7) 10
      ⟨0, 0, 2, lit "a", .opened (lit "hi") none⟩ ⟨q.log, 0⟩ = .ok (true, sp,
        ⟨q.log ++ [.sent (setFilesBinary 7 (lit "hi")) true] ++ [.snProgUpload 7 100], 1⟩) := by
    rw [addDataSendLoop, if_neg (by decide)]
    simp only [hround, if_true]
    rw [addDataSendLoop, if_pos hend]
  simp only [QwebFiles.Step, QwebFiles.handle, QwebFiles.slMessage_eq,
    readFrame_beginUploadBackFrame, ok_bind, QwebFiles.onMsg, QwebFiles.beginUploadBack,
    addDataSend, hid, hloop, Except.map, if_true, ht]
  exact ⟨_, t, rfl, rfl⟩

/-- The sender after the upload. -/
theorem exists_uploaded_hi : ∃ q u,
    Run (ServedStep Json.jsonText 10 7 7) ⟨.init fun _ => [], .init fun _ => []⟩
      [.inl (.opened 1, answersHi), .inl (.message createUploadBackFrame, answersHi),
        .inl (.message beginUploadBackFrame, answersHi)] ⟨q, .init fun _ => []⟩ ∧
    uploadOf 7 q.log = some u ∧ u.contents = lit "hi" ∧ u.passed = lit "hi" := by
  obtain ⟨q₁, hcreate, hid⟩ := exists_createUpload_hi
  obtain ⟨q, t, hbegin, hlog⟩ := exists_beginUpload_sent hid
  have hopened : Run (QwebFiles.Step Json.jsonText 10) (.init fun _ => []) [(.opened 1, answersHi)]
      (.slOpen (.init fun _ => []) 1) := Run.next .start rfl
  obtain ⟨u, hu, hcontents, hpassed⟩ := (inOrder_of_run (hopened.next hcreate) 7).opened _ hid
  have hopenOk : ServerOk Json.jsonText 7 7 ⟨.init fun _ => [], .init fun _ => []⟩
      (.inl (.opened 1, answersHi)) := fun m hm _ => by cases hm
  have hcreateOk : ServerOk Json.jsonText 7 7 ⟨.slOpen (.init fun _ => []) 1, .init fun _ => []⟩
      (.inl (.message createUploadBackFrame, answersHi)) := fun _ _ _ => rfl
  have hbeginOk : ServerOk Json.jsonText 7 7 ⟨q₁, .init fun _ => []⟩
      (.inl (.message beginUploadBackFrame, answersHi)) := by
    intro m hm
    rw [eventMsg_message readFrame_beginUploadBackFrame] at hm
    cases hm
  have hstep₁ : ServedStep Json.jsonText 10 7 7 ⟨.init fun _ => [], .init fun _ => []⟩
      (.inl (.opened 1, answersHi)) ⟨.slOpen (.init fun _ => []) 1, .init fun _ => []⟩ := ⟨hopenOk, rfl, rfl⟩
  have hstep₂ : ServedStep Json.jsonText 10 7 7 ⟨.slOpen (.init fun _ => []) 1, .init fun _ => []⟩
      (.inl (.message createUploadBackFrame, answersHi)) ⟨q₁, .init fun _ => []⟩ := ⟨hcreateOk, hcreate, rfl⟩
  have hstep₃ : ServedStep Json.jsonText 10 7 7 ⟨q₁, .init fun _ => []⟩
      (.inl (.message beginUploadBackFrame, answersHi)) ⟨q, .init fun _ => []⟩ := ⟨hbeginOk, hbegin, rfl⟩
  refine ⟨q, u.pass (lit "hi") true, ((Run.start.next hstep₁).next hstep₂).next hstep₃, ?_, hcontents, ?_⟩
  · rw [hlog, uploadOf_append_singleton, notePassed_json, uploadOf_append_singleton,
      uploadOf_append_singleton, notePassed_binary, if_pos rfl, hu]
    rfl
  · rw [Upload.passed_pass, hpassed]
    rfl

/-- The file has arrived, and this is reported. -/
theorem reported_is_uploaded_hi : ∃ s s' new es,
    Run (ServedStep Json.jsonText 10 7 7)
      ⟨.init fun _ => [], .init fun _ => []⟩ es s ∧
    ServedStep Json.jsonText 10 7 7 s
      (.inr (.message finishDownloadFrame, answersFile)) s' ∧
    s'.receiver.log = s.receiver.log ++ new ∧ .snFinishDownload true 7 ∈ new := by
  obtain ⟨q, u, hsent, hu, hcontents, hpassed⟩ := exists_uploaded_hi
  obtain ⟨q₁, q₂, q₃, r, new, hcreate, hdata, hfinish, -, -, hin, hr, hfs, -, -, -, hdisk, hlog⟩ :=
    exists_downloaded_hi
  have hopenOk : ServerOk Json.jsonText 7 7 ⟨q, .init fun _ => []⟩ (.inr (.opened 1, answersFile)) :=
    ⟨⟨⟨rfl, fun _ h => by cases h⟩, fun _ _ h => by cases h⟩, (fun _ h => by cases h),
      (fun _ _ _ h => by cases h), fun _ _ h => by cases h⟩
  have hcreateOk : ServerOk Json.jsonText 7 7 ⟨q, connected⟩
      (.inr (.message (createDownloadBackFrame true), answersFile)) := by
    refine ⟨⟨writesOk_createDownloadBackFrame true, fun _ _ _ _ _ _ _ h => by cases h⟩, fun m hm _ _ => ?_,
      fun _ _ _ hm => ?_, fun _ _ hm => ?_⟩
    · rw [eventMsg_createDownloadBackFrame] at hm
      cases hm
      exact ⟨u, hu, by rw [hcontents]; rfl⟩
    · rw [eventMsg_createDownloadBackFrame] at hm
      cases hm
    · rw [eventMsg_createDownloadBackFrame] at hm
      cases hm
  have hdataOk : ServerOk Json.jsonText 7 7 ⟨q, q₁⟩
      (.inr (.message (setFilesBinary 7 (lit "hi")), answersFile)) := by
    refine ⟨⟨writesOk_setFilesBinary _ _ _ rfl, fun _ _ hm => ?_⟩, fun _ hm _ _ => ?_,
      fun data len contents hm hin' => ?_, fun _ _ hm => ?_⟩
    · rw [eventMsg_setFilesBinary] at hm
      cases hm
    · rw [eventMsg_setFilesBinary] at hm
      cases hm
    · rw [eventMsg_setFilesBinary] at hm
      cases hm
      obtain ⟨-, rfl⟩ := Prod.mk.inj (Option.some.inj (hin'.symm.trans hin))
      exact ⟨u, hu, by rw [hpassed, List.nil_append]⟩
    · rw [eventMsg_setFilesBinary] at hm
      cases hm
  have hmsg := eventMsg_finishDownloadFrame answersFile
  have hfinishOk : ServerOk Json.jsonText 7 7 ⟨q, q₂⟩ (.inr (.message finishDownloadFrame, answersFile)) := by
    refine ⟨⟨⟨rfl, fun _ hm => ?_⟩, fun _ _ hm => ?_⟩, fun _ hm _ _ => ?_, fun _ _ _ hm => ?_,
      fun _ r' _ hr' => ?_⟩
    case refine_5 =>
      obtain rfl := Option.some.inj (hr.symm.trans hr')
      rw [hfs]
      decide
    all_goals
      rw [hmsg] at hm
      cases hm
  have hstep₁ : ServedStep Json.jsonText 10 7 7 ⟨q, .init fun _ => []⟩ (.inr (.opened 1, answersFile))
      ⟨q, connected⟩ := ⟨hopenOk, rfl, rfl⟩
  have hstep₂ : ServedStep Json.jsonText 10 7 7 ⟨q, connected⟩
      (.inr (.message (createDownloadBackFrame true), answersFile)) ⟨q, q₁⟩ := ⟨hcreateOk, hcreate, rfl⟩
  have hstep₃ : ServedStep Json.jsonText 10 7 7 ⟨q, q₁⟩
      (.inr (.message (setFilesBinary 7 (lit "hi")), answersFile)) ⟨q, q₂⟩ := ⟨hdataOk, hdata, rfl⟩
  have hstep : ServedStep Json.jsonText 10 7 7 ⟨q, q₂⟩ (.inr (.message finishDownloadFrame, answersFile))
      ⟨q, q₃⟩ := ⟨hfinishOk, hfinish, rfl⟩
  have hrun := ((hsent.next hstep₁).next hstep₂).next hstep₃
  have hwritten : q₃.disk r.spFs.file = u.contents := by
    rw [hfs, hdisk, hcontents]
  have hiff := (reported_is_uploaded hrun).2 _ _ new hstep hlog
  exact ⟨⟨q, q₂⟩, ⟨q, q₃⟩, new, _, hrun, hstep, hlog, hiff.2 ⟨hmsg, u, r, hu, hr, hwritten⟩⟩

end SimpleChat
