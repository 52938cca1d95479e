/-
  qweb_files: the flow control of uploads.

  The server grants an upload one window after the other (`files_begin_upload_back`);
  the client stops when the count of bytes is a multiple of the window, and asks for the
  next grant or reports the end.

  * `payloads`: the bytes of an upload among the observations;
  * `Window`: what holds during a grant: the reads stand at multiples of 1024 in the
    window, so that they meet its end;
  * `Flowing`: what holds between two grants; `flowing_grant`: each grant sends one
    window;
  * `upload_flow`: so an upload ends with grant number `grantsNeeded`.
-/
import SimpleChat.Codec
import SimpleChat.FilesLog
import SimpleChat.SendFile

namespace SimpleChat

open Lib

/-! ## Payloads -/

/-- The bytes of the upload of `id` in a frame. -/
def payloadOf (id : Int64) : FilesEv → Str
  | .sent frame _ =>
    match binaryOf frame with
    | some (i, data) => if i = id then data else []
    | none => []
  | _ => []

/-- The bytes of the upload of `id` that were sent. -/
def payloads (id : Int64) (log : List FilesEv) : Str := log.flatMap (payloadOf id)

/-- The frame asks for a grant for `id`. -/
def BeginUpload (J : JsonLib) (frame : Str) (id : Int64) : Prop :=
  ∃ t, frame = setFilesJson t ∧
    checkJson J t = .ok (some (streamCs, lit "files_begin_upload")) ∧
    getFilesBeginUpload J t = .ok (some id)

/-- The window of a grant, in bytes. -/
def windowSize : ℕ := 2 * 1024 * 1024

/-- The grants that a file of `n` bytes takes: if the last window is full then one
    reads to the end of the file, and another one finds that it is there. -/
def grantsNeeded (n : ℕ) : ℕ := if n % windowSize = 0 then n / windowSize + 2 else n / windowSize + 1

theorem windowSize_eq : windowSize = 2097152 := rfl

theorem grantsNeeded_le (n : ℕ) : grantsNeeded n ≤ n / 2097152 + 2 := by
  rw [grantsNeeded, windowSize_eq]
  split_ifs <;> omega

/-- So many windows hold the file. -/
theorem le_of_grantsNeeded {n g : ℕ} (h : grantsNeeded n ≤ g) : n ≤ g * windowSize := by
  rw [grantsNeeded, windowSize_eq] at h
  rw [windowSize_eq]
  split_ifs at h <;> omega

theorem payloads_append (id : Int64) (l l' : List FilesEv) :
    payloads id (l ++ l') = payloads id l ++ payloads id l' := List.flatMap_append

theorem payloadOf_binary (id i : Int64) (data : Str) (b : Bool) :
    payloadOf id (.sent (setFilesBinary i data) b) = if i = id then data else [] := by
  simp only [payloadOf, binaryOf_setFilesBinary]

theorem payloadOf_json (id : Int64) (t : Str) (b : Bool) :
    payloadOf id (.sent (setFilesJson t) b) = [] := by
  simp only [payloadOf, binaryOf_setFilesJson]

theorem payloadOf_prog (id i : Int64) (prog : ℤ) : payloadOf id (.snProgUpload i prog) = [] := rfl

/-- Only the grants of an upload send its bytes. -/
theorem payloads_of_observed {J : JsonLib} {id : Int64} {e : FilesEvent} {new : List FilesEv}
    (hnew : ∀ ev ∈ new, ObservedAt J e ev) (hm : eventMsg J e ≠ .beginUploadBack id) :
    payloads id new = [] := by
  refine List.flatMap_eq_nil_iff.2 fun ev hev => ?_
  rcases hnew ev hev with ⟨-⟩ | ⟨-⟩ | h
  · rfl
  · rfl
  · generalize eventMsg J e = m at h hm
    cases h with
    | control => exact payloadOf_json id _ _
    | @chunk i data b =>
      rw [payloadOf_binary]
      exact if_neg fun hi => hm (by rw [hi])
    | _ => rfl

/-! ## A grant -/

section
variable {a : Answers} {id : Int64} {data : Str} {g : ℕ} {log : List FilesEv}
  {b : Bool} {sp sp' : FsSend} {io io' : Io}

/-- What holds during grant `g + 1`, which began with `log`. -/
structure Window (id : Int64) (data : Str) (g : ℕ) (log : List FilesEv) (b : Bool) (sp : FsSend)
    (io : Io) : Prop where
  sending : ∃ chunks, Sending data sp chunks
  chunks : sp.spFs.eof = false → 1024 ∣ sp.spFs.pos
  within : g * windowSize ≤ sp.spFs.pos ∧ sp.spFs.pos ≤ (g + 1) * windowSize
  below : sp.spFs.eof = true → sp.spFs.pos < (g + 1) * windowSize
  sent : ∃ new, io.log = log ++ new ∧ payloads id new = (data.take sp.spFs.pos).drop (g * windowSize)
  running : b = true → sp.spFs.eof = false ∧ sp.spFs.pos = g * windowSize ∨ ¬ windowSize ∣ sp.spFs.pos
  stopped : b = false → windowSize ∣ sp.spFs.pos ∧ (sp.spFs.pos = (g + 1) * windowSize ∨ sp.spFs.eof = true)

theorem flux_eq : QwebFiles.flux = (windowSize : ℤ) := rfl

/-- The client stops when the count is a multiple of the window. -/
theorem checkLinitFlux_eq_false {count : ℕ} (hcount : sp.countSend = count) :
    FilesChannel.checkLinitFlux true (some sp) QwebFiles.flux = false ↔ windowSize ∣ count := by
  have hdvd : sp.countSend.tmod QwebFiles.flux = 0 ↔ windowSize ∣ count := by
    rw [hcount, flux_eq, ← Int.dvd_iff_tmod_eq_zero, Int.natCast_dvd_natCast]
  simp only [FilesChannel.checkLinitFlux, hdvd]
  split_ifs with h <;> simp [h]

/-- The chunk of a round that fits into the window. -/
theorem Window.room (h : Window id data g log true sp io) (he : sp.spFs.eof = false) :
    sp.spFs.pos + 1024 ≤ (g + 1) * windowSize := by
  have hchunks := h.chunks he
  have hwithin := h.within
  rcases h.running rfl with ⟨-, hstart⟩ | hbetween <;> simp only [windowSize] at * <;> omega

/-- **A round of a grant**, all of whose frames are accepted. -/
theorem Window.round (hsends : ∀ k, a.sends k = true) (h : Window id data g log true sp io)
    (he : sp.spFs.eof = false)
    (hr : sendRound (QwebFiles.funcSend a id) (QwebFiles.funcProg id) sp io = .ok (b, sp', io')) :
    Window id data g log b sp' io' := by
  obtain ⟨chunks, hsend⟩ := h.sending
  obtain ⟨new, hlog, hsent⟩ := h.sent
  have hroom := h.room he
  have hnext := hsend.next hr he
  obtain ⟨io₁, hcb, hfs, hcount, -, -, hio⟩ := sendRound_eq hr
  obtain ⟨hbuf, heof, -⟩ := Ifstream.read_good (n := 1024) (hsend.good he) hsend.ioError
  have hpos : sp'.spFs.pos = sp.spFs.pos + (sp.spFs.read 1024).2.length := by
    rw [hfs, Ifstream.read_pos]
  have hlen : (sp.spFs.read 1024).2.length = min 1024 sp.spFs.rest.length := by
    rw [hbuf, List.length_take]
  have hend : sp'.spFs.eof = true ↔ sp.spFs.rest.length < 1024 := by
    rw [hfs, heof, decide_eq_true_iff]
  -- the chunk goes behind what was sent
  have hread := Ifstream.read_take sp.spFs 1024
  rw [Ifstream.read_data, hsend.data_eq, ← hfs] at hread
  have hle : sp.spFs.pos ≤ data.length := hsend.data_eq ▸ sp.spFs.pos_le
  have hchunk : (data.take sp.spFs.pos).drop (g * windowSize) ++ (sp.spFs.read 1024).2 =
      (data.take sp'.spFs.pos).drop (g * windowSize) := by
    rw [hread, List.drop_append_of_le_length]
    rw [List.length_take, Nat.min_eq_left hle]
    exact h.within.1
  simp only [QwebFiles.funcSend, QwebFiles.sendData, Io.send, hsends, Prod.mk.injEq] at hcb
  obtain ⟨hb, rfl⟩ := hcb
  have hflux : FilesChannel.checkLinitFlux true (some sp') QwebFiles.flux = false ↔
      windowSize ∣ sp'.spFs.pos := checkLinitFlux_eq_false hnext.count_eq
  have hb' : b = false ↔ windowSize ∣ sp'.spFs.pos := by
    rw [← hflux, ← hb]
    simp only [FilesChannel.checkLinitFlux, hcount]
  have hnew : ∃ new, io'.log = log ++ new ∧
      payloads id new = (data.take sp'.spFs.pos).drop (g * windowSize) := by
    rcases hio with rfl | ⟨prog, sp₁, rfl⟩
    · refine ⟨new ++ [.sent (setFilesBinary id (sp.spFs.read 1024).2) true], ?_, ?_⟩
      · rw [hlog, List.append_assoc]
      · rw [payloads_append, hsent, ← hchunk]
        simp [payloads, payloadOf_binary]
    · refine ⟨new ++ [.sent (setFilesBinary id (sp.spFs.read 1024).2) true,
        .snProgUpload id prog], ?_, ?_⟩
      · simp only [QwebFiles.funcProg, Io.emit, hlog, List.append_assoc, List.cons_append,
          List.nil_append]
      · rw [payloads_append, hsent, ← hchunk]
        simp [payloads, payloadOf_binary, payloadOf_prog]
  have hchunks := h.chunks he
  have hwithin := h.within
  refine ⟨⟨_, hnext⟩, fun he' => ?_, ⟨by omega, by omega⟩, fun he' => ?_, hnew, fun hbt => ?_,
    fun hbf => ⟨hb'.1 hbf, ?_⟩⟩
  · have : ¬ sp.spFs.rest.length < 1024 := fun hlt => by rw [hend.2 hlt] at he'; cases he'
    omega
  · have := hend.1 he'
    omega
  · refine Or.inr fun hdvd => ?_
    rw [hb'.2 hdvd] at hbt
    cases hbt
  · have hdvd := hb'.1 hbf
    by_cases he' : sp'.spFs.eof = true
    · exact Or.inr he'
    · have : ¬ sp.spFs.rest.length < 1024 := fun hlt => he' (hend.2 hlt)
      left
      simp only [windowSize] at *
      omega

end

/-- What holds of an upload of `data` after `g` grants. -/
structure Flowing (id : Int64) (data : Str) (g : ℕ) (sp : FsSend) : Prop where
  sending : ∃ chunks, Sending data sp chunks
  pos_eq : sp.spFs.pos = min (g * windowSize) data.length
  eof_iff : sp.spFs.eof = true ↔ data.length / windowSize < g

section
variable {a : Answers} {id : Int64} {data : Str} {g fuel : ℕ} {sp sp' : FsSend} {io io' : Io} {b : Bool}

theorem Flowing.opened (id : Int64) (data filename : Str) :
    Flowing id data 0 ⟨0, 0, data.length, filename, .opened data none⟩ :=
  ⟨⟨[], .opened data filename⟩, by simp [Ifstream.opened], by simp [Ifstream.opened]⟩

/-- Before the end of the file a grant begins at the beginning of its window. -/
theorem Flowing.begins (h : Flowing id data g sp) (he : sp.spFs.eof = false) (io : Io) :
    Window id data g io.log true sp io := by
  have hle : g * windowSize ≤ data.length := by
    have hnot : ¬ data.length / windowSize < g := fun hlt => by
      rw [h.eof_iff.2 hlt] at he
      cases he
    exact (Nat.le_div_iff_mul_le (by decide)).1 (not_lt.1 hnot)
  have hpos : sp.spFs.pos = g * windowSize := by rw [h.pos_eq, Nat.min_eq_left hle]
  have hnext : g * windowSize ≤ (g + 1) * windowSize := Nat.mul_le_mul_right _ (Nat.le_succ g)
  refine ⟨h.sending, fun _ => ?_, ⟨hpos.ge, hpos.le.trans hnext⟩, fun he' => ?_, ⟨[], by simp, ?_⟩,
    fun _ => Or.inl ⟨he, hpos⟩, fun hb => by cases hb⟩
  · rw [hpos]
    exact Dvd.dvd.mul_left (by decide) g
  · rw [he] at he'
    cases he'
  · rw [hpos, List.drop_eq_nil_of_le (by rw [List.length_take]; exact Nat.min_le_left _ _)]
    rfl

/-- The end of a grant. -/
theorem Window.flowing {log : List FilesEv} (h : Window id data g log b sp io)
    (heof : b = true → sp.spFs.eof = true) :
    Flowing id data (g + 1) sp ∧ (b = true ↔ grantsNeeded data.length ≤ g + 1) := by
  obtain ⟨chunks, hsend⟩ := h.sending
  have hle : sp.spFs.pos ≤ data.length := hsend.data_eq ▸ sp.spFs.pos_le
  have hend : sp.spFs.eof = true → sp.spFs.pos = data.length := fun he =>
    hsend.data_eq ▸ sp.spFs.eof_pos he
  have hwithin := h.within
  have hbelow := h.below
  have hpos : sp.spFs.pos = min ((g + 1) * windowSize) data.length ∧
      (sp.spFs.eof = true ↔ data.length / windowSize < g + 1) ∧
      (b = true ↔ grantsNeeded data.length ≤ g + 1) := by
    unfold grantsNeeded
    cases b with
    | true =>
      -- the end of the file within the window
      have he := heof rfl
      have hfull : ¬ windowSize ∣ sp.spFs.pos := by
        rcases h.running rfl with ⟨hf, -⟩ | hfull
        · rw [he] at hf
          cases hf
        · exact hfull
      have := hend he
      have := hbelow he
      split_ifs <;> simp only [he, true_iff, windowSize] at * <;> omega
    | false =>
      obtain ⟨hdvd, hstop⟩ := h.stopped rfl
      cases he : sp.spFs.eof with
      | true =>
        -- the end of a file that fills its windows
        have := hend he
        have := hbelow he
        split_ifs <;> simp only [true_iff, Bool.false_eq_true, false_iff, windowSize] at * <;> omega
      | false =>
        have hwhole : sp.spFs.pos = (g + 1) * windowSize := hstop.resolve_right (by rw [he]; decide)
        split_ifs <;> simp only [Bool.false_eq_true, false_iff, windowSize] at * <;> omega
  exact ⟨⟨h.sending, hpos.1, hpos.2.1⟩, hpos.2.2⟩

theorem take_append_drop_take {data : Str} {k l : ℕ} (h : k ≤ l) :
    data.take k ++ (data.take l).drop k = data.take l := by
  rw [← Nat.min_eq_left h, ← List.take_take, Nat.min_eq_left h, List.take_append_drop]

/-- **A grant sends one window of the file.** -/
theorem Flowing.grant (hdata : data ≠ []) (hfuel : data.length / 1024 < fuel)
    (hsends : ∀ k, a.sends k = true) (h : Flowing id data g sp) (io : Io) :
    ∃ b sp' io' new, addDataSendLoop (QwebFiles.funcSend a id) (QwebFiles.funcProg id) fuel sp io =
        .ok (b, sp', io') ∧ io'.log = io.log ++ new ∧ (payloads id new).length ≤ windowSize ∧
      data.take (g * windowSize) ++ payloads id new = data.take ((g + 1) * windowSize) ∧
      Flowing id data (g + 1) sp' ∧ (b = true ↔ grantsNeeded data.length ≤ g + 1) := by
  cases he : sp.spFs.eof with
  | true =>
    -- nothing is left
    have hlt := h.eof_iff.1 he
    have hloop : addDataSendLoop (QwebFiles.funcSend a id) (QwebFiles.funcProg id) fuel sp io =
        .ok (true, sp, io) := by
      unfold addDataSendLoop
      rw [if_pos he]
    have hle : data.length ≤ g * windowSize := by
      simp only [windowSize] at *
      omega
    have hnext : g * windowSize ≤ (g + 1) * windowSize := Nat.mul_le_mul_right _ (Nat.le_succ g)
    refine ⟨true, sp, io, [], hloop, by simp, Nat.zero_le _, ?_, ⟨h.sending, ?_, ?_⟩, ?_⟩
    · rw [List.take_of_length_le hle, List.take_of_length_le (hle.trans hnext)]
      exact List.append_nil data
    · rw [h.pos_eq, Nat.min_eq_right hle, Nat.min_eq_right (hle.trans hnext)]
    · simp only [he, true_iff]
      omega
    · unfold grantsNeeded
      simp only [true_iff]
      split_ifs <;> omega
  | false =>
    have hstart := h.begins he io
    have hround : ∀ (sp : FsSend) (io : Io), (∃ chunks, Sending data sp chunks) → sp.spFs.eof = false →
        ∃ b sp' io', sendRound (QwebFiles.funcSend a id) (QwebFiles.funcProg id) sp io = .ok (b, sp', io') ∧
          (∃ chunks, Sending data sp' chunks) ∧ (sp'.spFs.eof = false → roundsLeft sp' < roundsLeft sp) := by
      rintro sp io ⟨chunks, hsend⟩ he
      obtain ⟨b, sp', io', hr, hlt⟩ :=
        hsend.next_ok (QwebFiles.funcSend a id) (QwebFiles.funcProg id) io hdata he
      exact ⟨b, sp', io', hr, ⟨_, hsend.next hr he⟩, hlt⟩
    have hrounds : roundsLeft sp < fuel := by
      obtain ⟨chunks, hsend⟩ := h.sending
      have hrest := sp.spFs.rest_length
      rw [hsend.data_eq] at hrest
      unfold roundsLeft
      exact lt_of_le_of_lt (Nat.div_le_div_right (by omega)) hfuel
    obtain ⟨⟨b, sp', io'⟩, hloop⟩ := addDataSendLoop_ok (I := fun sp _ => ∃ chunks, Sending data sp chunks)
      roundsLeft hround hstart.sending fun _ => hrounds
    obtain ⟨hend, heof⟩ := addDataSendLoop_inv (fun sp io b sp' io' hI he hr => hI.round hsends he hr)
      hstart hloop
    obtain ⟨hflow, hlast⟩ := hend.flowing heof
    obtain ⟨new, hlog, hnew⟩ := hend.sent
    have hwithin := hend.within
    refine ⟨b, sp', io', new, hloop, hlog, ?_, ?_, hflow, hlast⟩
    · rw [hnew, List.length_drop, List.length_take]
      simp only [windowSize] at *
      omega
    · rw [hnew, take_append_drop_take hwithin.1, hflow.pos_eq, ← List.take_take]
      rw [List.take_of_length_le (le_refl data.length)]

end

/-! ## Runs -/

section
variable (J : JsonLib) (id : Int64)

/-- Every frame of the event is accepted; it may be a grant for `id`, but does not
    create or finish its upload. -/
structure FlowOk (e : FilesEvent) : Prop where
  sends : ∀ k, e.2.sends k = true
  other : eventMsg J e = .beginUploadBack id ∨ uploadId (eventMsg J e) ≠ some id

/-- The grants for `id` among some events. -/
def grants (es : List FilesEvent) : ℕ := es.countP fun e => eventMsg J e = .beginUploadBack id

end

section
variable {J : JsonLib} {fuel g : ℕ} {id : Int64} {data : Str} {q q' : QwebFiles}

/-- The upload of `id` in the client after `g` grants. -/
def FlowsIn (id : Int64) (data : Str) (g : ℕ) (q : QwebFiles) : Prop :=
  ∃ sp, q.fsSwap.mapSend id = some sp ∧ Flowing id data g sp

/-- **A grant to the client**: it sends one window and reports the end, or asks for the
    next grant. -/
theorem FlowsIn.grant (hdata : data ≠ []) (hfuel : data.length / 1024 < fuel)
    (h : FlowsIn id data g q) {e : FilesEvent} (hsends : ∀ k, e.2.sends k = true)
    (he : eventMsg J e = .beginUploadBack id) :
    ∃ q' new t, q.handle J fuel e = .ok q' ∧
      q'.log = q.log ++ (new ++ [.sent (setFilesJson t) true]) ∧
      (payloads id new).length ≤ windowSize ∧
      data.take (g * windowSize) ++ payloads id new = data.take ((g + 1) * windowSize) ∧
      FlowsIn id data (g + 1) q' ∧
      if grantsNeeded data.length ≤ g + 1 then setFilesFinishUpload J id true = .ok t
      else setFilesBeginUpload J id = .ok t := by
  obtain ⟨sp, hsp, hflow⟩ := h
  obtain ⟨msg, hmsg, hread⟩ := message_of_eventMsg he (by simp)
  obtain ⟨b, sp', io', new, hloop, hlog, hlen, hsent, hflow', hlast⟩ :=
    hflow.grant hdata hfuel hsends ⟨q.log, 0⟩
  obtain ⟨t, ht⟩ : ∃ t, (if b then setFilesFinishUpload J id true else setFilesBeginUpload J id) =
      .ok t := by
    cases b with
    | true => exact exists_setFilesFinishUpload J id true
    | false => exact exists_setFilesBeginUpload J id
  have hhandle : q.handle J fuel e = .ok (QwebFiles.sendMsg e.2 { q with
      toIo := io'
      fsSwap := { q.fsSwap with mapSend := Function.update q.fsSwap.mapSend id (some sp') } } t) := by
    unfold QwebFiles.handle
    simp only [hmsg, QwebFiles.slMessage_eq, hread, ok_bind, QwebFiles.onMsg,
      QwebFiles.beginUploadBack, addDataSend, hsp, hloop, Except.map, ht]
  refine ⟨_, new, t, hhandle, ?_, hlen, hsent, ⟨sp', Function.update_self _ _ _, hflow'⟩, ?_⟩
  · simp only [QwebFiles.sendMsg, Io.send, hlog, hsends, List.append_assoc]
  · cases b with
    | true =>
      rw [if_pos (hlast.1 rfl)]
      exact ht
    | false =>
      rw [if_neg fun hle => Bool.false_ne_true (hlast.2 hle)]
      exact ht

/-- **A run after the opening**: so many windows as there were grants. -/
theorem flowsIn_of_run (hdata : data ≠ []) (hfuel : data.length / 1024 < fuel)
    (h : FlowsIn id data 0 q) {es : List FilesEvent}
    (hrun : Run (Guarded (fun _ => FlowOk J id) (QwebFiles.Step J fuel)) q es q') :
    FlowsIn id data (grants J id es) q' ∧
      ∃ new, q'.log = q.log ++ new ∧ payloads id new = data.take (grants J id es * windowSize) := by
  induction hrun with
  | start => exact ⟨h, [], by simp, by simp [payloads, grants]⟩
  | @next es q₁ q₂ e _ hstep ih =>
    obtain ⟨hflow, new, hlog, hsent⟩ := ih
    obtain ⟨hok, hstep⟩ := hstep
    by_cases he : eventMsg J e = .beginUploadBack id
    · have hgrants : grants J id (es ++ [e]) = grants J id es + 1 := by
        simp [grants, List.countP_append, he]
      obtain ⟨q₃, more, t, hhandle, hlog', -, hmore, hflow', -⟩ :=
        hflow.grant hdata hfuel hok.sends he
      obtain rfl := Except.ok.inj (hhandle.symm.trans hstep)
      rw [hgrants]
      refine ⟨hflow', new ++ (more ++ [.sent (setFilesJson t) true]), ?_, ?_⟩
      · rw [hlog', hlog, List.append_assoc]
      · rw [payloads_append, payloads_append, hsent, ← List.append_assoc, hmore]
        simp [payloads, payloadOf_json]
    · have hgrants : grants J id (es ++ [e]) = grants J id es := by
        simp [grants, List.countP_append, he]
      obtain ⟨⟨more, hlog', hmore⟩, hothers⟩ := handled_handle hstep
      obtain ⟨sp, hsp, hflow⟩ := hflow
      rw [hgrants]
      refine ⟨⟨sp, (hothers id (hok.other.resolve_left he)).trans hsp, hflow⟩,
        new ++ more, by rw [hlog', hlog, List.append_assoc], ?_⟩
      rw [payloads_append, hsent, payloads_of_observed hmore he, List.append_nil]

/-- The opening of an upload. -/
theorem flowsIn_opened {m : FilesCreateUploadBack} {e : FilesEvent}
    (he : eventMsg J e = .createUploadBack m) (hok : m.ok = true) (hread : e.2.read = .file data none)
    (hstep : QwebFiles.Step J fuel q e q') (hopen : (q'.fsSwap.mapSend m.id).isSome) :
    FlowsIn m.id data 0 q' := by
  obtain ⟨msg, hmsg, hframe⟩ := message_of_eventMsg he (by simp)
  unfold QwebFiles.Step QwebFiles.handle at hstep
  simp only [hmsg, QwebFiles.slMessage_eq, hframe, ok_bind, QwebFiles.onMsg,
    QwebFiles.createUploadBack, hok, if_true] at hstep
  obtain ⟨⟨okOpen, fc⟩, hfc, hstep⟩ := bind_eq_ok.1 hstep
  obtain ⟨s, -, hstep⟩ := bind_eq_ok.1 hstep
  have hmap : q'.fsSwap.mapSend = fc.mapSend := by
    rw [← Except.ok.inj hstep]
    unfold QwebFiles.noteOpened
    split <;> rfl
  rw [hread] at hfc
  rw [hmap, mapSend_openFileSendChannel hfc, Function.update_self] at hopen
  cases okOpen with
  | false => cases hopen
  | true =>
    refine ⟨_, ?_, .opened m.id data m.absFile⟩
    rw [hmap, mapSend_openFileSendChannel hfc]
    exact Function.update_self _ _ _

/-- **Flow control of uploads.**  After the opening of an upload and any events, of
    which `g` are grants for it, `g` windows of the file have been sent.  The next
    grant returns; it sends at most one window, and nothing of another upload; then
    the end is reported, if the file has been sent and this is the last grant that it
    takes, or the next grant is asked for. -/
theorem upload_flow {m : FilesCreateUploadBack} {e₀ : FilesEvent} (hdata : data ≠ [])
    (hfuel : data.length / 1024 < fuel)
    (he₀ : eventMsg J e₀ = .createUploadBack m) (hok : m.ok = true)
    (hread : e₀.2.read = .file data none) {q₀ : QwebFiles} (hstep : QwebFiles.Step J fuel q₀ e₀ q)
    (hopen : (q.fsSwap.mapSend m.id).isSome) {es : List FilesEvent}
    (hrun : Run (Guarded (fun _ => FlowOk J m.id) (QwebFiles.Step J fuel)) q es q')
    {e : FilesEvent} (hsends : ∀ k, e.2.sends k = true) (he : eventMsg J e = .beginUploadBack m.id) :
    grantsNeeded data.length ≤ data.length / 2097152 + 2 ∧
    ∃ before q'' granted frame, q'.log = q.log ++ before ∧ QwebFiles.Step J fuel q' e q'' ∧
      q''.log = q'.log ++ (granted ++ [.sent frame true]) ∧
      (payloads m.id granted).length ≤ 2 * 1024 * 1024 ∧
      (∀ i, i ≠ m.id → payloads i granted = []) ∧
      if grantsNeeded data.length ≤ grants J m.id es + 1 then
        FinishUpload J frame m.id true ∧ payloads m.id (before ++ granted) = data
      else BeginUpload J frame m.id := by
  refine ⟨grantsNeeded_le data.length, ?_⟩
  obtain ⟨hflow, before, hbefore, hsent⟩ :=
    flowsIn_of_run hdata hfuel (flowsIn_opened he₀ hok hread hstep hopen) hrun
  obtain ⟨q'', granted, t, hhandle, hlog, hlen, hmore, -, hanswer⟩ :=
    hflow.grant hdata hfuel hsends he
  refine ⟨before, q'', granted, setFilesJson t, hbefore, hhandle, hlog, hlen, fun i hi => ?_, ?_⟩
  · obtain ⟨⟨new, hnew, hobserved⟩, -⟩ := handled_handle hhandle
    rw [hlog, List.append_cancel_left_eq] at hnew
    refine payloads_of_observed (fun ev hev => hobserved ev ?_) fun h => hi ?_
    · exact hnew ▸ List.mem_append_left _ hev
    · exact (FilesMsg.beginUploadBack.inj (he.symm.trans h)).symm
  · split_ifs at hanswer ⊢ with hlast
    · have hset : MsgType.filesFinishUpload.set J (m.id, true) = .ok t := hanswer
      refine ⟨⟨t, rfl, MsgType.checkJson_set J hset, MsgType.get_set J hset⟩, ?_⟩
      rw [payloads_append, hsent, hmore]
      exact List.take_of_length_le (le_of_grantsNeeded hlast)
    · have hset : MsgType.filesBeginUpload.set J m.id = .ok t := hanswer
      exact ⟨t, rfl, MsgType.checkJson_set J hset, MsgType.get_set J hset⟩

end

/-- A short file takes one grant. -/
theorem upload_flow_hi : ∃ q q' granted frame,
    QwebFiles.Step Json.jsonText 10 (.slOpen (.init fun _ => []) 1)
      (.message createUploadBackFrame, answersHi) q ∧
    QwebFiles.Step Json.jsonText 10 q (.message beginUploadBackFrame, answersHi) q' ∧
    q'.log = q.log ++ (granted ++ [.sent frame true]) ∧
    FinishUpload Json.jsonText frame 7 true ∧ payloads 7 granted = lit "hi" := by
  obtain ⟨q, hstep, hid⟩ := exists_createUpload_hi
  have hcreate := eventMsg_message readFrame_createUploadBackFrame answersHi
  have hbegin := eventMsg_message readFrame_beginUploadBackFrame answersHi
  have hopen : (q.fsSwap.mapSend 7).isSome := by rw [hid]; rfl
  have hdata : lit "hi" ≠ [] := List.cons_ne_nil _ _
  have hfuel : (lit "hi").length / 1024 < 10 := by decide
  obtain ⟨-, before, q', granted, frame, hbefore, hstep', hlog, -, -, hanswer⟩ :=
    upload_flow hdata hfuel hcreate rfl rfl hstep hopen .start (fun _ => rfl) hbegin
  have hneeded : grantsNeeded (lit "hi").length ≤ grants Json.jsonText 7 [] + 1 := by decide
  rw [if_pos hneeded] at hanswer
  obtain rfl : before = [] := List.self_eq_append_right.1 hbefore
  exact ⟨q, q', granted, frame, hstep, hstep', hlog, hanswer⟩

end SimpleChat
