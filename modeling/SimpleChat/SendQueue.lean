/-
  swap_files.h: the queue of the files that are being sent.

  `start_send_queue` takes one id after the other off `_que_send`, continues its
  transfer, and queues it again if it is not finished and the caller goes on with
  it; other transfers are closed.  The id that is taken is the last one of the
  queue, the one that is removed the first.

  * `startSendQueue`: a call, with the callbacks of the files and of the caller;
  * `Served`: what a call should achieve;
  * `sendQueueLoop_back`: it continues the transfer of the last id only;
  * `servesAll_iff`: so all is well iff at most one id is queued, and its reads get
    to the end of the file.
-/
import SimpleChat.FilesTransfer

namespace SimpleChat

open Lib

/-- A transfer open for sending (`swap_files::fs_send`). -/
structure SwapSend where
  countSend : ℤ
  lengthMax : ℤ
  filename : Str
  spFs : Ifstream

/-- The members of `swap_files` that sending uses. -/
structure SwapFiles where
  mapSend : Int64 → Option SwapSend
  /-- `_que_send`, its front first. -/
  queSend : List Int64

namespace SwapFiles

def empty : SwapFiles := ⟨fun _ => none, []⟩

variable (s : SwapFiles)

/-- `add_send_queue` -/
def addSendQueue (id : Int64) : SwapFiles := { s with queSend := s.queSend ++ [id] }

/-- `remove_send_queue` -/
def removeSendQueue : Outcome (Int64 × SwapFiles) :=
  match s.queSend.getLast? with
  | none => .error .trap
  | some id => .ok (id, { s with queSend := s.queSend.tail })

/-- `open_file_send` -/
def openFileSend (id : Int64) (filename : Str) (file : OpenRead) (ready : Bool) :
    Outcome (Bool × SwapFiles) :=
  if (s.mapSend id).isSome then .ok (false, s)
  else
    match file with
    | .closed => .ok (false, s)
    | .unsized => .error (.thrown .filesystemError)
    | .file data ioError =>
      let s := if ready then s.addSendQueue id else s
      .ok (true, { s with
        mapSend := Function.update s.mapSend id (some ⟨0, data.length, filename, .opened data ioError⟩) })

/-- `close_file_send` -/
def closeFileSend (id : Int64) : SwapFiles :=
  { s with mapSend := Function.update s.mapSend id none }

section
variable {ω : Type} (fnSendCb : Int64 → Str → ω → Bool × ω)

/-- The loop of `add_data_send`. -/
def addDataSendLoop (id : Int64) : ℕ → SwapSend → ω → Outcome (Bool × SwapSend × ω)
  | fuel, sp, w =>
    if sp.spFs.eof then .ok (true, sp, w)
    else
      match fuel with
      | 0 => .error .endless
      | fuel + 1 =>
        let (fs, buf) := sp.spFs.read 1024
        let sp := { sp with spFs := fs, countSend := sp.countSend + buf.length }
        let (isSend, w) := fnSendCb id buf w
        if isSend then addDataSendLoop id fuel sp w else .ok (false, sp, w)

/-- `add_data_send` -/
def addDataSend (fuel : ℕ) (id : Int64) (w : ω) : Outcome (Bool × SwapFiles × ω) :=
  match s.mapSend id with
  | some sp =>
    (addDataSendLoop fnSendCb id fuel sp w).map fun (isSend, sp, w) =>
      (isSend, { s with mapSend := Function.update s.mapSend id (some sp) }, w)
  | none => .ok (true, s, w)

variable (fnFinishCb : Bool → Int64 → ω → Bool × ω)

/-- The body of the loop of `start_send_queue`. -/
def sendQueueRound (fuel : ℕ) (w : ω) : Outcome (SwapFiles × ω) :=
  s.removeSendQueue >>= fun (id, s) =>
  s.addDataSend fnSendCb fuel id w >>= fun (ok, s, w) =>
  let (isSend, w) := fnFinishCb ok id w
  .ok (if isSend && !ok then s.addSendQueue id else s.closeFileSend id, w)

/-- The loop of `start_send_queue`. -/
def sendQueueLoop (fuel : ℕ) : ℕ → SwapFiles → ω → Outcome (SwapFiles × ω)
  | 0, s, w => .ok (s, w)
  | n + 1, s, w => s.sendQueueRound fnSendCb fnFinishCb fuel w >>= fun (s, w) =>
      sendQueueLoop fuel n s w

/-- `start_send_queue` -/
def startSendQueue (fuel : ℕ) (w : ω) : Outcome (ℕ × SwapFiles × ω) :=
  (sendQueueLoop fnSendCb fnFinishCb fuel (narrow32 s.queSend.length).toNat s w).map
    fun (s, w) => (s.queSend.length, s, w)

end

end SwapFiles

/-! ## What a call should achieve -/

/-- A call of the caller's callback, and what it returned. -/
structure Finish where
  finish : Bool
  id : Int64
  isSend : Bool

/-- The transfer is to be continued by the next call. -/
def Finish.Continues (f : Finish) : Prop := f.finish = false ∧ f.isSend = true

section
variable {ω : Type}

/-- A send callback that leaves the log alone. -/
def unlogged (fnSendCb : Int64 → Str → ω → Bool × ω) (id : Int64) (data : Str)
    (w : ω × List Finish) : Bool × ω × List Finish :=
  ((fnSendCb id data w.1).1, (fnSendCb id data w.1).2, w.2)

/-- The caller's callback, with a log of its calls. -/
def logged (fnFinishCb : Bool → Int64 → ω → Bool × ω) (finish : Bool) (id : Int64)
    (w : ω × List Finish) : Bool × ω × List Finish :=
  ((fnFinishCb finish id w.1).1, (fnFinishCb finish id w.1).2,
    w.2 ++ [⟨finish, id, (fnFinishCb finish id w.1).1⟩])

end

namespace SwapFiles

/-- Every queued id was processed once; those to be continued are queued again, the
    others are closed. -/
structure Served (s s' : SwapFiles) (log : List Finish) : Prop where
  once : (log.map Finish.id).Perm s.queSend
  nodup : s'.queSend.Nodup
  queued : ∀ id, id ∈ s'.queSend ↔ ∃ f ∈ log, f.id = id ∧ f.Continues
  closed : ∀ id ∈ s.queSend, id ∉ s'.queSend → s'.mapSend id = none

/-- A call serves the queue, whatever the callbacks do. -/
def ServesAll (s : SwapFiles) : Prop :=
  ∀ (ω : Type) (fnSendCb : Int64 → Str → ω → Bool × ω) (fnFinishCb : Bool → Int64 → ω → Bool × ω)
    (w : ω), ∃ fuel n s' w' log,
      s.startSendQueue (unlogged fnSendCb) (logged fnFinishCb) fuel (w, []) = .ok (n, s', w', log) ∧
        Served s s' log

/-! ## Continuing a transfer -/

section
variable {ω : Type} {fnSendCb : Int64 → Str → ω → Bool × ω} {id : Int64}

/-- Reads that get to the end make finitely many rounds. -/
theorem addDataSendLoop_ends (fnSendCb : Int64 → Str → ω → Bool × ω) (id : Int64) {fuel : ℕ}
    {sp : SwapSend} (w : ω) (hends : sp.spFs.ReadsToEnd 1024)
    (hfuel : sp.spFs.eof = false → sp.spFs.rest.length / 1024 < fuel) :
    ∃ r, addDataSendLoop fnSendCb id fuel sp w = .ok r := by
  induction fuel generalizing sp w with
  | zero =>
    have he : sp.spFs.eof = true := by
      by_contra he
      exact absurd (hfuel (by simpa using he)) (Nat.not_lt_zero _)
    exact ⟨_, by rw [addDataSendLoop, if_pos he]⟩
  | succ fuel ih =>
    unfold addDataSendLoop
    split_ifs with he
    · exact ⟨_, rfl⟩
    · rw [Bool.not_eq_true] at he
      dsimp only
      split_ifs
      · refine ih _ ((Ifstream.readsToEnd_read (by decide) he).2 hends) fun he' => ?_
        have hlt := Ifstream.rest_read_lt (by decide) hends he he'
        exact hlt.trans_le (Nat.le_of_lt_succ (hfuel he))
      · exact ⟨_, rfl⟩

/-- Reads that do not get to the end make round after round, if the callback goes
    on. -/
theorem addDataSendLoop_endless (hcb : ∀ id data w, (fnSendCb id data w).1 = true) (fuel : ℕ)
    {sp : SwapSend} (w : ω) (hends : ¬ sp.spFs.ReadsToEnd 1024) :
    addDataSendLoop fnSendCb id fuel sp w = .error .endless := by
  induction fuel generalizing sp w with
  | zero =>
    have he : ¬ sp.spFs.eof = true := fun he => hends (Or.inl he)
    rw [addDataSendLoop, if_neg he]
  | succ fuel ih =>
    have he : ¬ sp.spFs.eof = true := fun he => hends (Or.inl he)
    rw [addDataSendLoop, if_neg he]
    dsimp only
    rw [if_pos (hcb _ _ _)]
    refine ih _ fun h => hends ?_
    exact (Ifstream.readsToEnd_read (by decide) (by simpa using he)).1 h

/-- A call leaves the queue alone. -/
theorem addDataSend_queSend {s s' : SwapFiles} {fuel : ℕ} {w w' : ω} {b : Bool}
    (h : s.addDataSend fnSendCb fuel id w = .ok (b, s', w')) : s'.queSend = s.queSend := by
  unfold addDataSend at h
  split at h
  · obtain ⟨r, -, hr⟩ := map_eq_ok.1 h
    cases hr
    rfl
  · cases h
    rfl

/-- A call on an id whose reads get to the end returns. -/
theorem addDataSend_ok (fnSendCb : Int64 → Str → ω → Bool × ω) (id : Int64) {s : SwapFiles} (w : ω)
    (hends : ∀ sp, s.mapSend id = some sp → sp.spFs.ReadsToEnd 1024) :
    ∃ fuel b s' w', s.addDataSend fnSendCb fuel id w = .ok (b, s', w') := by
  unfold addDataSend
  rcases hmap : s.mapSend id with - | sp
  · exact ⟨0, _, _, _, rfl⟩
  · obtain ⟨⟨b, sp', w'⟩, hr⟩ := addDataSendLoop_ends fnSendCb id w
      (hends sp hmap) fun _ => Nat.lt_succ_self _
    refine ⟨sp.spFs.rest.length / 1024 + 1, b,
      { s with mapSend := Function.update s.mapSend id (some sp') }, w', ?_⟩
    dsimp only
    rw [hr]
    rfl

/-- A call on an id whose reads do not get to the end is endless. -/
theorem addDataSend_endless {s : SwapFiles} {sp : SwapSend} (hsp : s.mapSend id = some sp)
    (hcb : ∀ id data w, (fnSendCb id data w).1 = true) (hends : ¬ sp.spFs.ReadsToEnd 1024) (fuel : ℕ)
    (w : ω) : s.addDataSend fnSendCb fuel id w = .error .endless := by
  unfold addDataSend
  rw [hsp]
  dsimp only
  rw [addDataSendLoop_endless hcb fuel w hends]
  rfl

theorem addDataSendLoop_unlogged {fuel : ℕ} {sp sp' : SwapSend} {w w' : ω} {log log' : List Finish}
    {b : Bool} (h : addDataSendLoop (unlogged fnSendCb) id fuel sp (w, log) = .ok (b, sp', w', log')) :
    log' = log := by
  induction fuel generalizing sp w with
  | zero =>
    unfold addDataSendLoop at h
    split_ifs at h
    cases h
    rfl
  | succ fuel ih =>
    unfold addDataSendLoop at h
    split_ifs at h
    · cases h
      rfl
    · dsimp only [unlogged] at h
      split_ifs at h
      · exact ih h
      · cases h
        rfl

theorem addDataSend_unlogged {fuel : ℕ} {s s' : SwapFiles} {w w' : ω} {log log' : List Finish}
    {b : Bool} (h : s.addDataSend (unlogged fnSendCb) fuel id (w, log) = .ok (b, s', w', log')) :
    log' = log := by
  unfold addDataSend at h
  split at h
  · obtain ⟨⟨b₁, sp₁, w₁, log₁⟩, hloop, hr⟩ := map_eq_ok.1 h
    cases hr
    exact addDataSendLoop_unlogged hloop
  · cases h
    rfl

end

/-! ## The queue -/

section
variable {ω : Type} {fnSendCb : Int64 → Str → ω → Bool × ω} {fnFinishCb : Bool → Int64 → ω → Bool × ω}
  {fuel : ℕ} {s s' : SwapFiles} {w w' : ω} {log log' : List Finish} {b : Int64}

/-- **A round**: the last id is continued, and the first one leaves the queue. -/
theorem sendQueueRound_spec
    (h : s.sendQueueRound (unlogged fnSendCb) (logged fnFinishCb) fuel (w, log) = .ok (s', w', log')) :
    ∃ f : Finish, s.queSend.getLast? = some f.id ∧ log' = log ++ [f] ∧
      (f.Continues → s'.queSend = s.queSend.tail ++ [f.id]) ∧
      (¬ f.Continues → s'.queSend = s.queSend.tail ∧ s'.mapSend f.id = none) := by
  obtain ⟨⟨id, s₁⟩, hremove, hcall⟩ := bind_eq_ok.1 h
  dsimp only at hcall
  obtain ⟨⟨ok, s₂, w₂, log₂⟩, hsend, hend⟩ := bind_eq_ok.1 hcall
  have hlast : s.queSend.getLast? = some id ∧ s₁.queSend = s.queSend.tail := by
    unfold removeSendQueue at hremove
    rcases hq : s.queSend.getLast? with - | x
    · rw [hq] at hremove
      cases hremove
    · rw [hq] at hremove
      cases hremove
      exact ⟨rfl, rfl⟩
  have hque : s₂.queSend = s.queSend.tail := (addDataSend_queSend hsend).trans hlast.2
  obtain rfl : log₂ = log := addDataSend_unlogged hsend
  rcases hcb : fnFinishCb ok id w₂ with ⟨isSend, w₃⟩
  simp only [logged, hcb, Except.ok.injEq, Prod.mk.injEq] at hend
  obtain ⟨rfl, rfl, rfl⟩ := hend
  refine ⟨⟨ok, id, isSend⟩, hlast.1, rfl, ?_, ?_⟩
  · intro hc
    obtain ⟨rfl, rfl⟩ : ok = false ∧ isSend = true := hc
    simp [addSendQueue, hque]
  · intro hc
    have hcond : ¬ (isSend && !ok) = true := by
      intro hcon
      rw [Bool.and_eq_true, Bool.not_eq_true'] at hcon
      exact hc ⟨hcon.2, hcon.1⟩
    rw [if_neg hcond]
    exact ⟨hque, Function.update_self _ _ _⟩

/-- The last id of the queue, if there is one. -/
def Back (b : Int64) (s : SwapFiles) : Prop := ∀ id ∈ s.queSend.getLast?, id = b

theorem Back.tail {q : List Int64} (h : ∀ id ∈ q.getLast?, id = b) : ∀ id ∈ q.tail.getLast?, id = b := by
  intro id hid
  cases q with
  | nil => cases hid
  | cons x q =>
    cases q with
    | nil => cases hid
    | cons y q => exact h id (by rwa [List.getLast?_cons_cons])

/-- **The loop continues the transfer of the last id only.** -/
theorem sendQueueLoop_back {n : ℕ} (hb : Back b s)
    (h : sendQueueLoop (unlogged fnSendCb) (logged fnFinishCb) fuel n s (w, log) =
      .ok (s', w', log')) (hlog : ∀ f ∈ log, f.id = b) : ∀ f ∈ log', f.id = b := by
  induction n generalizing s w log with
  | zero =>
    cases h
    exact hlog
  | succ n ih =>
    obtain ⟨⟨s₁, w₁, log₁⟩, hround, h⟩ := bind_eq_ok.1 h
    obtain ⟨f, hlast, rfl, hcont, hstop⟩ := sendQueueRound_spec hround
    have hf : f.id = b := hb f.id hlast
    have hb₁ : Back b s₁ := by
      intro id hid
      by_cases hc : f.Continues
      · rw [hcont hc, List.getLast?_concat] at hid
        cases hid
        exact hf
      · rw [(hstop hc).1] at hid
        exact Back.tail hb id hid
    refine ih hb₁ h fun g hg => ?_
    rcases List.mem_append.1 hg with hg | hg
    · exact hlog g hg
    · rw [List.mem_singleton.1 hg]
      exact hf

/-- With two or more queued ids some id is not processed. -/
theorem not_served_of_two {n : ℕ} (hnodup : s.queSend.Nodup) (htwo : 2 ≤ s.queSend.length)
    (h : s.startSendQueue (unlogged fnSendCb) (logged fnFinishCb) fuel (w, []) =
      .ok (n, s', w', log')) : ¬ Served s s' log' := by
  intro hserved
  obtain ⟨⟨s₁, w₁, log₁⟩, hloop, hr⟩ := map_eq_ok.1 h
  cases hr
  have hne : s.queSend ≠ [] := by
    intro hnil
    rw [hnil] at htwo
    exact absurd htwo (by decide)
  -- the front is not the back
  have hb : Back (s.queSend.getLast hne) s := by
    intro id hid
    rw [List.getLast?_eq_getLast_of_ne_nil hne] at hid
    exact (Option.some.inj hid).symm
  have hall := sendQueueLoop_back hb hloop (by simp)
  have hlen : log'.length = s.queSend.length := by
    rw [← List.length_map (f := Finish.id), hserved.once.length_eq]
  have hrep : log'.map Finish.id = List.replicate log'.length (s.queSend.getLast hne) := by
    rw [List.eq_replicate_iff]
    refine ⟨List.length_map _, fun x hx => ?_⟩
    obtain ⟨f, hf, rfl⟩ := List.mem_map.1 hx
    exact hall f hf
  have hnodup' : (List.replicate log'.length (s.queSend.getLast hne)).Nodup := by
    rw [← hrep]
    exact hserved.once.nodup_iff.2 hnodup
  rw [List.nodup_replicate] at hnodup'
  omega

/-! ### One id -/

variable {id : Int64}

theorem startSendQueue_nil (hq : s.queSend = []) (w : ω × List Finish) :
    s.startSendQueue (unlogged fnSendCb) (logged fnFinishCb) fuel w = .ok (0, s, w) := by
  unfold startSendQueue
  rw [hq]
  simp only [List.length_nil, Nat.cast_zero, show (narrow32 0).toNat = 0 from rfl, sendQueueLoop,
    Except.map, hq]

theorem startSendQueue_singleton (hq : s.queSend = [id]) (w : ω × List Finish) :
    s.startSendQueue (unlogged fnSendCb) (logged fnFinishCb) fuel w =
      (s.sendQueueRound (unlogged fnSendCb) (logged fnFinishCb) fuel w).map
        fun r => (r.1.queSend.length, r.1, r.2) := by
  unfold startSendQueue
  rw [hq]
  simp only [List.length_singleton, Nat.cast_one, show (narrow32 1).toNat = 1 from rfl, sendQueueLoop]
  rcases s.sendQueueRound (unlogged fnSendCb) (logged fnFinishCb) fuel w with e | ⟨s', w'⟩
  · rfl
  · rfl

theorem removeSendQueue_singleton (hq : s.queSend = [id]) :
    s.removeSendQueue = .ok (id, { s with queSend := [] }) := by
  unfold removeSendQueue
  rw [hq]
  rfl

/-- The only id of the queue is served, if its reads get to the end. -/
theorem served_singleton (hq : s.queSend = [id])
    (hends : ∀ sp, s.mapSend id = some sp → sp.spFs.ReadsToEnd 1024)
    (fnSendCb : Int64 → Str → ω → Bool × ω) (fnFinishCb : Bool → Int64 → ω → Bool × ω) (w : ω) :
    ∃ fuel n s' w' log, s.startSendQueue (unlogged fnSendCb) (logged fnFinishCb) fuel (w, []) =
      .ok (n, s', w', log) ∧ Served s s' log := by
  obtain ⟨fuel, b, s₁, w₁, hsend⟩ :=
    addDataSend_ok (unlogged fnSendCb) id (s := { s with queSend := [] }) (w, []) hends
  have hround : ∃ s' w' log, s.sendQueueRound (unlogged fnSendCb) (logged fnFinishCb) fuel (w, []) =
      .ok (s', w', log) := by
    unfold sendQueueRound
    rw [removeSendQueue_singleton hq]
    simp only [ok_bind, hsend]
    exact ⟨_, _, _, rfl⟩
  obtain ⟨s', w', log, hround⟩ := hround
  refine ⟨fuel, s'.queSend.length, s', w', log, ?_, ?_⟩
  · rw [startSendQueue_singleton hq, hround]
    rfl
  · obtain ⟨f, hlast, rfl, hcont, hstop⟩ := sendQueueRound_spec hround
    rw [hq] at hlast hcont hstop
    obtain rfl : id = f.id := Option.some.inj hlast
    rw [List.nil_append]
    by_cases hc : f.Continues
    · have hque : s'.queSend = [f.id] := hcont hc
      constructor
      · rw [hq]
        exact .refl _
      · rw [hque]
        exact List.nodup_singleton _
      · intro x
        rw [hque, List.mem_singleton]
        constructor
        · rintro rfl
          exact ⟨f, List.mem_singleton_self _, rfl, hc⟩
        · rintro ⟨g, hg, rfl, -⟩
          rw [List.mem_singleton.1 hg]
      · intro x hx hnot
        rw [hq] at hx
        rw [hque] at hnot
        exact absurd hx hnot
    · obtain ⟨hque, hclosed⟩ := hstop hc
      have hque' : s'.queSend = [] := hque
      constructor
      · rw [hq]
        exact .refl _
      · rw [hque']
        exact List.nodup_nil
      · intro x
        rw [hque']
        constructor
        · intro hx
          cases hx
        · rintro ⟨g, hg, -, hg'⟩
          rw [List.mem_singleton.1 hg] at hg'
          exact absurd hg' hc
      · intro x hx _
        rw [hq, List.mem_singleton] at hx
        rw [hx]
        exact hclosed

/-- The only id of the queue keeps a call from returning, if its reads do not get to
    the end. -/
theorem not_served_unreadable (hq : s.queSend = [id]) {sp : SwapSend} (hsp : s.mapSend id = some sp)
    (hends : ¬ sp.spFs.ReadsToEnd 1024) : ¬ s.ServesAll := by
  intro h
  obtain ⟨fuel, n, s', w', log, hcall, -⟩ := h Unit (fun _ _ w => (true, w)) (fun _ _ w => (true, w)) ()
  rw [startSendQueue_singleton hq] at hcall
  unfold sendQueueRound at hcall
  rw [removeSendQueue_singleton hq] at hcall
  simp only [ok_bind] at hcall
  rw [addDataSend_endless (s := { s with queSend := [] }) hsp (fun _ _ _ => rfl) hends] at hcall
  cases hcall

end

/-- **When the send queue is served.**  For a queue without repeated ids, a call
    processes every id once, queues again those to be continued and closes the
    others, whatever the callbacks do, iff at most one id is queued and the reads of
    its file get to the end. -/
theorem servesAll_iff {s : SwapFiles} (hnodup : s.queSend.Nodup) :
    s.ServesAll ↔ s.queSend.length ≤ 1 ∧
      ∀ id ∈ s.queSend, ∀ sp, s.mapSend id = some sp → sp.spFs.ReadsToEnd 1024 := by
  constructor
  · intro h
    have hone : s.queSend.length ≤ 1 := by
      by_contra htwo
      obtain ⟨fuel, n, s', w', log, hcall, hserved⟩ :=
        h Unit (fun _ _ w => (true, w)) (fun _ _ w => (true, w)) ()
      exact not_served_of_two hnodup (by omega) hcall hserved
    refine ⟨hone, fun id hid sp hsp => ?_⟩
    by_contra hends
    obtain ⟨x, hx⟩ : ∃ x, s.queSend = [x] := by
      have hpos := List.length_pos_of_mem hid
      exact List.length_eq_one_iff.1 (by omega)
    rw [hx, List.mem_singleton] at hid
    exact not_served_unreadable (hid ▸ hx) hsp hends h
  · rintro ⟨hone, hends⟩
    intro ω fnSendCb fnFinishCb w
    rcases hq : s.queSend with - | ⟨id, q⟩
    · refine ⟨0, 0, s, w, [], startSendQueue_nil hq _, ?_⟩
      constructor
      · rw [hq]
        exact .refl _
      · exact hnodup
      · intro x
        rw [hq]
        simp
      · intro x hx
        rw [hq] at hx
        cases hx
    · have hnil : q = [] := by
        rw [hq, List.length_cons] at hone
        exact List.length_eq_zero_iff.1 (by omega)
      rw [hnil] at hq
      exact served_singleton hq (hends id (by rw [hq]; exact List.mem_singleton_self _)) _ _ w

/-- A file that is opened ready to be sent. -/
theorem openFileSend_ready {s s' : SwapFiles} {id : Int64} {filename data : Str} {ioError : Option ℕ}
    (h : s.openFileSend id filename (.file data ioError) true = .ok (true, s')) :
    s'.queSend = s.queSend ++ [id] ∧
      s'.mapSend id = some ⟨0, data.length, filename, .opened data ioError⟩ := by
  unfold openFileSend at h
  by_cases hid : (s.mapSend id).isSome = true
  · rw [if_pos hid] at h
    cases h
  · rw [if_neg hid] at h
    cases h
    exact ⟨rfl, Function.update_self _ _ _⟩

/-- One small file. -/
theorem servesAll_one : ∃ s, empty.openFileSend 1 (lit "a") (.file (lit "x") none) true = .ok (true, s) ∧
    s.ServesAll := by
  have hopen : ∃ s, empty.openFileSend 1 (lit "a") (.file (lit "x") none) true = .ok (true, s) := ⟨_, rfl⟩
  obtain ⟨s, hopen⟩ := hopen
  obtain ⟨hq, hsp⟩ := openFileSend_ready hopen
  have hnodup : s.queSend.Nodup := by
    rw [hq]
    exact List.nodup_singleton _
  refine ⟨s, hopen, (servesAll_iff hnodup).2 ⟨by rw [hq]; rfl, ?_⟩⟩
  intro id hid sp hsp'
  rw [hq] at hid
  obtain rfl : id = 1 := List.mem_singleton.1 hid
  obtain rfl := Option.some.inj (hsp.symm.trans hsp')
  rw [Ifstream.readsToEnd_opened]
  intro e he
  cases he

/-- **Of two queued files the second is taken twice**, and the first one never. -/
theorem not_servesAll_two : ∃ s₁ s₂,
    empty.openFileSend 1 (lit "a") (.file (lit "x") none) true = .ok (true, s₁) ∧
      s₁.openFileSend 2 (lit "b") (.file (lit "y") none) true = .ok (true, s₂) ∧
      s₂.queSend = [1, 2] ∧ ¬ s₂.ServesAll := by
  refine ⟨_, _, rfl, rfl, rfl, fun h => ?_⟩
  obtain ⟨fuel, n, s', w', log, hcall, hserved⟩ :=
    h Unit (fun _ _ w => (true, w)) (fun _ _ w => (true, w)) ()
  exact not_served_of_two (show [(1 : Int64), 2].Nodup by decide) (show 2 ≤ [(1 : Int64), 2].length by decide)
    hcall hserved

end SwapFiles

end SimpleChat
