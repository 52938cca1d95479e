/-
  files_io::add_data_send: sending a file in several calls.

  A call sends chunk after chunk until the callback returns false; the next call
  goes on from there.  `payloads` are the chunks passed to the callback over all
  calls, `results k` the result of its `k`-th invocation.

  * `Sending`: what holds of the transfer and the payloads between any two reads:
    the payloads are the part of the file that has been read;
  * `sendCalls_spec`: hence of every sequence of calls, in which a call returns false
    only if its last callback did.
-/
import SimpleChat.FilesTransfer

namespace SimpleChat

open Lib

/-- A send callback that returns the given results and records its payloads. -/
def recordCb (results : ℕ → Bool) (_ : FsSend) (data : Str) (payloads : List Str) :
    Bool × List Str :=
  (results payloads.length, payloads ++ [data])

section
variable (results : ℕ → Bool) (fuel : ℕ) (id : Int64)

/-- A call `add_data_send(id)` and its result. -/
def SendCall (s : FilesChannel × List Str) (b : Bool) (s' : FilesChannel × List Str) : Prop :=
  addDataSend (recordCb results) (fun _ _ w => w) fuel s.1 id s.2 = .ok (b, s')

end

/-- What has been sent of `data`: the payloads are the part that has been read,
    and the stream is good unless it has got to the end. -/
structure Sending (data : Str) (sp : FsSend) (payloads : List Str) : Prop where
  data_eq : sp.spFs.data = data
  ioError : sp.spFs.ioError = none
  length_eq : sp.lengthMax = data.length
  count_eq : sp.countSend = sp.spFs.pos
  sent : payloads.flatten = data.take sp.spFs.pos
  small : ∀ p ∈ payloads, p.length ≤ 1024
  good : sp.spFs.eof = false → sp.spFs.good = true

section
variable {results : ℕ → Bool} {data : Str} {sp : FsSend} {payloads : List Str}

theorem Sending.count_eq_length (h : Sending data sp payloads) :
    sp.countSend = payloads.flatten.length := by
  have hle := sp.spFs.pos_le
  rw [h.data_eq] at hle
  rw [h.count_eq, h.sent, List.length_take, Nat.min_eq_left hle]

/-- At the end of the file everything has been sent. -/
theorem Sending.all (h : Sending data sp payloads) (he : sp.spFs.eof = true) :
    payloads.flatten = data := by
  have hpos := sp.spFs.eof_pos he
  rw [h.data_eq] at hpos
  rw [h.sent, hpos, List.take_length]

section
variable {ω : Type} {fnSendCb : FsSend → Str → ω → Bool × ω} {progCb : ℤ → FsSend → ω → ω}

/-- **A round sends the next chunk of the file**, whatever the callbacks do. -/
theorem Sending.next (h : Sending data sp payloads) {b : Bool} {sp' : FsSend} {w w' : ω}
    (hr : sendRound fnSendCb progCb sp w = .ok (b, sp', w')) (he : sp.spFs.eof = false) :
    Sending data sp' (payloads ++ [(sp.spFs.read 1024).2]) := by
  obtain ⟨-, -, hfs, hcount, hlen, -, -⟩ := sendRound_eq hr
  have hread := Ifstream.read_take sp.spFs 1024
  rw [Ifstream.read_data, h.data_eq] at hread
  refine ⟨?_, ?_, hlen.trans h.length_eq, ?_, ?_, ?_, ?_⟩
  · rw [hfs, Ifstream.read_data, h.data_eq]
  · rw [hfs, Ifstream.read_ioError, h.ioError]
  · rw [hcount, hfs, Ifstream.read_pos, h.count_eq]; push_cast; rfl
  · rw [hfs, hread, List.flatten_append, h.sent]; simp
  · intro p hp
    rw [List.mem_append, List.mem_singleton] at hp
    rcases hp with hp | rfl
    · exact h.small p hp
    · exact Ifstream.read_length _ _
  · rw [hfs]; exact (Ifstream.read_good (h.good he) h.ioError).2.2

/-- The rounds that are still to be made after the next one. -/
def roundsLeft (sp : FsSend) : ℕ := sp.spFs.rest.length / 1024

/-- A round of a file that is not empty returns, and leaves a whole chunk less
    unless it gets to the end. -/
theorem Sending.next_ok (fnSendCb : FsSend → Str → ω → Bool × ω) (progCb : ℤ → FsSend → ω → ω)
    (w : ω) (h : Sending data sp payloads) (hdata : data ≠ []) (he : sp.spFs.eof = false) :
    ∃ b sp' w', sendRound fnSendCb progCb sp w = .ok (b, sp', w') ∧
      (sp'.spFs.eof = false → roundsLeft sp' < roundsLeft sp) := by
  have hlen : 0 < sp.lengthMax := by
    rw [h.length_eq]; exact_mod_cast List.length_pos_iff.2 hdata
  obtain ⟨p, hp⟩ := percent_ok (sp.countSend + (sp.spFs.read 1024).2.length) hlen
  obtain ⟨b, sp', w', hr⟩ : ∃ b sp' w', sendRound fnSendCb progCb sp w = .ok (b, sp', w') := by
    simp only [sendRound, hp, Except.map]
    split_ifs <;> exact ⟨_, _, _, rfl⟩
  refine ⟨b, sp', w', hr, fun he' => ?_⟩
  obtain ⟨-, -, hfs, -⟩ := sendRound_eq hr
  obtain ⟨hbuf, heof, -⟩ := Ifstream.read_good (n := 1024) (h.good he) h.ioError
  rw [hfs, heof, decide_eq_false_iff_not] at he'
  have hpos := Ifstream.read_pos sp.spFs 1024
  rw [hbuf, List.length_take] at hpos
  simp only [roundsLeft, hfs, Ifstream.rest_length, Ifstream.read_data] at he' hpos ⊢
  rw [hpos]
  omega

end

theorem Sending.round (h : Sending data sp payloads) {b : Bool} {sp' : FsSend}
    {payloads' : List Str}
    (hr : sendRound (recordCb results) (fun _ _ w => w) sp payloads = .ok (b, sp', payloads'))
    (he : sp.spFs.eof = false) : Sending data sp' payloads' := by
  obtain ⟨w₁, hcb, -, -, -, -, hw⟩ := sendRound_eq hr
  have hw' : payloads' = payloads ++ [(sp.spFs.read 1024).2] := by
    simp only [recordCb, Prod.mk.injEq] at hcb
    rcases hw with rfl | ⟨_, _, rfl⟩ <;> exact hcb.2.symm
  rw [hw']
  exact h.next hr he

theorem Sending.opened (data filename : Str) :
    Sending data ⟨0, 0, data.length, filename, .opened data none⟩ [] :=
  ⟨rfl, rfl, rfl, rfl, rfl, by simp, fun _ => rfl⟩

end

section
variable {fuel : ℕ} {id : Int64} {data filename : Str}
  {fc fc₀ : FilesChannel} {payloads : List Str} {bs : List Bool}

/-- **A call on an open transfer**: it returns, it sends the next part of the
    file, it returns true only at the end, and false only after a callback that did. -/
theorem sendCall_ok (results : ℕ → Bool) (hdata : data ≠ []) (hfuel : data.length / 1024 < fuel) {sp : FsSend}
    (hsp : fc.mapSend id = some sp) (h : Sending data sp payloads) :
    ∃ b fc' sent sp', SendCall results fuel id (fc, payloads) b (fc', payloads ++ sent) ∧
      fc'.mapSend id = some sp' ∧ Sending data sp' (payloads ++ sent) ∧
      (b = true → sp'.spFs.eof = true) ∧ (sp.spFs.eof = true → b = true ∧ sent = []) ∧
      (b = false → ∃ k, k + 1 = (payloads ++ sent).length ∧ payloads.length ≤ k ∧ results k = false) := by
  have hleft : roundsLeft sp < fuel := by
    have := sp.spFs.rest_length
    rw [h.data_eq] at this
    unfold roundsLeft
    omega
  let I : Bool → FsSend → List Str → Prop := fun b sp w => Sending data sp w ∧ payloads <+: w ∧
    (b = false → ∃ k, k + 1 = w.length ∧ payloads.length ≤ k ∧ results k = false)
  have hI : I true sp payloads := ⟨h, List.prefix_refl _, fun hcon => by cases hcon⟩
  have hround : ∀ sp w b sp' w', I true sp w → sp.spFs.eof = false →
      sendRound (recordCb results) (fun _ _ w => w) sp w = .ok (b, sp', w') → I b sp' w' := by
    intro sp w b sp' w' hI he hr
    obtain ⟨w₁, hcb, -, -, -, -, hw⟩ := sendRound_eq hr
    have hw' : w' = w₁ := by rcases hw with rfl | ⟨_, _, rfl⟩ <;> rfl
    simp only [recordCb, Prod.mk.injEq] at hcb
    obtain ⟨hb, hw₁⟩ := hcb
    rw [← hw₁] at hw'
    refine ⟨hI.1.round hr he, hw' ▸ hI.2.1.trans (List.prefix_append _ _), fun hfalse => ⟨w.length, ?_⟩⟩
    rw [hw', List.length_append, List.length_singleton]
    exact ⟨rfl, hI.2.1.length_le, hb.trans hfalse⟩
  obtain ⟨⟨b, sp', w'⟩, hloop⟩ := addDataSendLoop_ok (I := fun sp w => Sending data sp w) roundsLeft
    (fun sp w h he => by
      obtain ⟨b, sp', w', hr, hlt⟩ := h.next_ok (recordCb results) (fun _ _ w => w) w hdata he
      exact ⟨b, sp', w', hr, h.round hr he, hlt⟩) h fun _ => hleft
  obtain ⟨⟨hsend, ⟨sent, rfl⟩, hfalse⟩, heof⟩ := addDataSendLoop_inv (I := I) hround hI hloop
  refine ⟨b, { fc with mapSend := Function.update fc.mapSend id (some sp') }, sent, sp', ?_, ?_,
    hsend, heof, fun he => ?_, hfalse⟩
  · simp only [SendCall, addDataSend, hsp, hloop, Except.map]
  · exact Function.update_self _ _ _
  · unfold addDataSendLoop at hloop
    simp only [he, if_true, Except.ok.injEq, Prod.mk.injEq] at hloop
    exact ⟨hloop.1.symm, List.self_eq_append_right.1 hloop.2.2⟩

theorem openFileSend_entry {ioError : Option ℕ}
    (hopen : fc.openFileSend id filename (.file data ioError) = .ok (true, fc₀)) :
    fc₀.mapSend id = some ⟨0, 0, data.length, filename, .opened data ioError⟩ := by
  unfold FilesChannel.openFileSend at hopen
  split_ifs at hopen
  · cases hopen
  · cases hopen
    exact Function.update_self _ _ _

/-- What holds between the calls. -/
theorem sendCalls_inv (results : ℕ → Bool) (hdata : data ≠ []) (hfuel : data.length / 1024 < fuel)
    (hopen : fc.openFileSend id filename (.file data none) = .ok (true, fc₀))
    {s : FilesChannel × List Str} (hrun : Run (SendCall results fuel id) (fc₀, []) bs s) :
    ∃ sp, s.1.mapSend id = some sp ∧ Sending data sp s.2 ∧ (true ∈ bs → sp.spFs.eof = true) := by
  induction hrun with
  | start => exact ⟨_, openFileSend_entry hopen, Sending.opened data filename, fun h => by cases h⟩
  | @next bs s s' b _ hcall ih =>
    obtain ⟨sp, hsp, hsend, hdone⟩ := ih
    obtain ⟨b', fc', sent, sp', hcall', hsp', hsend', heof, hagain, -⟩ :=
      sendCall_ok results hdata hfuel hsp hsend
    -- a call has one result
    simp only [SendCall] at hcall hcall'
    rw [hcall', Except.ok.injEq, Prod.mk.injEq] at hcall
    obtain ⟨rfl, rfl⟩ := hcall
    refine ⟨sp', hsp', hsend', fun hmem => ?_⟩
    rcases List.mem_append.1 hmem with hmem | hmem
    · exact heof (hagain (hdone hmem)).1
    · exact heof (List.mem_singleton.1 hmem).symm

/-- **Resumable sending loses and repeats nothing.**  After any number of calls
    with any results of the callback, the payloads make up a prefix of the file,
    of `count_send` bytes, in chunks of at most 1024 bytes; the next call returns;
    a call returns true only if the whole file has been passed on, and from then
    on the calls pass nothing and return true; it returns false only if its last
    callback did. -/
theorem sendCalls_spec (results : ℕ → Bool) (hdata : data ≠ []) (hfuel : data.length / 1024 < fuel)
    (hopen : fc.openFileSend id filename (.file data none) = .ok (true, fc₀))
    {fc' : FilesChannel} (hrun : Run (SendCall results fuel id) (fc₀, []) bs (fc', payloads)) :
    (∀ p ∈ payloads, p.length ≤ 1024) ∧ payloads.flatten <+: data ∧
    (∃ sp, fc'.mapSend id = some sp ∧ sp.countSend = payloads.flatten.length) ∧
    (true ∈ bs → payloads.flatten = data) ∧
    ∃ b fc'' sent, SendCall results fuel id (fc', payloads) b (fc'', payloads ++ sent) ∧
      (b = true → (payloads ++ sent).flatten = data) ∧ (true ∈ bs → b = true ∧ sent = []) ∧
      (b = false → ∃ k, k + 1 = (payloads ++ sent).length ∧ payloads.length ≤ k ∧ results k = false) := by
  obtain ⟨sp, hsp, hsend, hdone⟩ := sendCalls_inv results hdata hfuel hopen hrun
  obtain ⟨b, fc'', sent, sp', hcall, -, hsend', heof, hagain, hfalse⟩ :=
    sendCall_ok results hdata hfuel hsp hsend
  exact ⟨hsend.small, hsend.sent ▸ List.take_prefix _ _, ⟨sp, hsp, hsend.count_eq_length⟩,
    fun hmem => hsend.all (hdone hmem), b, fc'', sent, hcall, fun hb => hsend'.all (heof hb),
    fun hmem => hagain (hdone hmem), hfalse⟩

end

/-- A short file whose chunks are all refused: it has been passed on after the
    second call if that returns true. -/
theorem sendCalls_spec_hello : ∃ fc₀ fc₁ fc₂ b b' sent sent',
    FilesChannel.empty.openFileSend 7 (lit "a") (.file (lit "hello") none) = .ok (true, fc₀) ∧
      SendCall (fun _ => false) 1 7 (fc₀, []) b (fc₁, sent) ∧ sent.flatten <+: lit "hello" ∧
      SendCall (fun _ => false) 1 7 (fc₁, sent) b' (fc₂, sent ++ sent') ∧
      (b' = true → (sent ++ sent').flatten = lit "hello") := by
  have hne : lit "hello" ≠ [] := by decide
  have hfuel : (lit "hello").length / 1024 < 1 := by decide
  have hopen : ∃ fc₀, FilesChannel.empty.openFileSend 7 (lit "a") (.file (lit "hello") none) =
      .ok (true, fc₀) := ⟨_, rfl⟩
  obtain ⟨fc₀, hopen⟩ := hopen
  obtain ⟨-, -, -, -, b, fc₁, sent, hcall, -⟩ :=
    sendCalls_spec (fun _ => false) hne hfuel hopen .start
  obtain ⟨-, hprefix, -, -, b', fc₂, sent', hcall', hdone, -⟩ :=
    sendCalls_spec _ hne hfuel hopen (.next .start hcall)
  exact ⟨fc₀, fc₁, fc₂, b, b', sent, sent', hopen, hcall, hprefix, hcall', hdone⟩

end SimpleChat
