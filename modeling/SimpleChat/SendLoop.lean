/-
  files_io::add_data_send: when its loop ends.

  The loop looks at the end-of-file bit only, and a stream whose read failed never
  gets there.

  * `SendOp`: transfers are opened, continued and closed, in any order;
  * `FromFile`: what holds of an open transfer: whether its reads get to the end
    of the file is still what it was when the file was opened;
  * `addDataSend_ends_iff`: so a call that is not refused ends iff the file is
    empty or no read of it fails.
-/
import SimpleChat.SendFile

namespace SimpleChat

open Lib

section
variable {ω : Type}

/-- An operation on the transfers that send, with what the system answers. -/
inductive SendOp (ω : Type) where
  | openFile (id : Int64) (filename : Str) (file : OpenRead)
  | addData (id : Int64) (fuel : ℕ) (fnSendCb : FsSend → Str → ω → Bool × ω)
      (progCb : ℤ → FsSend → ω → ω)
  | close (id : Int64)

/-- An operation that returns. -/
def SendOp.Step (s : FilesChannel × ω) : SendOp ω → FilesChannel × ω → Prop
  | .openFile id filename file, s' => ∃ b, s.1.openFileSend id filename file = .ok (b, s'.1) ∧ s'.2 = s.2
  | .addData id fuel fnSendCb progCb, s' => ∃ b, addDataSend fnSendCb progCb fuel s.1 id s.2 = .ok (b, s')
  | .close id, s' => s' = (s.1.closeFileSend id, s.2)

/-- A transfer of a file: its length, and whether the reads get to its end. -/
structure FromFile (sp : FsSend) : Prop where
  length_eq : sp.lengthMax = sp.spFs.data.length
  ends : sp.spFs.ReadsToEnd 1024 ↔ (Ifstream.opened sp.spFs.data sp.spFs.ioError).ReadsToEnd 1024

theorem FromFile.opened (data filename : Str) (ioError : Option ℕ) :
    FromFile ⟨0, 0, data.length, filename, .opened data ioError⟩ := ⟨rfl, Iff.rfl⟩

theorem FromFile.ends_iff {sp : FsSend} (h : FromFile sp) : sp.spFs.ReadsToEnd 1024 ↔
    ∀ e ∈ sp.spFs.ioError, (sp.spFs.data.length / 1024 + 1) * 1024 ≤ e :=
  h.ends.trans Ifstream.readsToEnd_opened

section
variable {fnSendCb : FsSend → Str → ω → Bool × ω} {progCb : ℤ → FsSend → ω → ω}
  {sp sp' : FsSend} {w w' : ω} {b : Bool}

/-- **A round changes neither the file nor whether its reads get to the end.** -/
theorem sendRound_ends (hr : sendRound fnSendCb progCb sp w = .ok (b, sp', w'))
    (he : sp.spFs.eof = false) :
    (sp'.spFs.ReadsToEnd 1024 ↔ sp.spFs.ReadsToEnd 1024) ∧ sp'.spFs.data = sp.spFs.data ∧
      sp'.spFs.ioError = sp.spFs.ioError ∧ sp'.lengthMax = sp.lengthMax := by
  obtain ⟨-, -, hfs, -, hlen, -, -⟩ := sendRound_eq hr
  rw [hfs]
  exact ⟨Ifstream.readsToEnd_read (by decide) he, Ifstream.read_data _ _, Ifstream.read_ioError _ _,
    hlen⟩

theorem FromFile.round (h : FromFile sp) (hr : sendRound fnSendCb progCb sp w = .ok (b, sp', w'))
    (he : sp.spFs.eof = false) : FromFile sp' := by
  obtain ⟨hends, hdata, hio, hlen⟩ := sendRound_ends hr he
  constructor
  · rw [hlen, hdata]; exact h.length_eq
  · rw [hends, hdata, hio]; exact h.ends

/-- A round on a file that is not empty returns what the callback says. -/
theorem FromFile.round_ok (h : FromFile sp) (hne : sp.spFs.data ≠ [])
    (hcb : ∀ sp data w, (fnSendCb sp data w).1 = true) (progCb : ℤ → FsSend → ω → ω) (w : ω) :
    ∃ sp' w', sendRound fnSendCb progCb sp w = .ok (true, sp', w') := by
  have hlen : 0 < sp.lengthMax := by
    rw [h.length_eq]
    exact_mod_cast List.length_pos_iff.2 hne
  obtain ⟨p, hp⟩ := percent_ok (sp.countSend + (sp.spFs.read 1024).2.length) hlen
  unfold sendRound
  simp only [hp, Except.map, hcb]
  split_ifs
  · exact ⟨_, _, rfl⟩
  · exact ⟨_, _, rfl⟩

/-! ## Runs -/

/-- **Every open transfer is one of a file**, after any operations. -/
theorem fromFile_of_run {w₀ : ω} {ops : List (SendOp ω)} {s : FilesChannel × ω}
    (hrun : Run SendOp.Step (FilesChannel.empty, w₀) ops s) :
    ∀ id sp, s.1.mapSend id = some sp → FromFile sp := by
  refine hrun.invariant (I := fun s => ∀ id sp, s.1.mapSend id = some sp → FromFile sp) ?_ ?_
  · intro id sp h
    cases h
  · rintro ⟨fc, w⟩ (⟨id, filename, file⟩ | ⟨id, fuel, fnSendCb, progCb⟩ | id) ⟨fc', w'⟩ ih hstep
    · obtain ⟨b, hopen, -⟩ := hstep
      intro id' sp hsp
      simp only [FilesChannel.openFileSend] at hopen
      split_ifs at hopen
      · cases hopen; exact ih id' sp hsp
      · cases file with
        | closed => cases hopen; exact ih id' sp hsp
        | unsized => cases hopen
        | file data ioError =>
          cases hopen
          rcases eq_or_ne id' id with rfl | hne
          · simp only [Function.update_self, Option.some.injEq] at hsp
            rw [← hsp]
            exact .opened data filename ioError
          · simp only [Function.update_of_ne hne] at hsp
            exact ih id' sp hsp
    · obtain ⟨b, hcall⟩ := hstep
      unfold addDataSend at hcall
      rcases hmap : fc.mapSend id with - | sp₀
      · rw [hmap] at hcall
        cases hcall
        exact ih
      · rw [hmap] at hcall
        obtain ⟨⟨b₁, sp₁, w₁⟩, hloop, hs⟩ := map_eq_ok.1 hcall
        have hfile : FromFile sp₁ :=
          (addDataSendLoop_inv (I := fun _ sp _ => FromFile sp)
            (fun sp w b sp' w' h he hr => h.round hr he) (ih id sp₀ hmap) hloop).1
        cases hs
        intro id' sp hsp
        rcases eq_or_ne id' id with rfl | hne
        · simp only [Function.update_self, Option.some.injEq] at hsp
          rw [← hsp]
          exact hfile
        · simp only [Function.update_of_ne hne] at hsp
          exact ih id' sp hsp
    · cases hstep
      intro id' sp hsp
      rcases eq_or_ne id' id with rfl | hne
      · simp [FilesChannel.closeFileSend] at hsp
      · simp only [FilesChannel.closeFileSend, Function.update_of_ne hne] at hsp
        exact ih id' sp hsp

/-! ## The loop -/

/-- Reads that get to the end make finitely many rounds. -/
theorem FromFile.loop_ends (h : FromFile sp) (hne : sp.spFs.data ≠ [])
    (hends : sp.spFs.ReadsToEnd 1024) (hcb : ∀ sp data w, (fnSendCb sp data w).1 = true)
    (progCb : ℤ → FsSend → ω → ω) (w : ω) :
    ∃ fuel r, addDataSendLoop fnSendCb progCb fuel sp w = .ok r := by
  let I : FsSend → ω → Prop := fun sp _ =>
    FromFile sp ∧ sp.spFs.data ≠ [] ∧ sp.spFs.ReadsToEnd 1024
  have hround : ∀ sp w, I sp w → sp.spFs.eof = false →
      ∃ b sp' w', sendRound fnSendCb progCb sp w = .ok (b, sp', w') ∧ I sp' w' ∧
        (sp'.spFs.eof = false → sp'.spFs.rest.length / 1024 < sp.spFs.rest.length / 1024) := by
    rintro sp w ⟨h, hne, hends⟩ he
    obtain ⟨sp', w', hr⟩ := h.round_ok hne hcb progCb w
    obtain ⟨hends', hdata, -, -⟩ := sendRound_ends hr he
    refine ⟨true, sp', w', hr, ⟨h.round hr he, ?_, hends'.2 hends⟩, fun he' => ?_⟩
    · rw [hdata]; exact hne
    · obtain ⟨-, -, hfs, -⟩ := sendRound_eq hr
      rw [hfs] at he' ⊢
      exact Ifstream.rest_read_lt (by decide) hends he he'
  obtain ⟨r, hr⟩ := addDataSendLoop_ok (I := I) (fun sp => sp.spFs.rest.length / 1024) hround
    ⟨h, hne, hends⟩ fun _ => Nat.lt_succ_self _
  exact ⟨_, r, hr⟩

/-- Reads that do not get to the end make round after round. -/
theorem FromFile.loop_endless (hne : sp.spFs.data ≠ []) (hends : ¬ sp.spFs.ReadsToEnd 1024)
    (hcb : ∀ sp data w, (fnSendCb sp data w).1 = true) (fuel : ℕ) (h : FromFile sp) (w : ω) :
    addDataSendLoop fnSendCb progCb fuel sp w = .error .endless := by
  induction fuel generalizing sp w with
  | zero =>
    have he : ¬ sp.spFs.eof = true := fun he => hends (Or.inl he)
    rw [addDataSendLoop, if_neg he]
  | succ fuel ih =>
    have he : ¬ sp.spFs.eof = true := fun he => hends (Or.inl he)
    obtain ⟨sp', w', hr⟩ := h.round_ok hne hcb progCb w
    obtain ⟨hends', hdata, -, -⟩ := sendRound_ends hr (by simpa using he)
    rw [addDataSendLoop, if_neg he]
    simp only [hr, if_true]
    refine ih ?_ (fun h' => hends (hends'.1 h')) (h.round hr (by simpa using he)) w'
    rw [hdata]
    exact hne

/-- An empty file ends the loop with its first round. -/
theorem FromFile.loop_empty (h : FromFile sp) (hnil : sp.spFs.data = []) (w : ω) :
    addDataSendLoop fnSendCb progCb 1 sp w ≠ .error .endless := by
  have hlen : sp.lengthMax = 0 := by rw [h.length_eq, hnil]; rfl
  have htrap : sendRound fnSendCb progCb sp w = .error .trap := by
    simp only [sendRound, hlen, percent, true_or, if_true, Except.map]
  unfold addDataSendLoop
  split_ifs
  · intro hcon
    cases hcon
  · rw [htrap]
    intro hcon
    cases hcon

end

/-- A file that is opened although one of its reads will fail. -/
theorem addDataSend_unreadable {fc fc₀ : FilesChannel} {id : Int64} {filename data : Str} {e : ℕ}
    (hne : data ≠ []) (he : e < (data.length / 1024 + 1) * 1024)
    (hopen : fc.openFileSend id filename (.file data (some e)) = .ok (true, fc₀))
    {fnSendCb : FsSend → Str → ω → Bool × ω} (hcb : ∀ sp data w, (fnSendCb sp data w).1 = true)
    (progCb : ℤ → FsSend → ω → ω) (fuel : ℕ) (w : ω) :
    addDataSend fnSendCb progCb fuel fc₀ id w = .error .endless := by
  have hends : ¬ (Ifstream.opened data (some e)).ReadsToEnd 1024 := by
    rw [Ifstream.readsToEnd_opened]
    intro h
    exact absurd (h e rfl) (Nat.not_le.2 he)
  unfold addDataSend
  rw [openFileSend_entry hopen]
  dsimp only
  rw [FromFile.loop_endless hne hends hcb fuel (.opened data filename (some e)) w]
  rfl

/-- **When the sending loop ends.**  After any operations, a call on an open id
    whose callback keeps returning true makes finitely many rounds iff its file is
    empty or none of the reads that lead past its end fails. -/
theorem addDataSend_ends_iff {w₀ w : ω} {ops : List (SendOp ω)} {fc : FilesChannel}
    (hrun : Run SendOp.Step (FilesChannel.empty, w₀) ops (fc, w)) {id : Int64} {sp : FsSend}
    (hsp : fc.mapSend id = some sp) {fnSendCb : FsSend → Str → ω → Bool × ω}
    (hcb : ∀ sp data w, (fnSendCb sp data w).1 = true) (progCb : ℤ → FsSend → ω → ω) :
    (∃ fuel, addDataSend fnSendCb progCb fuel fc id w ≠ .error .endless) ↔
      sp.spFs.data = [] ∨ ∀ e ∈ sp.spFs.ioError, (sp.spFs.data.length / 1024 + 1) * 1024 ≤ e := by
  have hfile := fromFile_of_run hrun id sp hsp
  have hcall : ∀ fuel, addDataSend fnSendCb progCb fuel fc id w ≠ .error .endless ↔
      addDataSendLoop fnSendCb progCb fuel sp w ≠ .error .endless := by
    intro fuel
    simp only [addDataSend, hsp]
    cases addDataSendLoop fnSendCb progCb fuel sp w with
    | error e => simp [Except.map]
    | ok r => simp [Except.map]
  rw [← hfile.ends_iff]
  constructor
  · rintro ⟨fuel, hfuel⟩
    by_contra hcon
    rw [not_or] at hcon
    exact (hcall fuel).1 hfuel (FromFile.loop_endless hcon.1 hcon.2 hcb fuel hfile w)
  · intro hcond
    by_cases hnil : sp.spFs.data = []
    · exact ⟨1, (hcall 1).2 (hfile.loop_empty hnil w)⟩
    · obtain ⟨fuel, r, hr⟩ := hfile.loop_ends hnil (hcond.resolve_left hnil) hcb progCb w
      refine ⟨fuel, (hcall fuel).2 ?_⟩
      rw [hr]
      intro hcon
      cases hcon

end

/-- A small file is sent in one call. -/
theorem addDataSend_ends_hello : ∃ fc₀ sp,
    FilesChannel.empty.openFileSend 7 (lit "a") (.file (lit "hello") none) = .ok (true, fc₀) ∧
      fc₀.mapSend 7 = some sp ∧
      ∃ fuel, addDataSend (fun _ _ w => (true, w)) (fun _ _ w => w) fuel fc₀ 7 () ≠ .error .endless := by
  have hopen : ∃ fc₀, FilesChannel.empty.openFileSend 7 (lit "a") (.file (lit "hello") none) =
      .ok (true, fc₀) := ⟨_, rfl⟩
  obtain ⟨fc₀, hopen⟩ := hopen
  have hsp := openFileSend_entry hopen
  have hrun : Run SendOp.Step (FilesChannel.empty, ()) [.openFile 7 (lit "a") (.file (lit "hello") none)]
      (fc₀, ()) := Run.next .start ⟨true, hopen, rfl⟩
  refine ⟨fc₀, _, hopen, hsp, (addDataSend_ends_iff hrun hsp (fun _ _ _ => rfl) _).2 (Or.inr ?_)⟩
  intro e he
  cases he

/-- **A file that cannot be read keeps the loop going for ever.** -/
theorem addDataSend_endless_unreadable : ∃ fc₀,
    FilesChannel.empty.openFileSend 7 (lit "a") (.file (lit "hello") (some 0)) = .ok (true, fc₀) ∧
      ∀ fuel, addDataSend (fun _ _ w => (true, w)) (fun _ _ w => w) fuel fc₀ 7 () =
        .error .endless := by
  have hopen : ∃ fc₀, FilesChannel.empty.openFileSend 7 (lit "a") (.file (lit "hello") (some 0)) =
      .ok (true, fc₀) := ⟨_, rfl⟩
  obtain ⟨fc₀, hopen⟩ := hopen
  have hne : lit "hello" ≠ [] := by
    rw [lit_ofList rfl]
    exact List.cons_ne_nil _ _
  refine ⟨fc₀, hopen, fun fuel => ?_⟩
  exact addDataSend_unreadable hne (by omega) hopen (fun _ _ _ => rfl) _ fuel ()

end SimpleChat
