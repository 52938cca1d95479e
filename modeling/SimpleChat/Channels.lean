/-
  files_channel: who is responsible for an open transfer.

  * `sendSide`, `recvSide`: the transfers of one direction and the sets of the
    live channels are a registry, on which the operations of the class act as
    `openAt`, `closeAt`, `addChannel` and `dropChannel`;
  * `openChannel_restores_iff`: when a failed open leaves everything as it was;
  * `ChannelOp`, `OpOk`, `owned_apply`: each operation keeps ownership exactly
    when its condition holds; `owned_of_run`: so runs of such operations do.
-/
import SimpleChat.FilesTransfer

namespace SimpleChat

open Lib

namespace FilesChannel

/-! ## The two directions -/

/-- The transfers for sending, and the channels that list them. -/
def sendSide (fc : FilesChannel) : Registry Int64 Int64 FsSend :=
  ⟨fc.mapSend, fun c => (fc.mapChannel c).map (·.setSend)⟩

/-- The transfers for receiving, and the channels that list them. -/
def recvSide (fc : FilesChannel) : Registry Int64 Int64 FsRecv :=
  ⟨fc.mapRecv, fun c => (fc.mapChannel c).map (·.setRecv)⟩

theorem ext_sides {fc fc' : FilesChannel} (hs : fc.sendSide = fc'.sendSide)
    (hr : fc.recvSide = fc'.recvSide) : fc = fc' := by
  simp only [sendSide, recvSide, Registry.mk.injEq] at hs hr
  refine FilesChannel.ext hr.1 hs.1 (funext fun c => ?_)
  have h1 := congrFun hs.2 c
  have h2 := congrFun hr.2 c
  rcases h : fc.mapChannel c with _ | ch <;> rcases h' : fc'.mapChannel c with _ | ch' <;>
    simp only [h, h', Option.map_some, Option.map_none, reduceCtorEq, Option.some.injEq] at h1 h2
  · rfl
  · cases ch; cases ch'; simp_all

/-- The transfer that opening a file for sending creates. -/
def sendEntry (filename : Str) : OpenRead → Option FsSend
  | .file data ioError => some ⟨0, 0, data.length, filename, .opened data ioError⟩
  | _ => none

/-- The transfer that opening a file for receiving creates. -/
def recvEntry (lengthMax : ℤ) (filename : Str) (file : Option Str) : Option FsRecv :=
  file.map fun file => ⟨0, 0, lengthMax, filename, .opened file⟩

section
variable (fc : FilesChannel) (c i : Int64)

theorem map_update_channel {α : Type} (f : FsChannel → α) (ch : FsChannel) (c' : Int64) :
    (Function.update fc.mapChannel c (some ch) c').map f =
      Function.update (fun c => (fc.mapChannel c).map f) c (some (f ch)) c' := by
  by_cases h : c' = c
  · subst h; simp
  · simp [h]

/-- Rewriting a channel without changing what `f` reads of it. -/
theorem map_update_same {α : Type} (f : FsChannel → α) {ch ch' : FsChannel}
    (h : fc.mapChannel c = some ch) (hf : f ch' = f ch) :
    (fun c' => (Function.update fc.mapChannel c (some ch') c').map f) =
      fun c' => (fc.mapChannel c').map f := by
  funext c'
  rw [map_update_channel, Function.update_eq_self_iff.2 (by simp [h, hf])]

@[simp] theorem sendSide_closeFileSend : (fc.closeFileSend i).sendSide = fc.sendSide.release i := rfl

@[simp] theorem recvSide_closeFileSend : (fc.closeFileSend i).recvSide = fc.recvSide := rfl

@[simp] theorem recvSide_closeFileRecv : (fc.closeFileRecv i).recvSide = fc.recvSide.release i := rfl

@[simp] theorem sendSide_closeFileRecv : (fc.closeFileRecv i).sendSide = fc.sendSide := rfl

@[simp] theorem sendSide_removeFileSend : (fc.removeFileSend c i).sendSide = fc.sendSide.unlist c i := by
  unfold removeFileSend Registry.unlist
  rcases h : fc.mapChannel c with _ | ch <;> simp [sendSide, h, map_update_channel]

@[simp] theorem recvSide_removeFileSend : (fc.removeFileSend c i).recvSide = fc.recvSide := by
  unfold removeFileSend
  rcases h : fc.mapChannel c with _ | ch
  · rfl
  · simp only [recvSide, map_update_same fc c _ h]

@[simp] theorem recvSide_removeFileRecv : (fc.removeFileRecv c i).recvSide = fc.recvSide.unlist c i := by
  unfold removeFileRecv Registry.unlist
  rcases h : fc.mapChannel c with _ | ch <;> simp [recvSide, h, map_update_channel]

@[simp] theorem sendSide_removeFileRecv : (fc.removeFileRecv c i).sendSide = fc.sendSide := by
  unfold removeFileRecv
  rcases h : fc.mapChannel c with _ | ch
  · rfl
  · simp only [sendSide, map_update_same fc c _ h]

theorem sendSide_addFileSend : ((fc.addFileSend c i).1, (fc.addFileSend c i).2.sendSide) =
    fc.sendSide.list c i := by
  unfold addFileSend Registry.list
  rcases h : fc.mapChannel c with _ | ch <;> simp [sendSide, h, map_update_channel]

@[simp] theorem recvSide_addFileSend : (fc.addFileSend c i).2.recvSide = fc.recvSide := by
  unfold addFileSend
  rcases h : fc.mapChannel c with _ | ch
  · rfl
  · simp only [recvSide, map_update_same fc c _ h]

theorem recvSide_addFileRecv : ((fc.addFileRecv c i).1, (fc.addFileRecv c i).2.recvSide) =
    fc.recvSide.list c i := by
  unfold addFileRecv Registry.list
  rcases h : fc.mapChannel c with _ | ch <;> simp [recvSide, h, map_update_channel]

@[simp] theorem sendSide_addFileRecv : (fc.addFileRecv c i).2.sendSide = fc.sendSide := by
  unfold addFileRecv
  rcases h : fc.mapChannel c with _ | ch
  · rfl
  · simp only [sendSide, map_update_same fc c _ h]

@[simp] theorem sendSide_closeFileSendChannel :
    (fc.closeFileSendChannel c i).sendSide = fc.sendSide.closeAt c i := by
  simp [closeFileSendChannel, Registry.closeAt]

@[simp] theorem recvSide_closeFileSendChannel :
    (fc.closeFileSendChannel c i).recvSide = fc.recvSide := by
  simp [closeFileSendChannel]

@[simp] theorem recvSide_closeFileRecvChannel :
    (fc.closeFileRecvChannel c i).recvSide = fc.recvSide.closeAt c i := by
  simp [closeFileRecvChannel, Registry.closeAt]

@[simp] theorem sendSide_closeFileRecvChannel :
    (fc.closeFileRecvChannel c i).sendSide = fc.sendSide := by
  simp [closeFileRecvChannel]

theorem sendSide_addIdChannel : (fc.addIdChannel c).2.sendSide = fc.sendSide.addChannel c := by
  unfold addIdChannel Registry.addChannel
  rcases h : fc.mapChannel c with _ | ch <;> simp [sendSide, h, map_update_channel]

theorem recvSide_addIdChannel : (fc.addIdChannel c).2.recvSide = fc.recvSide.addChannel c := by
  unfold addIdChannel Registry.addChannel
  rcases h : fc.mapChannel c with _ | ch <;> simp [recvSide, h, map_update_channel]

theorem map_update_none {α : Type} (f : FsChannel → α) :
    (fun c' => (Function.update fc.mapChannel c none c').map f) =
      Function.update (fun c => (fc.mapChannel c).map f) c none := by
  funext c'
  by_cases h : c' = c
  · subst h; simp
  · simp [h]

theorem sendSide_removeIdChannel : (fc.removeIdChannel c).sendSide = fc.sendSide.dropChannel c := by
  simp [removeIdChannel, sendSide, Registry.dropChannel, map_update_none]

theorem recvSide_removeIdChannel : (fc.removeIdChannel c).recvSide = fc.recvSide.dropChannel c := by
  simp [removeIdChannel, recvSide, Registry.dropChannel, map_update_none]

/-- **Opening for sending is opening in the registry**, unless the size of the
    file cannot be had; the other direction does not change. -/
theorem openFileSendChannel_eq (filename : Str) (file : OpenRead) :
    (fc.mapSend i = none ∧ file = .unsized ∧
        fc.openFileSendChannel c i filename file = .error (.thrown .filesystemError)) ∨
      ∃ fc', fc.openFileSendChannel c i filename file =
          .ok ((fc.sendSide.openAt c i (sendEntry filename file)).1, fc') ∧
        fc'.sendSide = (fc.sendSide.openAt c i (sendEntry filename file)).2 ∧
        fc'.recvSide = fc.recvSide ∧ ¬ (fc.mapSend i = none ∧ file = .unsized) := by
  by_cases hthrow : fc.mapSend i = none ∧ file = .unsized
  · obtain ⟨h, rfl⟩ := hthrow
    exact Or.inl ⟨h, rfl, by simp [openFileSendChannel, openFileSend, h, Except.map]⟩
  · right
    have hopen : ∃ fc₁, fc.openFileSend i filename file =
          .ok ((fc.sendSide.acquire i (sendEntry filename file)).1, fc₁) ∧
        fc₁.sendSide = (fc.sendSide.acquire i (sendEntry filename file)).2 ∧
        fc₁.recvSide = fc.recvSide := by
      unfold openFileSend Registry.acquire
      rcases h : fc.mapSend i with _ | sp
      · cases file with
        | closed => exact ⟨fc, by simp [sendSide, sendEntry, h]⟩
        | unsized => exact absurd ⟨h, rfl⟩ hthrow
        | file data ioError =>
          refine ⟨{ fc with
            mapSend := Function.update fc.mapSend i (sendEntry filename (.file data ioError)) }, ?_⟩
          simp [sendSide, sendEntry, h, recvSide]
      · exact ⟨fc, by simp [sendSide, h]⟩
    obtain ⟨fc₁, h₁, hs₁, hr₁⟩ := hopen
    have hadd := sendSide_addFileSend fc₁ c i
    rw [hs₁] at hadd
    simp only [openFileSendChannel, h₁, Except.map, Registry.openAt, ← hadd]
    split_ifs
    · exact ⟨_, rfl, rfl, by simp [hr₁], hthrow⟩
    · exact ⟨_, rfl, by simp, by simp [hr₁], hthrow⟩

/-- **Opening for receiving is opening in the registry**; the other direction
    does not change. -/
theorem openFileRecvChannel_eq (disk : Str → Str) (lengthMax : ℤ) (filename : Str)
    (file : Option Str) (closes : ℕ) :
    let r := fc.openFileRecvChannel disk c i lengthMax filename file closes
    (r.1, r.2.1.recvSide) = fc.recvSide.openAt c i (recvEntry lengthMax filename file) ∧
      r.2.1.sendSide = fc.sendSide := by
  have hopen : ((fc.openFileRecv disk i lengthMax filename file).1,
        (fc.openFileRecv disk i lengthMax filename file).2.1.recvSide) =
          fc.recvSide.acquire i (recvEntry lengthMax filename file) ∧
      (fc.openFileRecv disk i lengthMax filename file).2.1.sendSide = fc.sendSide := by
    unfold openFileRecv Registry.acquire
    rcases h : fc.mapRecv i with _ | sp
    · cases file <;> simp [recvSide, recvEntry, h, sendSide]
    · simp [recvSide, h]
  obtain ⟨hr, hs⟩ := hopen
  rcases he : fc.openFileRecv disk i lengthMax filename file with ⟨b₁, fc₁, disk₁⟩
  simp only [he] at hr hs
  have hadd := recvSide_addFileRecv fc₁ c i
  simp only [openFileRecvChannel, he, Registry.openAt, ← hr, ← hadd]
  split_ifs
  · simp [hs]
  · simp [hs]

/-! ## Failed opens -/

/-- `i` is in the set of the live channel `c`. -/
def ListedSend (c i : Int64) : Prop := ∃ ch ∈ fc.mapChannel c, i ∈ ch.setSend

def ListedRecv (c i : Int64) : Prop := ∃ ch ∈ fc.mapChannel c, i ∈ ch.setRecv

theorem listed_sendSide : fc.sendSide.Listed c i ↔ fc.ListedSend c i := by
  simp [Registry.Listed, sendSide, ListedSend]

theorem listed_recvSide : fc.recvSide.Listed c i ↔ fc.ListedRecv c i := by
  simp [Registry.Listed, recvSide, ListedRecv]

/-- A failed `open_file_send_channel` changes nothing exactly when the id is not
    open, and not listed under the channel if the file does not open. -/
theorem openFileSendChannel_eq_self (filename : Str) (file : OpenRead) :
    (∀ fc', fc.openFileSendChannel c i filename file = .ok (false, fc') → fc' = fc) ↔
      fc.mapSend i = none ∧ (¬ fc.ListedSend c i ∨ file ≠ .closed) := by
  have hself := Registry.openAt_eq_self fc.sendSide c i (sendEntry filename file)
  rcases openFileSendChannel_eq fc c i filename file with ⟨hi, rfl, h⟩ | ⟨fc', h, hs, hr, hn⟩
  · simp [h, hi]
  · have hfile : file ≠ .closed ↔ (sendEntry filename file).isSome ∨ file = .unsized := by
      cases file <;> simp [sendEntry]
    have heq : fc' = fc ↔ (fc.sendSide.openAt c i (sendEntry filename file)).2 = fc.sendSide :=
      ⟨fun he => by rw [← hs, he], fun he => ext_sides (hs.trans he) hr⟩
    rw [listed_sendSide] at hself
    simp only [h, Except.ok.injEq, Prod.mk.injEq]
    constructor
    · intro hall
      obtain ⟨hi, hor⟩ := hself.1 fun hf => heq.1 (hall fc' ⟨hf, rfl⟩)
      exact ⟨hi, hor.imp id fun hv => hfile.2 (Or.inl hv)⟩
    · rintro ⟨hi, hor⟩ fc₁ ⟨hf, rfl⟩
      refine heq.2 (hself.2 ⟨hi, hor.imp id fun hne => ?_⟩ hf)
      exact (hfile.1 hne).resolve_right fun hu => hn ⟨hi, hu⟩

/-- The same for receiving. -/
theorem openFileRecvChannel_eq_self (disk : Str → Str) (lengthMax : ℤ) (filename : Str)
    (file : Option Str) (closes : ℕ) :
    ((fc.openFileRecvChannel disk c i lengthMax filename file closes).1 = false →
        (fc.openFileRecvChannel disk c i lengthMax filename file closes).2.1 = fc) ↔
      fc.mapRecv i = none ∧ (¬ fc.ListedRecv c i ∨ file ≠ none) := by
  have hself := Registry.openAt_eq_self fc.recvSide c i (recvEntry lengthMax filename file)
  obtain ⟨hr, hs⟩ := openFileRecvChannel_eq fc c i disk lengthMax filename file closes
  rw [← hr, listed_recvSide] at hself
  have hfile : (recvEntry lengthMax filename file).isSome ↔ file ≠ none := by
    cases file <;> simp [recvEntry]
  rw [hfile] at hself
  refine Iff.trans (imp_congr_right fun _ => ?_) hself
  exact ⟨fun he => by rw [he], fun he => ext_sides hs he⟩

end

/-! ## Runs -/

/-- The operations that a connection makes on its channel. -/
inductive ChannelOp where
  | addIdChannel (c : Int64)
  | removeIdChannel (c : Int64)
  | openFileSendChannel (c i : Int64) (filename : Str) (file : OpenRead)
  | openFileRecvChannel (c i : Int64) (lengthMax : ℤ) (filename : Str) (file : Option Str)
  | closeFileSendChannel (c i : Int64)
  | closeFileRecvChannel (c i : Int64)

/-- The state after an operation.  An open that throws has changed nothing. -/
def apply (disk : Str → Str) (closes : ℕ) (fc : FilesChannel) : ChannelOp → FilesChannel
  | .addIdChannel c => (fc.addIdChannel c).2
  | .removeIdChannel c => fc.removeIdChannel c
  | .openFileSendChannel c i filename file =>
    match fc.openFileSendChannel c i filename file with
    | .ok (_, fc) => fc
    | .error _ => fc
  | .openFileRecvChannel c i lengthMax filename file =>
    (fc.openFileRecvChannel disk c i lengthMax filename file closes).2.1
  | .closeFileSendChannel c i => fc.closeFileSendChannel c i
  | .closeFileRecvChannel c i => fc.closeFileRecvChannel c i

/-- One operation. -/
def Step (disk : Str → Str) (closes : ℕ) (fc : FilesChannel) (op : ChannelOp)
    (fc' : FilesChannel) : Prop :=
  fc' = fc.apply disk closes op

/-- The failed opens that leave everything as it was, for every state: the id
    must not be open, and not be left over in the set of the channel. -/
theorem openChannel_restores_iff (disk : Str → Str) (fc : FilesChannel) (c i : Int64)
    (filename : Str) :
    (∀ file, (∀ fc', fc.openFileSendChannel c i filename file = .ok (false, fc') → fc' = fc) ↔
      fc.mapSend i = none ∧ (¬ fc.ListedSend c i ∨ file ≠ .closed)) ∧
    (∀ lengthMax file closes,
      ((fc.openFileRecvChannel disk c i lengthMax filename file closes).1 = false →
        (fc.openFileRecvChannel disk c i lengthMax filename file closes).2.1 = fc) ↔
      fc.mapRecv i = none ∧ (¬ fc.ListedRecv c i ∨ file ≠ none)) :=
  ⟨openFileSendChannel_eq_self fc c i filename, fun lengthMax file closes =>
    openFileRecvChannel_eq_self fc c i disk lengthMax filename file closes⟩

/-- Opening an id a second time closes the transfer that is open under it. -/
theorem openFileSendChannel_not_restored :
    ¬ ∀ (es : List ChannelOp) (fc fc' : FilesChannel) (c i : Int64) (filename : Str)
      (file : OpenRead), Run (Step (fun _ => []) 0) empty es fc →
        fc.openFileSendChannel c i filename file = .ok (false, fc') → fc' = fc := by
  intro h
  have hrun := Run.of_foldl (apply (fun _ => []) 0) empty
    [.addIdChannel 1, .openFileSendChannel 1 7 (lit "a") (.file (lit "data") none)]
  have hopen := h _ _ _ 1 7 (lit "a") (.file (lit "data") none) hrun rfl
  exact absurd (congrArg (fun fc => (fc.mapSend 7).isSome) hopen) (by decide)

/-! ## Ownership -/

/-- Every open transfer is in the set of exactly one live channel, and the sets
    hold no other ids. -/
def OneOwner (fc : FilesChannel) : Prop :=
  ∀ i, ((fc.mapSend i).isSome ↔ ∃! c, fc.ListedSend c i) ∧
    ((fc.mapRecv i).isSome ↔ ∃! c, fc.ListedRecv c i)

/-- Both directions are owned. -/
def BothOwned (fc : FilesChannel) : Prop := fc.sendSide.Owned ∧ fc.recvSide.Owned

theorem BothOwned.oneOwner {fc : FilesChannel} (h : BothOwned fc) : OneOwner fc := by
  intro i
  have hs := h.1.existsUnique i
  have hr := h.2.existsUnique i
  simp only [listed_sendSide, listed_recvSide] at hs hr
  exact ⟨hs, hr⟩

/-- When an operation keeps ownership: only a channel with empty sets is
    removed, and an id is opened and closed under the channel that lists it. -/
def OpOk (fc : FilesChannel) : ChannelOp → Prop
  | .addIdChannel _ => True
  | .removeIdChannel c => ∀ i, ¬ fc.ListedSend c i ∧ ¬ fc.ListedRecv c i
  | .openFileSendChannel c i _ _ | .closeFileSendChannel c i => ∀ c' ≠ c, ¬ fc.ListedSend c' i
  | .openFileRecvChannel c i _ _ _ | .closeFileRecvChannel c i => ∀ c' ≠ c, ¬ fc.ListedRecv c' i

/-- **Each operation keeps ownership exactly when its condition holds.** -/
theorem bothOwned_apply {disk : Str → Str} {closes : ℕ} {fc : FilesChannel} (h : BothOwned fc)
    (op : ChannelOp) : BothOwned (fc.apply disk closes op) ↔ OpOk fc op := by
  obtain ⟨hs, hr⟩ := h
  unfold BothOwned
  cases op with
  | addIdChannel c =>
    simp only [apply, OpOk, sendSide_addIdChannel, recvSide_addIdChannel, iff_true]
    exact ⟨Registry.owned_addChannel hs c, Registry.owned_addChannel hr c⟩
  | removeIdChannel c =>
    simp only [apply, OpOk, sendSide_removeIdChannel, recvSide_removeIdChannel,
      Registry.owned_dropChannel hs, Registry.owned_dropChannel hr, listed_sendSide,
      listed_recvSide, forall_and]
  | openFileSendChannel c i filename file =>
    have hiff := Registry.owned_openAt hs c i (sendEntry filename file)
    simp only [listed_sendSide] at hiff
    simp only [apply, OpOk]
    rcases openFileSendChannel_eq fc c i filename file with ⟨hi, -, h⟩ | ⟨fc', h, hs', hr', -⟩
    · -- nothing is open under an id that is not open
      rw [h]
      refine iff_of_true ⟨hs, hr⟩ fun c' _ hl => ?_
      have := (hs.open_iff i).2 ⟨c', (listed_sendSide fc c' i).2 hl⟩
      simp [sendSide, hi] at this
    · rw [h]
      simp only [hs', hr', hr, and_true]
      exact hiff
  | openFileRecvChannel c i lengthMax filename file =>
    have hiff := Registry.owned_openAt hr c i (recvEntry lengthMax filename file)
    obtain ⟨hr', hs'⟩ := openFileRecvChannel_eq fc c i disk lengthMax filename file closes
    rw [← hr'] at hiff
    simp only [listed_recvSide] at hiff
    simp only [apply, OpOk, hs', hs, true_and]
    exact hiff
  | closeFileSendChannel c i =>
    simp only [apply, OpOk, sendSide_closeFileSendChannel, recvSide_closeFileSendChannel, hr,
      and_true, Registry.owned_closeAt hs, listed_sendSide]
  | closeFileRecvChannel c i =>
    simp only [apply, OpOk, sendSide_closeFileRecvChannel, recvSide_closeFileRecvChannel, hs,
      true_and, Registry.owned_closeAt hr, listed_recvSide]

theorem bothOwned_empty : BothOwned empty := ⟨Registry.owned_empty, Registry.owned_empty⟩

theorem bothOwned_of_run {disk : Str → Str} {closes : ℕ} {es : List ChannelOp} {fc : FilesChannel}
    (h : Run (Guarded OpOk (Step disk closes)) empty es fc) : BothOwned fc :=
  h.invariant bothOwned_empty fun _ op _ hI hs => hs.2 ▸ (bothOwned_apply hI op).2 hs.1

/-- An id that no live channel lists can be opened under every live channel. -/
theorem BothOwned.reopen {fc : FilesChannel} (h : BothOwned fc) {c i : Int64}
    (hc : (fc.mapChannel c).isSome) :
    ((∀ c', ¬ fc.ListedSend c' i) → ∀ filename data ioError,
      ∃ fc', fc.openFileSendChannel c i filename (.file data ioError) = .ok (true, fc')) ∧
    ((∀ c', ¬ fc.ListedRecv c' i) → ∀ disk lengthMax filename file closes,
      (fc.openFileRecvChannel disk c i lengthMax filename (some file) closes).1 = true) := by
  constructor
  · intro hl filename data ioError
    have hi : fc.mapSend i = none := by
      rw [← Option.not_isSome_iff_eq_none, (h.oneOwner i).1]
      exact fun ⟨c', hc', _⟩ => hl c' hc'
    rcases openFileSendChannel_eq fc c i filename (.file data ioError) with
      ⟨_, hf, _⟩ | ⟨fc', hfc, _, _, _⟩
    · cases hf
    · refine ⟨fc', hfc.trans ?_⟩
      rw [(Registry.openAt_fst _ c i _).2 ⟨hi, rfl, by simpa [sendSide] using hc⟩]
  · intro hl disk lengthMax filename file closes
    have hi : fc.mapRecv i = none := by
      rw [← Option.not_isSome_iff_eq_none, (h.oneOwner i).2]
      exact fun ⟨c', hc', _⟩ => hl c' hc'
    rw [congrArg Prod.fst (openFileRecvChannel_eq fc c i disk lengthMax filename (some file) closes).1,
      Registry.openAt_fst]
    exact ⟨hi, rfl, by simpa [recvSide] using hc⟩

/-- **Ownership of transfers.**  In every run whose operations meet their
    condition, every open transfer is in the set of exactly one live channel;
    after a channel is removed nothing that was opened under it is open, and what
    no live channel lists can be opened again.  From such a state an operation
    that does not meet its condition breaks ownership. -/
theorem oneOwner_of_run (disk : Str → Str) (closes : ℕ) (es : List ChannelOp) {fc : FilesChannel}
    (h : Run (Guarded OpOk (Step disk closes)) empty es fc) :
    OneOwner fc ∧
    (∀ c i, OpOk fc (.removeIdChannel c) →
      (fc.ListedSend c i → (fc.removeIdChannel c).mapSend i = none) ∧
      (fc.ListedRecv c i → (fc.removeIdChannel c).mapRecv i = none)) ∧
    (∀ c i, (fc.mapChannel c).isSome →
      ((∀ c', ¬ fc.ListedSend c' i) → ∀ filename data ioError,
        ∃ fc', fc.openFileSendChannel c i filename (.file data ioError) = .ok (true, fc')) ∧
      ((∀ c', ¬ fc.ListedRecv c' i) → ∀ disk lengthMax filename file closes,
        (fc.openFileRecvChannel disk c i lengthMax filename (some file) closes).1 = true)) ∧
    (∀ op, BothOwned (fc.apply disk closes op) ↔ OpOk fc op) := by
  have hI := bothOwned_of_run h
  exact ⟨hI.oneOwner, fun c i hok => ⟨fun hl => absurd hl (hok i).1, fun hl => absurd hl (hok i).2⟩,
    fun c i hc => hI.reopen hc, bothOwned_apply hI⟩

/-- A transfer is opened and closed, and its connection breaks: every operation
    meets its condition. -/
theorem oneOwner_of_run_upload : OneOwner
    ([.addIdChannel 1, .openFileSendChannel 1 7 (lit "a") (.file (lit "data") none),
      .closeFileSendChannel 1 7, .removeIdChannel 1].foldl (apply (fun _ => []) 0) empty) := by
  refine (oneOwner_of_run (fun _ => []) 0 [.addIdChannel 1,
    .openFileSendChannel 1 7 (lit "a") (.file (lit "data") none), .closeFileSendChannel 1 7,
    .removeIdChannel 1] ?_).1
  refine .next (.next (.next (.next .start ⟨trivial, rfl⟩) ⟨?open_, rfl⟩) ⟨?close, rfl⟩)
    ⟨?remove, rfl⟩
  case open_ =>
    rintro c hc ⟨ch, hch, -⟩
    simp [apply, addIdChannel, empty, hc] at hch
  case close =>
    rintro c hc ⟨ch, hch, -⟩
    simp [apply, addIdChannel, openFileSendChannel, openFileSend, addFileSend, empty, Except.map,
      hc] at hch
  case remove =>
    refine fun i => ⟨?_, ?_⟩ <;>
    · rintro ⟨ch, hch, hi⟩
      cases hch
      simp at hi

/-- A connection that breaks leaves its transfer open, and its id cannot be
    opened again. -/
theorem removeIdChannel_leaves_open :
    ¬ ∀ (es : List ChannelOp) (fc : FilesChannel), Run (Step (fun _ => []) 0) empty es fc →
      OneOwner fc := by
  intro h
  have hrun := Run.of_foldl (apply (fun _ => []) 0) empty
    [.addIdChannel 1, .openFileSendChannel 1 7 (lit "a") (.file (lit "data") none),
      .removeIdChannel 1]
  obtain ⟨c, ⟨ch, hch, -⟩, -⟩ := ((h _ _ hrun) 7).1.1 (by decide)
  by_cases hc : c = 1
  · subst hc; cases hch
  · simp [apply, removeIdChannel, openFileSendChannel, openFileSend, addFileSend, addIdChannel,
      empty, Except.map] at hch

end FilesChannel

end SimpleChat
