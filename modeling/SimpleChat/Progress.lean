/-
  The progress of a transfer: `count * 100 / length_max`, as an `int`.

  * `PercentSafe`: the percentage that is computed is the exact one;
  * `ProgLog`: the counts of which a percentage was computed, and the values that
    were reported; `Metered`: these increase;
  * `MeterCall`, `RecvCall`: the calls of `add_data_send` and `add_data_recv`, with
    such a log;
  * `progress_safe_iff`: all is well iff the file is not empty and not too long, and
    a download brings no more than was announced.
-/
import SimpleChat.SendFile

namespace SimpleChat

open Lib

/-- There is a quotient; neither the product nor the result overflows. -/
structure PercentSafe (count lengthMax : ℤ) : Prop where
  divisor : lengthMax ≠ 0
  product : -2 ^ 63 ≤ count * 100 ∧ count * 100 < 2 ^ 63
  quotient : -2 ^ 31 ≤ (count * 100).tdiv lengthMax ∧ (count * 100).tdiv lengthMax < 2 ^ 31

/-- What a transfer computed: the counts of which it computed a percentage, and the
    values that it reported. -/
structure ProgLog where
  counts : List ℤ
  progs : List ℤ

/-- The percentages were computed safely; the reported values increase from 1 to 100. -/
structure ProgLog.Safe (lengthMax : ℤ) (log : ProgLog) : Prop where
  computed : ∀ c ∈ log.counts, PercentSafe c lengthMax
  increasing : log.progs.Pairwise (· < ·)
  percentages : ∀ p ∈ log.progs, 1 ≤ p ∧ p ≤ 100

section
variable {count lengthMax prog p : ℤ} {progs : List ℤ}

theorem PercentSafe.percent_eq (h : PercentSafe count lengthMax) :
    percent count lengthMax = .ok ((count * 100).tdiv lengthMax) := by
  have hquot := h.quotient
  have htrap : ¬ (lengthMax = 0 ∨ (lengthMax = -1 ∧ wrap64 (count * 100) = -2 ^ 63)) := by
    rintro (h0 | ⟨rfl, hmin⟩)
    · exact h.divisor h0
    · rw [wrap64_of_range h.product] at hmin
      rw [hmin] at hquot
      exact absurd hquot.2 (by decide)
  rw [percent, if_neg htrap, wrap64_of_range h.product, narrow32_of_range hquot]

/-- A count between 0 and the length. -/
theorem percentSafe_of_le (hlen : 0 < lengthMax) (h0 : 0 ≤ count) (hle : count ≤ lengthMax)
    (hfit : 100 * lengthMax < 2 ^ 63) :
    PercentSafe count lengthMax ∧ (count * 100).tdiv lengthMax ≤ 100 := by
  have hnonneg : 0 ≤ (count * 100).tdiv lengthMax := Int.tdiv_nonneg (by omega) hlen.le
  have hhundred : (count * 100).tdiv lengthMax ≤ 100 := by
    rw [Int.tdiv_eq_ediv_of_nonneg (by omega)]
    exact Int.ediv_le_of_le_mul hlen (by omega)
  exact ⟨⟨hlen.ne', ⟨by omega, by omega⟩, by omega, by omega⟩, hhundred⟩

/-! ## Reported values -/

/-- The values reported so far, of which `prog` is the last. -/
structure Metered (prog : ℤ) (progs : List ℤ) : Prop where
  increasing : progs.Pairwise (· < ·)
  bounds : ∀ p ∈ progs, 1 ≤ p ∧ p ≤ prog
  last : prog = 0 ∨ prog ∈ progs

theorem Metered.start : Metered 0 [] := ⟨.nil, by simp, Or.inl rfl⟩

theorem Metered.nonneg (h : Metered prog progs) : 0 ≤ prog := by
  rcases h.last with h0 | hmem
  · exact h0.ge
  · exact (h.bounds prog hmem).1.trans' (by decide)

/-- **A value is reported if it is above the last one.** -/
theorem Metered.report (h : Metered prog progs) (hp : prog < p) : Metered p (progs ++ [p]) := by
  refine ⟨?_, fun x hx => ?_, Or.inr (by simp)⟩
  · rw [List.pairwise_append]
    refine ⟨h.increasing, List.pairwise_singleton _ _, fun x hx y hy => ?_⟩
    rw [List.mem_singleton.1 hy]
    exact (h.bounds x hx).2.trans_lt hp
  · rcases List.mem_append.1 hx with hx | hx
    · exact ⟨(h.bounds x hx).1, (h.bounds x hx).2.trans hp.le⟩
    · obtain rfl := List.mem_singleton.1 hx
      exact ⟨h.nonneg.trans_lt hp, le_rfl⟩

theorem Metered.step (h : Metered prog progs) (p : ℤ) :
    Metered (if prog < p then p else prog) (if prog < p then progs ++ [p] else progs) := by
  split_ifs with hp
  · exact h.report hp
  · exact h

theorem Metered.percentages (h : Metered prog progs) (hle : prog ≤ 100) :
    ∀ p ∈ progs, 1 ≤ p ∧ p ≤ 100 :=
  fun p hp => ⟨(h.bounds p hp).1, (h.bounds p hp).2.trans hle⟩

end

/-! ## Uploads -/

/-- A send callback that returns the given results and notes the count. -/
def meterCb (results : ℕ → Bool) (sp : FsSend) (_ : Str) (log : ProgLog) : Bool × ProgLog :=
  (results log.counts.length, { log with counts := log.counts ++ [sp.countSend] })

/-- A progress callback that notes the value. -/
def meterProg (prog : ℤ) (_ : FsSend) (log : ProgLog) : ProgLog :=
  { log with progs := log.progs ++ [prog] }

/-- A call `add_data_send(id)` and its result. -/
def MeterCall (results : ℕ → Bool) (fuel : ℕ) (id : Int64) (s : FilesChannel × ProgLog) (b : Bool)
    (s' : FilesChannel × ProgLog) : Prop :=
  addDataSend (meterCb results) meterProg fuel s.1 id s.2 = .ok (b, s')

/-- What holds of an upload of `data` between two reads. -/
structure Counting (data : Str) (sp : FsSend) (log : ProgLog) : Prop where
  data_eq : sp.spFs.data = data
  length_eq : sp.lengthMax = data.length
  count_eq : sp.countSend = sp.spFs.pos
  prog_le : sp.prog ≤ 100
  metered : Metered sp.prog log.progs
  computed : ∀ c ∈ log.counts, PercentSafe c data.length

section
variable {results : ℕ → Bool} {fuel : ℕ} {id : Int64} {data filename : Str} {ioError : Option ℕ}
  {fc fc₀ : FilesChannel} {sp : FsSend} {log : ProgLog}

theorem Counting.safe (h : Counting data sp log) : log.Safe data.length :=
  ⟨h.computed, h.metered.increasing, h.metered.percentages h.prog_le⟩

theorem Counting.opened (data filename : Str) (ioError : Option ℕ) :
    Counting data ⟨0, 0, data.length, filename, .opened data ioError⟩ ⟨[], []⟩ :=
  ⟨rfl, rfl, rfl, Int.zero_le_ofNat 100, .start, by simp⟩

/-- A round whose percentage can be computed. -/
theorem sendRound_meter {p : ℤ}
    (hp : percent (sp.countSend + (sp.spFs.read 1024).2.length) sp.lengthMax = .ok p) :
    sendRound (meterCb results) meterProg sp log =
      .ok (results log.counts.length,
        { sp with
          spFs := (sp.spFs.read 1024).1
          countSend := sp.countSend + (sp.spFs.read 1024).2.length
          prog := if sp.prog < p then p else sp.prog },
        ⟨log.counts ++ [sp.countSend + (sp.spFs.read 1024).2.length],
          if sp.prog < p then log.progs ++ [p] else log.progs⟩) := by
  unfold sendRound
  simp only [hp, Except.map, meterCb, meterProg]
  split_ifs <;> rfl

/-- **A round**, whose percentage is computed safely. -/
theorem Counting.round (results : ℕ → Bool) (h : Counting data sp log) (hdata : 0 < data.length)
    (hfit : 100 * data.length < 2 ^ 63) :
    ∃ b sp' log', sendRound (meterCb results) meterProg sp log = .ok (b, sp', log') ∧
      Counting data sp' log' := by
  have hpos : sp.countSend + (sp.spFs.read 1024).2.length = ((sp.spFs.read 1024).1.pos : ℤ) := by
    rw [Ifstream.read_pos, h.count_eq]
    push_cast
    rfl
  have hle : (sp.spFs.read 1024).1.pos ≤ data.length := by
    have := (sp.spFs.read 1024).1.pos_le
    rwa [Ifstream.read_data, h.data_eq] at this
  obtain ⟨hsafe, hhundred⟩ : PercentSafe (sp.countSend + (sp.spFs.read 1024).2.length) data.length ∧
      ((sp.countSend + (sp.spFs.read 1024).2.length) * 100).tdiv data.length ≤ 100 :=
    percentSafe_of_le (by exact_mod_cast hdata) (by omega) (by omega) (by exact_mod_cast hfit)
  refine ⟨_, _, _, sendRound_meter (h.length_eq ▸ hsafe.percent_eq), ?_, h.length_eq, hpos, ?_,
    h.metered.step _, fun c hc => ?_⟩
  · rw [Ifstream.read_data, h.data_eq]
  · simp only [h.length_eq]
    split_ifs
    · exact hhundred
    · exact h.prog_le
  · rcases List.mem_append.1 hc with hc | hc
    · exact h.computed c hc
    · rwa [List.mem_singleton.1 hc]

/-- **The calls on a file that is neither empty nor too long** are safe. -/
theorem meterCalls_safe (hdata : 0 < data.length) (hfit : 100 * data.length < 2 ^ 63)
    (hopen : fc.openFileSend id filename (.file data ioError) = .ok (true, fc₀)) {bs : List Bool}
    {s : FilesChannel × ProgLog} (hrun : Run (MeterCall results fuel id) (fc₀, ⟨[], []⟩) bs s) :
    s.2.Safe data.length ∧
      addDataSend (meterCb results) meterProg fuel s.1 id s.2 ≠ .error .trap := by
  have hround : ∀ sp log, Counting data sp log → sp.spFs.eof = false →
      ∃ b sp' log', sendRound (meterCb results) meterProg sp log = .ok (b, sp', log') ∧
        Counting data sp' log' := fun sp log h _ => h.round results hdata hfit
  have hinv : ∃ sp, s.1.mapSend id = some sp ∧ Counting data sp s.2 := by
    induction hrun with
    | start => exact ⟨_, openFileSend_entry hopen, .opened data filename ioError⟩
    | @next bs s s' b _ hcall ih =>
      obtain ⟨sp, hsp, hcount⟩ := ih
      simp only [MeterCall, addDataSend, hsp] at hcall
      obtain ⟨⟨b', sp', log'⟩, hloop, hs'⟩ := map_eq_ok.1 hcall
      have hcount' := (addDataSendLoop_inv (I := fun _ => Counting data)
        (fun sp w b sp' w' hI he hr => by
          obtain ⟨b₁, sp₁, w₁, hr₁, hI₁⟩ := hround sp w hI he
          rw [hr, Except.ok.injEq, Prod.mk.injEq, Prod.mk.injEq] at hr₁
          obtain ⟨rfl, rfl, rfl⟩ := hr₁
          exact hI₁) hcount hloop).1
      simp only [Prod.mk.injEq] at hs'
      obtain ⟨-, rfl⟩ := hs'
      exact ⟨sp', Function.update_self _ _ _, hcount'⟩
  obtain ⟨sp, hsp, hcount⟩ := hinv
  refine ⟨hcount.safe, fun htrap => ?_⟩
  simp only [addDataSend, hsp] at htrap
  cases hloop : addDataSendLoop (meterCb results) meterProg fuel sp s.2 with
  | error e =>
    rw [hloop, addDataSendLoop_error hround hcount hloop] at htrap
    cases htrap
  | ok r => rw [hloop] at htrap; cases htrap

/-- The end of an empty file: a call divides by zero. -/
theorem meterCall_empty (hopen : fc.openFileSend id filename (.file [] ioError) = .ok (true, fc₀))
    (log : ProgLog) : addDataSend (meterCb results) meterProg (fuel + 1) fc₀ id log = .error .trap := by
  have hread : ((Ifstream.opened [] ioError).read 1024).2 = [] :=
    List.eq_nil_of_length_eq_zero (by
      have := (Ifstream.opened [] ioError).read_pos 1024
      have hle := ((Ifstream.opened [] ioError).read 1024).1.pos_le
      rw [Ifstream.read_data] at hle
      have hdata : (Ifstream.opened [] ioError).data.length = 0 := rfl
      omega)
  have hround : sendRound (meterCb results) meterProg
      ⟨0, 0, ([] : Str).length, filename, .opened [] ioError⟩ log = .error .trap := by
    unfold sendRound
    simp only [hread]
    rfl
  have heof : ¬ (Ifstream.opened [] ioError).eof = true := Bool.false_ne_true
  have hloop : addDataSendLoop (meterCb results) meterProg (fuel + 1)
      ⟨0, 0, ([] : Str).length, filename, .opened [] ioError⟩ log = .error .trap := by
    unfold addDataSendLoop
    rw [if_neg heof, hround]
  simp only [addDataSend, openFileSend_entry hopen, hloop, Except.map]

/-- The whole file, sent in one call. -/
theorem meterCall_all (hdata : data ≠ [])
    (hopen : fc.openFileSend id filename (.file data none) = .ok (true, fc₀)) :
    ∃ s, MeterCall (fun _ => true) (data.length / 1024 + 1) id (fc₀, ⟨[], []⟩) true s ∧
      (data.length : ℤ) ∈ s.2.counts := by
  -- the last count is the position
  let I : Bool → FsSend → ProgLog → Prop := fun b sp log =>
    b = true ∧ (∃ payloads, Sending data sp payloads) ∧ (sp.spFs.eof = true → sp.countSend ∈ log.counts)
  have hround : ∀ sp w b sp' w', I true sp w → sp.spFs.eof = false →
      sendRound (meterCb fun _ => true) meterProg sp w = .ok (b, sp', w') → I b sp' w' := by
    rintro sp w b sp' w' ⟨-, ⟨payloads, hsend⟩, -⟩ he hr
    obtain ⟨w₁, hcb, -, hcount, -, -, hw⟩ := sendRound_eq hr
    simp only [meterCb, Prod.mk.injEq] at hcb
    obtain ⟨rfl, rfl⟩ := hcb
    refine ⟨rfl, ⟨_, hsend.next hr he⟩, fun _ => ?_⟩
    rw [hcount]
    rcases hw with rfl | ⟨_, _, rfl⟩ <;> exact List.mem_append_right _ (List.mem_singleton_self _)
  have hstart : I true ⟨0, 0, data.length, filename, .opened data none⟩ ⟨[], []⟩ :=
    ⟨rfl, ⟨[], Sending.opened data filename⟩, fun h => by cases h⟩
  obtain ⟨⟨b, sp', log'⟩, hloop⟩ : ∃ r, addDataSendLoop (meterCb fun _ => true) meterProg
      (data.length / 1024 + 1) ⟨0, 0, data.length, filename, .opened data none⟩ ⟨[], []⟩ = .ok r :=
    addDataSendLoop_ok (I := fun sp w => I true sp w) roundsLeft (fun sp w hI he => by
      obtain ⟨payloads, hsend⟩ := hI.2.1
      obtain ⟨b, sp', w', hr, hlt⟩ := hsend.next_ok (meterCb fun _ => true) meterProg w hdata he
      have hI' := hround sp w b sp' w' hI he hr
      exact ⟨b, sp', w', hr, hI'.1 ▸ hI', hlt⟩) hstart fun _ => Nat.lt_succ_self _
  obtain ⟨⟨rfl, ⟨payloads, hsend⟩, hmem⟩, heof⟩ := addDataSendLoop_inv hround hstart hloop
  refine ⟨({ fc₀ with mapSend := Function.update fc₀.mapSend id (some sp') }, log'), ?_, ?_⟩
  · simp only [MeterCall, addDataSend, openFileSend_entry hopen, hloop, Except.map]
  · have hlast := hmem (heof rfl)
    rw [hsend.count_eq_length, hsend.all (heof rfl)] at hlast
    exact hlast

/-- **Uploads.** -/
theorem upload_safe_iff (hfree : fc.mapSend id = none) :
    (∀ ioError results fuel bs fc₀ s, fc.openFileSend id filename (.file data ioError) = .ok (true, fc₀) →
        Run (MeterCall results fuel id) (fc₀, ⟨[], []⟩) bs s →
        s.2.Safe data.length ∧
          addDataSend (meterCb results) meterProg fuel s.1 id s.2 ≠ .error .trap) ↔
      0 < data.length ∧ 100 * data.length < 2 ^ 63 := by
  have hopen : ∀ ioError, ∃ fc₀, fc.openFileSend id filename (.file data ioError) = .ok (true, fc₀) := by
    intro ioError
    unfold FilesChannel.openFileSend
    rw [hfree]
    exact ⟨_, rfl⟩
  constructor
  · intro h
    obtain ⟨fc₀, hfc₀⟩ := hopen none
    have hpos : 0 < data.length := by
      rw [List.length_pos_iff]
      rintro rfl
      exact (h none (fun _ => true) 1 [] fc₀ _ hfc₀ .start).2 (meterCall_empty hfc₀ _)
    obtain ⟨s, hcall, hmem⟩ := meterCall_all (List.length_pos_iff.1 hpos) hfc₀
    have hsafe := (h none _ _ _ fc₀ s hfc₀ (.next .start hcall)).1.computed _ hmem
    have := hsafe.product.2
    omega
  · rintro ⟨hpos, hfit⟩ ioError results fuel bs fc₀ s hfc₀ hrun
    exact meterCalls_safe hpos hfit hfc₀ hrun

end

/-! ## Downloads -/

/-- A call `add_data_recv(id, data)`, and what becomes of the write. -/
def RecvCall (id : Int64) (s : FilesChannel × (Str → Str) × ProgLog) (e : Str × WriteAnswer)
    (s' : FilesChannel × (Str → Str) × ProgLog) : Prop :=
  ∃ ok fc disk prog sp, s.1.addDataRecv s.2.1 id e.1 e.2 = .ok (ok, fc, disk, prog) ∧
    fc.mapRecv id = some sp ∧
    s' = (fc, disk, ⟨s.2.2.counts ++ [sp.countRecv], s.2.2.progs ++ prog.toList⟩)

/-- The bytes that arrive before the first write that fails. -/
def written (es : List (Str × WriteAnswer)) : ℕ := ((es.takeWhile (·.2.ok)).map (·.1.length)).sum

/-- So many bytes are no more than were announced, up to the rounding, or no
    percentage is reported since the announced length is negative. -/
def DownloadFits (lengthMax : ℤ) (count : ℕ) : Prop :=
  (0 < lengthMax ∧ 100 * (count : ℤ) < 2 ^ 63 ∧ 100 * (count : ℤ) < 101 * lengthMax) ∨
    (lengthMax < 0 ∧ 100 * (count : ℤ) < 2 ^ 63 ∧ 100 * (count : ℤ) < (2 ^ 31 + 1) * -lengthMax)

theorem downloadFits_iff {lengthMax : ℤ} {count : ℕ} :
    DownloadFits lengthMax count ↔
      PercentSafe count lengthMax ∧ ((count : ℤ) * 100).tdiv lengthMax ≤ 100 := by
  unfold DownloadFits
  rcases lt_trichotomy lengthMax 0 with hneg | rfl | hpos
  · have hquot : ((count : ℤ) * 100).tdiv lengthMax = -((count : ℤ) * 100 / -lengthMax) := by
      rw [← Int.tdiv_eq_ediv_of_nonneg (by omega), Int.tdiv_neg, neg_neg]
    have hlt := Int.ediv_lt_iff_lt_mul (a := (count : ℤ) * 100) (b := 2 ^ 31 + 1) (neg_pos.2 hneg)
    have hnonneg : 0 ≤ (count : ℤ) * 100 / -lengthMax := Int.ediv_nonneg (by omega) (by omega)
    constructor
    · rintro (⟨hpos, -⟩ | ⟨-, hfit, hlen⟩)
      · omega
      · have hbound := hlt.2 (by omega)
        exact ⟨⟨hneg.ne, ⟨by omega, by omega⟩, by omega, by omega⟩, by omega⟩
    · rintro ⟨⟨-, hprod, hquo⟩, -⟩
      have hbound := hlt.1 (by omega)
      exact Or.inr ⟨hneg, by omega, by omega⟩
  · constructor
    · rintro (⟨h, -⟩ | ⟨h, -⟩) <;> omega
    · rintro ⟨⟨h, -, -⟩, -⟩
      exact absurd rfl h
  · have hquot : ((count : ℤ) * 100).tdiv lengthMax = (count : ℤ) * 100 / lengthMax :=
      Int.tdiv_eq_ediv_of_nonneg (by omega)
    have hlt := Int.ediv_lt_iff_lt_mul (a := (count : ℤ) * 100) (b := 101) hpos
    have hnonneg : 0 ≤ (count : ℤ) * 100 / lengthMax := Int.ediv_nonneg (by omega) hpos.le
    constructor
    · rintro (⟨-, hfit, hlen⟩ | ⟨hneg, -⟩)
      · have hbound := hlt.2 (by omega)
        exact ⟨⟨hpos.ne', ⟨by omega, by omega⟩, by omega, by omega⟩, by omega⟩
      · omega
    · rintro ⟨⟨-, hprod, -⟩, hhundred⟩
      have hbound := hlt.1 (by omega)
      exact Or.inl ⟨hpos, by omega, by omega⟩

theorem DownloadFits.mono {lengthMax : ℤ} {count count' : ℕ} (h : DownloadFits lengthMax count)
    (hle : count' ≤ count) : DownloadFits lengthMax count' := by
  rcases h with ⟨hpos, hfit, hlen⟩ | ⟨hneg, hfit, hlen⟩
  · exact Or.inl ⟨hpos, by omega, by omega⟩
  · exact Or.inr ⟨hneg, by omega, by omega⟩

theorem written_append (es : List (Str × WriteAnswer)) (e : Str × WriteAnswer) :
    written (es ++ [e]) = if es.all (·.2.ok) && e.2.ok then written es + e.1.length else written es := by
  induction es with
  | nil =>
    obtain ⟨data, ok, out⟩ := e
    cases ok <;> simp [written]
  | cons a es ih =>
    obtain ⟨data, ok, out⟩ := a
    cases ok with
    | false => simp [written]
    | true =>
      simp only [written, List.cons_append, List.takeWhile_cons, if_true, List.map_cons, List.sum_cons,
        List.all_cons, Bool.true_and] at ih ⊢
      rw [ih]
      split_ifs <;> omega

theorem written_le_append (es : List (Str × WriteAnswer)) (e : Str × WriteAnswer) :
    written es ≤ written (es ++ [e]) := by
  rw [written_append]
  split_ifs <;> omega

/-- What holds of a download after the calls `es`. -/
structure Gauged (lengthMax : ℤ) (es : List (Str × WriteAnswer)) (sp : FsRecv) (log : ProgLog) : Prop where
  length_eq : sp.lengthMax = lengthMax
  count_eq : sp.countRecv = written es
  good : sp.spFs.good = es.all (·.2.ok)
  metered : Metered sp.prog log.progs
  last : es ≠ [] → (written es : ℤ) ∈ log.counts ∧ ∃ p, percent (written es) lengthMax = .ok p ∧ p ≤ sp.prog

section
variable {id : Int64} {lengthMax : ℤ} {filename file : Str} {fc fc₀ : FilesChannel}
  {disk disk₀ : Str → Str} {es : List (Str × WriteAnswer)} {sp : FsRecv} {log : ProgLog}

theorem Gauged.opened (lengthMax : ℤ) (filename file : Str) :
    Gauged lengthMax [] ⟨0, 0, lengthMax, filename, .opened file⟩ ⟨[], []⟩ :=
  ⟨rfl, rfl, rfl, .start, fun h => absurd rfl h⟩

/-- The count after a call. -/
theorem Gauged.count_next (h : Gauged lengthMax es sp log) (e : Str × WriteAnswer) :
    (if (sp.spFs.write disk e.1 e.2).1.good then sp.countRecv + e.1.length else sp.countRecv) =
      (written (es ++ [e]) : ℤ) := by
  rw [Ofstream.write_good, h.good, h.count_eq, written_append]
  split_ifs <;> push_cast <;> rfl

/-- A call on an open download: the write, and the percentage of what has arrived. -/
theorem addDataRecv_eq (hsp : fc.mapRecv id = some sp) (h : Gauged lengthMax es sp log)
    (e : Str × WriteAnswer) :
    fc.addDataRecv disk id e.1 e.2 = (percent (written (es ++ [e])) lengthMax).map fun p =>
      ((sp.spFs.write disk e.1 e.2).1.good,
        { fc with mapRecv := Function.update fc.mapRecv id (some { sp with
          spFs := (sp.spFs.write disk e.1 e.2).1
          countRecv := written (es ++ [e])
          prog := if sp.prog < p then p else sp.prog }) },
        (sp.spFs.write disk e.1 e.2).2, if sp.prog < p then some p else none) := by
  unfold FilesChannel.addDataRecv
  simp only [hsp]
  rw [h.count_next e, h.length_eq]
  cases percent (written (es ++ [e])) lengthMax with
  | error f => rfl
  | ok p =>
    simp only [Except.map]
    split_ifs <;> rfl

/-- **The step of a download.** -/
theorem Gauged.call {s s' : FilesChannel × (Str → Str) × ProgLog} {e : Str × WriteAnswer}
    (hsp : s.1.mapRecv id = some sp) (h : Gauged lengthMax es sp s.2.2) (hcall : RecvCall id s e s') :
    ∃ p sp', percent (written (es ++ [e])) lengthMax = .ok p ∧ s'.1.mapRecv id = some sp' ∧
      sp'.prog = (if sp.prog < p then p else sp.prog) ∧
      s'.2.2.counts = s.2.2.counts ++ [(written (es ++ [e]) : ℤ)] ∧
      Gauged lengthMax (es ++ [e]) sp' s'.2.2 := by
  obtain ⟨ok, fc', disk', prog, sp', hadd, hsp', rfl⟩ := hcall
  rw [addDataRecv_eq hsp h e] at hadd
  obtain ⟨p, hp, hadd⟩ := map_eq_ok.1 hadd
  simp only [Prod.mk.injEq] at hadd
  obtain ⟨-, rfl, -, rfl⟩ := hadd
  simp only [Function.update_self, Option.some.injEq] at hsp'
  subst hsp'
  refine ⟨p, _, hp, Function.update_self _ _ _, rfl, rfl, h.length_eq, rfl, ?_, ?_,
    fun _ => ⟨?_, p, hp, ?_⟩⟩
  · rw [Ofstream.write_good, h.good, List.all_append, List.all_cons, List.all_nil, Bool.and_true]
  · have hstep := h.metered.step p
    split_ifs at hstep ⊢ with hlt
    · exact hstep
    · simpa using hstep
  · exact List.mem_append_right _ (List.mem_singleton_self _)
  · dsimp only
    split_ifs with hlt
    · exact le_rfl
    · exact not_lt.1 hlt

theorem exists_recvCall {s : FilesChannel × (Str → Str) × ProgLog} {e : Str × WriteAnswer} {p : ℤ}
    (hsp : s.1.mapRecv id = some sp) (h : Gauged lengthMax es sp s.2.2)
    (hp : percent (written (es ++ [e])) lengthMax = .ok p) : ∃ s', RecvCall id s e s' := by
  have hadd : s.1.addDataRecv s.2.1 id e.1 e.2 = _ := addDataRecv_eq hsp h e
  rw [hp] at hadd
  exact ⟨_, _, _, _, _, _, hadd, Function.update_self _ _ _, rfl⟩

theorem openFileRecv_entry (hopen : fc.openFileRecv disk id lengthMax filename (some file) =
    (true, fc₀, disk₀)) :
    fc₀.mapRecv id = some ⟨0, 0, lengthMax, filename, .opened file⟩ := by
  unfold FilesChannel.openFileRecv at hopen
  split_ifs at hopen
  · cases hopen
  · cases hopen
    exact Function.update_self _ _ _

theorem gauged_of_run (hopen : fc.openFileRecv disk id lengthMax filename (some file) =
      (true, fc₀, disk₀)) {s : FilesChannel × (Str → Str) × ProgLog}
    (hrun : Run (RecvCall id) (fc₀, disk₀, ⟨[], []⟩) es s) :
    ∃ sp, s.1.mapRecv id = some sp ∧ Gauged lengthMax es sp s.2.2 := by
  induction hrun with
  | start => exact ⟨_, openFileRecv_entry hopen, .opened lengthMax filename file⟩
  | next _ hcall ih =>
    obtain ⟨sp, hsp, h⟩ := ih
    obtain ⟨-, sp', -, hsp', -, -, h'⟩ := Gauged.call hsp h hcall
    exact ⟨sp', hsp', h'⟩

/-- The calls on a download that fits. -/
theorem recvCalls_safe (hopen : fc.openFileRecv disk id lengthMax filename (some file) =
      (true, fc₀, disk₀)) (hfits : DownloadFits lengthMax (written es)) :
    ∃ s, Run (RecvCall id) (fc₀, disk₀, ⟨[], []⟩) es s ∧ s.2.2.Safe lengthMax := by
  induction es using List.reverseRecOn with
  | nil => exact ⟨_, .start, by simp, .nil, by simp⟩
  | append_singleton es e ih =>
    obtain ⟨s, hrun, hsafe⟩ := ih (hfits.mono (written_le_append es e))
    obtain ⟨sp, hsp, h⟩ := gauged_of_run hopen hrun
    obtain ⟨hpercent, hhundred⟩ := downloadFits_iff.1 hfits
    obtain ⟨s', hcall⟩ := exists_recvCall hsp h hpercent.percent_eq
    obtain ⟨p, sp', hp, -, hprog, hcounts, h'⟩ := Gauged.call hsp h hcall
    obtain rfl := Except.ok.inj (hpercent.percent_eq.symm.trans hp)
    refine ⟨s', hrun.next hcall, fun c hc => ?_, h'.metered.increasing, h'.metered.percentages ?_⟩
    · rw [hcounts] at hc
      rcases List.mem_append.1 hc with hc | hc
      · exact hsafe.computed c hc
      · rwa [List.mem_singleton.1 hc]
    · rw [hprog]
      split_ifs
      · exact hhundred
      · rcases h.metered.last with h0 | hmem
        · rw [h0]
          exact Int.zero_le_ofNat 100
        · exact (hsafe.percentages _ hmem).2

/-- **Downloads.** -/
theorem download_safe_iff (hopen : fc.openFileRecv disk id lengthMax filename (some file) =
      (true, fc₀, disk₀)) :
    (∃ s, Run (RecvCall id) (fc₀, disk₀, ⟨[], []⟩) es s ∧ s.2.2.Safe lengthMax) ↔
      es = [] ∨ DownloadFits lengthMax (written es) := by
  constructor
  · rintro ⟨s, hrun, hsafe⟩
    refine or_iff_not_imp_left.2 fun hne => downloadFits_iff.2 ?_
    obtain ⟨sp, -, h⟩ := gauged_of_run hopen hrun
    obtain ⟨hmem, p, hp, hle⟩ := h.last hne
    have hpercent := hsafe.computed _ hmem
    obtain rfl := Except.ok.inj (hpercent.percent_eq.symm.trans hp)
    refine ⟨hpercent, hle.trans ?_⟩
    rcases h.metered.last with h0 | hmem
    · rw [h0]
      exact Int.zero_le_ofNat 100
    · exact (hsafe.percentages _ hmem).2
  · rintro (rfl | hfits)
    · exact ⟨_, .start, by simp, .nil, by simp⟩
    · exact recvCalls_safe hopen hfits

end

/-- **Progress is computed safely** on the uploads of a file iff it is not empty and a
    hundred times its length is an `int64`, and on a download iff nothing arrives or
    what arrives fits the announced length. -/
theorem progress_safe_iff {fc fs₀ : FilesChannel} {disk disk₀ : Str → Str} {id : Int64}
    {filename file : Str} (hsend : fc.mapSend id = none) {lengthFile : Int64}
    (hrecv : fc.openFileRecv disk id lengthFile.toInt filename (some file) = (true, fs₀, disk₀))
    (data : Str) (es : List (Str × WriteAnswer)) :
    ((∀ ioError results fuel bs fc₀ s,
        fc.openFileSend id filename (.file data ioError) = .ok (true, fc₀) →
        Run (MeterCall results fuel id) (fc₀, ⟨[], []⟩) bs s →
        s.2.Safe data.length ∧
          addDataSend (meterCb results) meterProg fuel s.1 id s.2 ≠ .error .trap) ↔
      0 < data.length ∧ 100 * data.length < 2 ^ 63) ∧
    ((∃ s, Run (RecvCall id) (fs₀, disk₀, ⟨[], []⟩) es s ∧ s.2.2.Safe lengthFile.toInt) ↔
      es = [] ∨ DownloadFits lengthFile.toInt (written es)) :=
  ⟨upload_safe_iff hsend, download_safe_iff hrecv⟩

/-- A short file, and a download of which one byte too many arrives. -/
theorem progress_safe_iff_hello : ∃ fs₀ disk₀,
    FilesChannel.empty.openFileRecv (fun _ => []) 7 (5 : Int64).toInt (lit "a") (some (lit "f")) =
      (true, fs₀, disk₀) ∧
    ((∀ ioError results fuel bs fc₀ s,
        FilesChannel.empty.openFileSend 7 (lit "a") (.file (lit "hello") ioError) = .ok (true, fc₀) →
        Run (MeterCall results fuel 7) (fc₀, ⟨[], []⟩) bs s →
        s.2.Safe (lit "hello").length ∧
          addDataSend (meterCb results) meterProg fuel s.1 7 s.2 ≠ .error .trap) ↔
      0 < (lit "hello").length ∧ 100 * (lit "hello").length < 2 ^ 63) ∧
    ((∃ s, Run (RecvCall 7) (fs₀, disk₀, ⟨[], []⟩) [(lit "hello!", ⟨true, 0⟩)] s ∧
        s.2.2.Safe (5 : Int64).toInt) ↔
      [(lit "hello!", WriteAnswer.mk true 0)] = [] ∨
        DownloadFits (5 : Int64).toInt (written [(lit "hello!", WriteAnswer.mk true 0)])) :=
  ⟨_, _, rfl, progress_safe_iff rfl rfl (lit "hello") [(lit "hello!", ⟨true, 0⟩)]⟩

/-- An empty file: the first call divides by zero. -/
theorem upload_empty_traps : ∃ fc₀,
    FilesChannel.empty.openFileSend 7 (lit "a") (.file [] none) = .ok (true, fc₀) ∧
      addDataSend (meterCb fun _ => true) meterProg 1 fc₀ 7 ⟨[], []⟩ = .error .trap := by
  obtain ⟨fc₀, hopen⟩ : ∃ fc₀, FilesChannel.empty.openFileSend 7 (lit "a") (.file [] none) =
      .ok (true, fc₀) := ⟨_, rfl⟩
  exact ⟨fc₀, hopen, meterCall_empty hopen _⟩

end SimpleChat
