/-
  The exchange of two clients over SQLite.

  * `call`: what a client does in one event, over any database;
  * `Step`: an event of the exchange, over the files of the two;
  * `exists_rows`: while the users type texts that are data, the exchange is one over the
    tables of rows;
  * `received_was_written`: what a client reports of its peer was written by the peer;
  * `conversation_mirrored`: once everything has been delivered the two report the same
    conversation, and what was written is confirmed.
-/
import SimpleChat.Conversation
import SimpleChat.SqlRefinement

namespace SimpleChat

open Lib Lib.Json Lib.Sql SqliteFile
open QwebClient (noOther refusesSigns_noOther)

/-- The client of an event. -/
def ExchangeEvent.party : ExchangeEvent → Party
  | .send p _ _ _ => p
  | .deliver p _ => p
  | .mark p _ _ => p

namespace SqlExchange

section
variable {ρ δ : Type} (J : JsonLib) (H : HistoryDb δ) (D : ReadingDb δ) (R : RecordDb ρ)
  (account : Party → Int64) (clock : Party → ℕ → Int64)

/-- What the client does. -/
def call (s : Party → QwebClient δ ρ) : ExchangeEvent → Outcome (QwebClient δ ρ)
  | .send p timeTo types content =>
    QwebClient.askSwapMsg J H ⟨account p.other, account p, timeTo, types, content⟩ (s p)
  | .deliver p sjson => QwebClient.slMessage J H R (clock p) sjson (s p)
  | .mark p acFriend sendTime =>
    (D.updateNonRead acFriend sendTime 0 (s p).dbh).map fun r => { s p with dbh := r.2 }

/-- The relay delivers only what it got. -/
def Offered (s : Party → QwebClient δ ρ) : ExchangeEvent → Prop
  | .deliver p sjson => Relays J (s p.other).sent sjson
  | _ => True

end

section
variable {ρ : Type} (J : JsonLib) (R : RecordDb ρ) (other : Str → Database → Result) (canOpen : Str → Bool)
  (account : Party → Int64) (clock : Party → ℕ → Int64)

/-- One event over the files of the two clients; its call returns. -/
def Step (s : Party → QwebClient SqliteFile ρ) (e : ExchangeEvent) (s' : Party → QwebClient SqliteFile ρ) : Prop :=
  Offered J s e ∧ ∃ c, call J (sqlHistory other canOpen) (sqlReading other) R account clock s e = .ok c ∧
    s' = Function.update s e.party c

/-- Nothing was sent yet, and the tables for the peer are empty. -/
def Blank (s : Party → QwebClient SqliteFile ρ) : Prop :=
  ∀ p, (s p).sent = [] ∧ ∃ h, Holds (account p) (s p).dbh h ∧ h (account p.other) = some .empty

end

/-- The users type texts that are data. -/
def SendsData (es : List ExchangeEvent) : Prop :=
  ∀ p timeTo types content, .send p timeTo types content ∈ es → (outgoingRow timeTo types content).IsData

theorem SendsData.left {es fs : List ExchangeEvent} (h : SendsData (es ++ fs)) : SendsData es :=
  fun p timeTo types content hmem => h p timeTo types content (List.mem_append_left _ hmem)

section
variable {ρ : Type} {J : JsonLib} {R : RecordDb ρ} {other : Str → Database → Result} {canOpen : Str → Bool}
  {account : Party → Int64} {clock : Party → ℕ → Int64} {s s' : Party → QwebClient SqliteFile ρ}
  {t t₀ : Exchange ρ} {e : ExchangeEvent} {es : List ExchangeEvent} {p : Party} {ct : CtMsgType}

/-- The clients of the two exchanges differ in their histories only. -/
def Related (account : Party → Int64) (s : Party → QwebClient SqliteFile ρ) (t : Exchange ρ) : Prop :=
  ∀ p, QwebClient.Related (Holds (account p)) (s p) (t p)

theorem Related.update (h : Related account s t) {c : QwebClient SqliteFile ρ} {d : QwebClient Histories ρ}
    (hcd : QwebClient.Related (Holds (account p)) c d) :
    Related account (Function.update s p c) (Function.update t p d) := by
  intro q
  rcases eq_or_ne q p with rfl | hne
  · rw [Function.update_self, Function.update_self]
    exact hcd
  · rw [Function.update_of_ne hne, Function.update_of_ne hne]
    exact h q

/-- An event whose texts are data. -/
def Tame (J : JsonLib) : ExchangeEvent → Prop
  | .send _ timeTo types content => (outgoingRow timeTo types content).IsData
  | .deliver _ sjson => ∀ l ∈ QwebClient.leaves J sjson, TameLeaf J (fun f => 0 ≤ f.toInt) HistoryRow.IsData l
  | .mark _ _ _ => True

/-- **The call of an event** over the file and over the rows. -/
theorem call_alike (hother : RefusesSigns other) (hcan : ∀ p, canOpen (historyPath (account p)) = true)
    (h : Related account s t) (htame : Tame J e) :
    Alike (QwebClient.Related (Holds (account e.party)))
      (call J (sqlHistory other canOpen) (sqlReading other) R account clock s e)
      (call J rowHistory rowReading R account clock t e) := by
  cases e with
  | send p timeTo types content =>
    exact QwebClient.askSwapMsg_alike (sqlHistory_refines hother (hcan p)) (h p) htame
  | deliver p sjson => exact QwebClient.slMessage_alike (sqlHistory_refines hother (hcan p)) (h p) htame
  | mark p acFriend sendTime =>
    have hmark := (sqlReading_refines hother).updateNonRead acFriend sendTime 0 (h p).dbh
    exact hmark.map (S := QwebClient.Related (Holds (account p)))
      (f := fun r => { s p with dbh := r.2 }) (g := fun r => { t p with dbh := r.2 })
      fun _ _ hr => ⟨hr.2, (h p).dbr, (h p).sent, (h p).signals⟩

/-- The events over the rows. -/
theorem step_rows {t' : Exchange ρ} : Exchange.Step J R account clock t e t' ↔
    Offered J t e ∧ ∃ c, call J rowHistory rowReading R account clock t e = .ok c ∧
      t' = Function.update t e.party c := by
  cases e with
  | send p timeTo types content => exact ⟨fun h => ⟨trivial, h⟩, And.right⟩
  | deliver p sjson => exact Iff.rfl
  | mark p acFriend sendTime =>
    refine ⟨fun h => ⟨trivial, _, rfl, h⟩, ?_⟩
    rintro ⟨-, c, hc, rfl⟩
    obtain rfl := Except.ok.inj hc
    rfl

theorem offered_iff (h : Related account s t) : Offered J s e ↔ Offered J t e := by
  cases e with
  | send p timeTo types content => exact Iff.rfl
  | deliver p sjson =>
    show Relays J (s p.other).sent sjson ↔ Relays J (t p.other).sent sjson
    rw [(h p.other).sent]
  | mark p acFriend sendTime => exact Iff.rfl

/-- A type and a content that are data are so for the sender and for the receiver. -/
theorem isData_incoming {timeTo : Int64} {types content : Str} (h : (outgoingRow timeTo types content).IsData) :
    (incomingRow timeTo types content).IsData := by
  rw [HistoryRow.isData_iff (.inr rfl)] at h
  exact (HistoryRow.isData_iff (.inl rfl)).2 h

/-- What is relayed was typed by the users. -/
theorem tame_deliver (h₀ : Exchange.Blank account t₀) (h : Run (Exchange.Step J R account clock) t₀ es t)
    (hdata : SendsData es) {sjson : Str} (hr : Relays J (t p.other).sent sjson) :
    Tame J (.deliver p sjson) := by
  have hinv₀ : Exchange.Inv J account clock t₀ := Exchange.inv_fresh (Exchange.fresh_blank h₀)
  obtain ⟨hinv, fs, hfs, -, -⟩ := Exchange.runs_small hinv₀ h
  obtain ⟨-, htalk⟩ := Exchange.talk_smallRun hinv₀ (Exchange.talk_blank h₀) hfs
  intro l hl
  cases l with
  | error e => trivial
  | ok l =>
    obtain ⟨task, u⟩ := l
    obtain ⟨hsent, hroute⟩ := Exchange.leaves_of_relays hr (fun u hu => (hinv.flying p.other u hu).route) (task, u) hl
    cases hinv.flying p.other u hsent with
    | @msg m hset =>
      rw [Exchange.route_swapMsg hset] at hroute
      obtain rfl := Option.some.inj (Except.ok.inj hroute)
      intro m' hm'
      obtain rfl := Option.some.inj (Except.ok.inj ((MsgType.get_set J (T := .swapMsg) hset).symm.trans hm'))
      have hwritten := htalk.written p.other u hsent m hset
      exact isData_incoming (hdata _ _ _ _ (Exchange.written_was_sent h₀ h p.other hwritten rfl))
    | back hset =>
      rw [Exchange.route_swapMsgBack hset] at hroute
      obtain rfl := Option.some.inj (Except.ok.inj hroute)
      trivial

theorem tame_of_run (h₀ : Exchange.Blank account t₀) (h : Run (Exchange.Step J R account clock) t₀ es t)
    (hdata : SendsData (es ++ [e])) (hoffered : Offered J t e) : Tame J e := by
  cases e with
  | send p timeTo types content => exact hdata p timeTo types content (by simp)
  | deliver p sjson => exact tame_deliver h₀ h hdata.left hoffered
  | mark p acFriend sendTime => trivial

/-- **An exchange over SQLite** is one over the tables of rows. -/
theorem exists_rows (hother : RefusesSigns other) (hcan : ∀ p, canOpen (historyPath (account p)) = true)
    (h₀ : Exchange.Blank account t₀) (hrelated : Related account s t₀)
    (h : Run (Step J R other canOpen account clock) s es s') (hdata : SendsData es) :
    ∃ t, Run (Exchange.Step J R account clock) t₀ es t ∧ Related account s' t := by
  induction h with
  | start => exact ⟨t₀, .start, hrelated⟩
  | @next es s₁ s₂ e _ hstep ih =>
    obtain ⟨t, hrun, ht⟩ := ih hdata.left
    obtain ⟨hoffered, c, hc, rfl⟩ := hstep
    have hoffered' := (offered_iff ht).1 hoffered
    have halike : Alike _ _ (call J rowHistory rowReading R account clock t e) :=
      call_alike hother hcan ht (tame_of_run h₀ hrun hdata hoffered')
    rw [hc] at halike
    obtain ⟨d, hd, hcd⟩ := halike.ok_right
    exact ⟨_, hrun.next (step_rows.2 ⟨hoffered', d, hd, rfl⟩), ht.update hcd⟩

/-- And the other way round. -/
theorem exists_files (hother : RefusesSigns other) (hcan : ∀ p, canOpen (historyPath (account p)) = true)
    (h₀ : Exchange.Blank account t₀) (hrelated : Related account s t₀)
    (h : Run (Exchange.Step J R account clock) t₀ es t) (hdata : SendsData es) :
    ∃ s', Run (Step J R other canOpen account clock) s es s' ∧ Related account s' t := by
  induction h with
  | start => exact ⟨s, .start, hrelated⟩
  | @next es t₁ t₂ e hrun hstep ih =>
    obtain ⟨s₁, hrun', hs₁⟩ := ih hdata.left
    obtain ⟨hoffered, d, hd, rfl⟩ := step_rows.1 hstep
    have halike : Alike _ (call J (sqlHistory other canOpen) (sqlReading other) R account clock s₁ e) _ :=
      call_alike hother hcan hs₁ (tame_of_run h₀ hrun hdata hoffered)
    rw [hd] at halike
    obtain ⟨c, hc, hcd⟩ := halike.exists_ok
    exact ⟨_, hrun'.next ⟨(offered_iff hs₁).2 hoffered, c, hc, rfl⟩, hs₁.update hcd⟩

/-- The exchange over the rows that the tables hold. -/
theorem exists_blank (h : Blank account s) : ∃ t, Exchange.Blank account t ∧ Related account s t := by
  choose hsent g hg hempty using h
  exact ⟨fun p => ⟨g p, (s p).dbr, (s p).sent, (s p).signals⟩, fun p => ⟨hsent p, hempty p⟩,
    fun p => ⟨hg p, rfl, rfl, rfl⟩⟩

/-- What a client reports is in its table. -/
theorem Related.reported (hother : RefusesSigns other) (h : Related account s t) (p : Party) :
    SqliteFile.reported other (account p.other) (s p).dbh = (Exchange.table account t p).messages :=
  (h p).dbh.reported hother _

/-- **A client reports no message of its peer that the peer did not write**, with this
    time, type and content, in every state of every exchange of texts that are data. -/
theorem received_was_written (hother : RefusesSigns other)
    (hcan : ∀ p, canOpen (historyPath (account p)) = true) (h₀ : Blank account s)
    (h : Run (Step J R other canOpen account clock) s es s') (hdata : SendsData es) (p : Party)
    (hct : ct ∈ SqliteFile.reported other (account p.other) (s' p).dbh) (hobject : ct.object = objectAL) :
    { ct with object := objectAR } ∈ SqliteFile.reported other (account p) (s' p.other).dbh := by
  obtain ⟨t₀, ht₀, hrelated₀⟩ := exists_blank h₀
  obtain ⟨t, hrun, hrelated⟩ := exists_rows hother hcan ht₀ hrelated₀ h hdata
  have hpeer := hrelated.reported hother p.other
  rw [p.other_other] at hpeer
  rw [hrelated.reported hother p] at hct
  rw [hpeer]
  exact Exchange.quoted_of_run ht₀ hrun p hct hobject

/-- **The conversation agrees**: once the relay has delivered everything, a client reports
    the mirror image of what its peer reports, and every message that was written is
    marked with a time at which the peer answered it; the users must type texts that are
    data, and no messages of the same time. -/
theorem conversation_mirrored (hother : RefusesSigns other)
    (hcan : ∀ p, canOpen (historyPath (account p)) = true) (h₀ : Blank account s)
    (h : Run (Step J R other canOpen account clock) s es s') (hdata : SendsData es)
    (hsettled : Exchange.Settled J es s')
    (htimes : ∀ x ∈ SqliteFile.reported other (account .b) (s' .a).dbh,
      ∀ y ∈ SqliteFile.reported other (account .a) (s' .b).dbh,
        x.object = objectAR → y.object = objectAR → x.time ≠ y.time) (p : Party) :
    SqliteFile.reported other (account p) (s' p.other).dbh =
        (SqliteFile.reported other (account p.other) (s' p).dbh).map CtMsgType.mirrored ∧
      ∀ r ∈ reportedRows other (account p.other) (s' p).dbh, r.object = objectAR →
        Exchange.Produced J account clock s' p.other r.sendTime r.feedBack := by
  obtain ⟨t₀, ht₀, hrelated₀⟩ := exists_blank h₀
  obtain ⟨t, hrun, hrelated⟩ := exists_rows hother hcan ht₀ hrelated₀ h hdata
  have hsettled' : Exchange.Settled J es t := by
    intro q u hu
    rw [← (hrelated q).sent] at hu
    exact hsettled q u hu
  have ha : SqliteFile.reported other (account .b) (s' .a).dbh = (Exchange.table account t .a).messages :=
    hrelated.reported hother .a
  have hb : SqliteFile.reported other (account .a) (s' .b).dbh = (Exchange.table account t .b).messages :=
    hrelated.reported hother .b
  rw [ha, hb] at htimes
  obtain ⟨hmirror, hconfirmed⟩ := Exchange.mirrored_of_run ht₀ hrun hsettled' htimes p
  have hpeer := hrelated.reported hother p.other
  rw [p.other_other] at hpeer
  refine ⟨?_, fun r hr hAR => ?_⟩
  · rw [hpeer, hrelated.reported hother p, hmirror]
  · have hrows : reportedRows other (account p.other) (s' p).dbh = (Exchange.table account t p).rows :=
      (hrelated p).dbh.reportedRows hother _
    rw [hrows] at hr
    have hproduced := hconfirmed r hr hAR
    unfold Exchange.Produced at hproduced ⊢
    rw [(hrelated p.other).sent, (hrelated p.other).signals]
    exact hproduced

end

/-- The two clients behind the creation of their tables, over their files and over rows. -/
def started (p : Party) : QwebClient SqliteFile Unit :=
  ⟨emptyFor (Exchange.accountOf p) (Exchange.accountOf p.other), (), [], []⟩

def startedRows : Exchange Unit := fun p =>
  ⟨Function.update (fun _ => none) (Exchange.accountOf p.other) (some .empty), (), [], []⟩

theorem holds_started (p : Party) : Holds (Exchange.accountOf p) (started p).dbh (startedRows p).dbh := by
  refine holds_emptyFor _ ?_
  cases p with
  | a => decide
  | b => decide

theorem blank_startedRows : Exchange.Blank Exchange.accountOf startedRows := by
  intro p
  have htable : (startedRows p).dbh =
      Function.update (fun _ => none) (Exchange.accountOf p.other) (some .empty) := rfl
  refine ⟨rfl, ?_⟩
  rw [htable, Function.update_self]

theorem blank_started : Blank Exchange.accountOf started :=
  fun p => ⟨rfl, _, holds_started p, (blank_startedRows p).2⟩

open Exchange in
/-- A message is sent, delivered and confirmed: nothing is on its way any more. -/
theorem exists_settled : ∃ t u s,
    Run (Step jsonText QwebClient.noRecords noOther (fun _ => true) accountOf fun _ _ => 9) started
      [.send .a 7 (lit "Text") (lit "hi"), .deliver .b t, .deliver .a u] s ∧
    SendsData [.send .a 7 (lit "Text") (lit "hi"), .deliver .b t, .deliver .a u] ∧
    Settled jsonText [.send .a 7 (lit "Text") (lit "hi"), .deliver .b t, .deliver .a u] s ∧
    SqliteFile.reported noOther 2 (s .a).dbh = [⟨7, lit "Text", objectAR, lit "hi"⟩] ∧
    SqliteFile.reported noOther 1 (s .b).dbh = [⟨7, lit "Text", objectAL, lit "hi"⟩] := by
  obtain ⟨t, ht⟩ := MsgType.exists_set jsonText .swapMsg hello (by decide)
  obtain ⟨u, hu, hmsg⟩ := QwebClient.swapMsg_row jsonText (fun _ => 9) hello (startedRows .b)
  have hask : QwebClient.askSwapMsg jsonText rowHistory hello (startedRows .a) =
      .ok ⟨((startedRows .a).dbh.insertHistory 2 (outgoingRow 7 (lit "Text") (lit "hi"))).2, (), [t], []⟩ := by
    refine bind_eq_ok.2 ⟨(true, _), QwebClient.onHistory_eq_ok.2 ⟨_, rfl, rfl⟩, ?_⟩
    exact bind_eq_ok.2 ⟨t, ht, rfl⟩
  have hrun : Run (Exchange.Step jsonText QwebClient.noRecords accountOf fun _ _ => 9) startedRows
      [.send .a 7 (lit "Text") (lit "hi"), .deliver .b t, .deliver .a u] _ :=
    ((Run.start.next ⟨_, hask, rfl⟩).next
      ⟨.live (List.mem_singleton_self t), _, (QwebClient.slMessage_swapMsg ht _).trans hmsg, rfl⟩).next
        ⟨.live (List.mem_singleton_self u), _, slMessage_swapMsgBack hu _ _, rfl⟩
  have hdata : SendsData [.send .a 7 (lit "Text") (lit "hi"), .deliver .b t, .deliver .a u] := by
    intro p timeTo types content hmem
    rcases List.mem_cons.1 hmem with heq | hmem
    · obtain ⟨-, rfl, rfl, rfl⟩ := ExchangeEvent.send.inj heq
      exact ⟨by decide +kernel, by decide +kernel⟩
    · simp at hmem
  have hrelated₀ : Related accountOf started startedRows := fun p => ⟨holds_started p, rfl, rfl, rfl⟩
  have hfiles : ∃ s, Run (Step jsonText QwebClient.noRecords noOther (fun _ => true) accountOf fun _ _ => 9) started
      [.send .a 7 (lit "Text") (lit "hi"), .deliver .b t, .deliver .a u] s ∧ Related accountOf s _ :=
    exists_files refusesSigns_noOther (fun _ => rfl) blank_startedRows hrelated₀ hrun hdata
  obtain ⟨s, hs, hrelated⟩ := hfiles
  -- the tables at the end
  have ha : (((((startedRows .a).dbh.insertHistory 2 (outgoingRow 7 (lit "Text") (lit "hi"))).2.updateFeedBack
      2 7 9).2).table 2).messages = [⟨7, lit "Text", objectAR, lit "hi"⟩] := by decide +kernel
  have hb : (((startedRows .b).dbh.insertHistory 1 hello.row).2.table 1).messages =
      [⟨7, lit "Text", objectAL, lit "hi"⟩] := by decide +kernel
  refine ⟨t, u, s, hs, hdata, fun p v hv => ?_, (hrelated.reported refusesSigns_noOther .a).trans ha,
    (hrelated.reported refusesSigns_noOther .b).trans hb⟩
  rw [(hrelated p).sent] at hv
  cases p with
  | a =>
    obtain rfl : v = t := List.mem_singleton.1 hv
    refine ⟨v, .swapMsg, by simp [Party.other], ?_⟩
    rw [QwebClient.leaves_of_task (route_swapMsg ht) (by decide)]
    exact List.mem_singleton_self _
  | b =>
    obtain rfl : v = u := List.mem_singleton.1 hv
    refine ⟨v, .swapMsgBack, by simp [Party.other], ?_⟩
    rw [QwebClient.leaves_of_task (route_swapMsgBack hu) (by decide)]
    exact List.mem_singleton_self _

theorem received_was_written_hello : ∃ t u s,
    Run (Step jsonText QwebClient.noRecords noOther (fun _ => true) Exchange.accountOf fun _ _ => 9) started
      [.send .a 7 (lit "Text") (lit "hi"), .deliver .b t, .deliver .a u] s ∧
    ⟨7, lit "Text", objectAR, lit "hi"⟩ ∈ SqliteFile.reported noOther 2 (s .a).dbh := by
  obtain ⟨t, u, s, hrun, hdata, -, -, hb⟩ := exists_settled
  have hct : ⟨7, lit "Text", objectAL, lit "hi"⟩ ∈ SqliteFile.reported noOther 1 (s .b).dbh := by
    rw [hb]
    exact List.mem_singleton_self _
  exact ⟨t, u, s, hrun,
    received_was_written refusesSigns_noOther (fun _ => rfl) blank_started hrun hdata .b hct rfl⟩

theorem conversation_mirrored_hello : ∃ t u s,
    Run (Step jsonText QwebClient.noRecords noOther (fun _ => true) Exchange.accountOf fun _ _ => 9) started
      [.send .a 7 (lit "Text") (lit "hi"), .deliver .b t, .deliver .a u] s ∧
    SqliteFile.reported noOther 1 (s .b).dbh =
      (SqliteFile.reported noOther 2 (s .a).dbh).map CtMsgType.mirrored := by
  obtain ⟨t, u, s, hrun, hdata, hsettled, ha, hb⟩ := exists_settled
  refine ⟨t, u, s, hrun, (conversation_mirrored refusesSigns_noOther (fun _ => rfl) blank_started hrun hdata
    hsettled ?_ .a).1⟩
  intro x _ y hy _ hAR
  have hy' : y ∈ SqliteFile.reported noOther 1 (s .b).dbh := hy
  rw [hb, List.mem_singleton] at hy'
  rw [hy'] at hAR
  exact absurd hAR Exchange.objectAR_ne_objectAL.symm

end SqlExchange

end SimpleChat
