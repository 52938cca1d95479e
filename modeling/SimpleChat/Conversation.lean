/-
  What the two clients of an exchange know of their conversation.

  * `SmallStep`, `runs_small`: the texts that reach a client one by one, also those that
    the relay cached;
  * `Effect`: all that one of them can do;
  * `Talk`: what a client got is what its peer wrote; `quoted_of_run`: so it is in every
    state of every exchange; `written_was_sent`: what a client wrote its user sent;
  * `Done`: what a message and a receipt leave behind when they were delivered;
  * `mirrored_of_run`: once everything has been delivered the two tables mirror each
    other, and what was written is confirmed.
-/
import SimpleChat.Receipts

namespace SimpleChat

open Lib Lib.Json

/-- The message as the peer has it. -/
def CtMsgType.mirrored (ct : CtMsgType) : CtMsgType :=
  { ct with object := if ct.object = objectAR then objectAL else objectAR }

namespace CtMsgType

variable {ct : CtMsgType}

theorem mirrored_sent (h : ct.object = objectAR) : ct.mirrored = { ct with object := objectAL } := by
  rw [mirrored, if_pos h]

theorem mirrored_received (h : ct.object = objectAL) : ct.mirrored = { ct with object := objectAR } := by
  rw [mirrored, h, if_neg Exchange.objectAR_ne_objectAL.symm]

theorem mirrored_mirrored (h : ct.object = objectAR ∨ ct.object = objectAL) : ct.mirrored.mirrored = ct := by
  rcases h with h | h
  · rw [mirrored_sent h, mirrored_received rfl, ← h]
  · rw [mirrored_received h, mirrored_sent rfl, ← h]

end CtMsgType

namespace Exchange

section
variable {ρ : Type} (J : JsonLib) (R : RecordDb ρ) (account : Party → Int64) (clock : Party → ℕ → Int64)

/-- Nothing was sent yet, and the tables for the peer are empty. -/
def Blank (s : Exchange ρ) : Prop :=
  ∀ p, (s p).sent = [] ∧ (s p).dbh (account p.other) = some .empty

/-- The relay has delivered every text that was sent. -/
def Settled {δ : Type} (es : List ExchangeEvent) (s : Party → QwebClient δ ρ) : Prop :=
  ∀ p, ∀ t ∈ (s p).sent, ∃ sjson task, .deliver p.other sjson ∈ es ∧
    .ok (task, t) ∈ QwebClient.leaves J sjson

/-! ## Single texts -/

/-- One event, where the texts are delivered one by one. -/
def SmallStep (s : Exchange ρ) (e : ExchangeEvent) (s' : Exchange ρ) : Prop :=
  match e with
  | .deliver p t => t ∈ (s p.other).sent ∧ ∃ task c, QwebClient.route J t = .ok (some task) ∧
      QwebClient.runTask J rowHistory R (clock p) task t (s p) = .ok c ∧ s' = Function.update s p c
  | e => Step J R account clock s e s'

variable {J R account clock}
variable {s s' : Exchange ρ} {p q : Party} {c : QwebClient Histories ρ} {e : ExchangeEvent}
  {es fs : List ExchangeEvent} {t : Str} {ct : CtMsgType} {k : Int64}

/-- **A received text** is delivered message by message. -/
theorem run_leaves {ls : List (Outcome (Task × Str))}
    (hls : ∀ l, .ok l ∈ ls → l.2 ∈ (s p.other).sent ∧ QwebClient.route J l.2 = .ok (some l.1))
    (h : ls.foldlM (QwebClient.runLeaf J rowHistory R (clock p)) (s p) = .ok c) :
    ∃ ts : List Str, Run (SmallStep J R account clock) s (ts.map (.deliver p)) (Function.update s p c) ∧
      ∀ l, .ok l ∈ ls → l.2 ∈ ts := by
  induction ls generalizing s with
  | nil =>
    obtain rfl := Except.ok.inj h
    rw [Function.update_eq_self]
    exact ⟨[], .start, fun _ hl => absurd hl List.not_mem_nil⟩
  | cons leaf ls ih =>
    rw [List.foldlM_cons] at h
    obtain ⟨c₁, h₁, htail⟩ := bind_eq_ok.1 h
    obtain ⟨l, rfl, hrun⟩ := bind_eq_ok.1 h₁
    obtain ⟨hsent, hroute⟩ := hls l List.mem_cons_self
    have hrest : ∀ l, .ok l ∈ ls → l.2 ∈ (Function.update s p c₁ p.other).sent ∧
        QwebClient.route J l.2 = .ok (some l.1) := by
      intro l hl
      rw [Function.update_of_ne p.other_ne]
      exact hls l (List.mem_cons_of_mem _ hl)
    obtain ⟨ts, hts, hall⟩ := ih hrest (by rw [Function.update_self]; exact htail)
    rw [Function.update_idem] at hts
    have hstep : SmallStep J R account clock s (.deliver p l.2) (Function.update s p c₁) :=
      ⟨hsent, l.1, c₁, hroute, hrun, rfl⟩
    refine ⟨l.2 :: ts, (Run.start.next hstep).trans hts, fun l' hl' => ?_⟩
    rcases List.mem_cons.1 hl' with heq | hl'
    · obtain rfl := Except.ok.inj heq
      exact List.mem_cons_self
    · exact List.mem_cons_of_mem _ (hall l' hl')

/-- The texts that reach a client in one event. -/
theorem exists_smallRun {sjson : Str} (hinv : Inv J account clock s) (hr : Relays J (s p.other).sent sjson)
    (h : QwebClient.slMessage J rowHistory R (clock p) sjson (s p) = .ok c) :
    ∃ ts : List Str, Run (SmallStep J R account clock) s (ts.map (.deliver p)) (Function.update s p c) ∧
      ∀ l, .ok l ∈ QwebClient.leaves J sjson → l.2 ∈ ts := by
  rw [QwebClient.slMessage_eq] at h
  exact run_leaves (leaves_of_relays hr fun t ht => (hinv.flying p.other t ht).route) h

/-- **An exchange** is one of single texts, with the same messages of the users. -/
theorem runs_small {s₀ : Exchange ρ} (hinv : Inv J account clock s₀)
    (h : Run (Step J R account clock) s₀ es s) :
    Inv J account clock s ∧ ∃ fs, Run (SmallStep J R account clock) s₀ fs s ∧
      (∀ p sjson, .deliver p sjson ∈ es → ∀ l, .ok l ∈ QwebClient.leaves J sjson → .deliver p l.2 ∈ fs) ∧
      ∀ p timeTo types content, .send p timeTo types content ∈ fs → .send p timeTo types content ∈ es := by
  induction h with
  | start => exact ⟨hinv, [], .start, fun _ _ h => absurd h List.not_mem_nil, fun _ _ _ _ h => h⟩
  | @next es s s' e _ hstep ih =>
    obtain ⟨hs, fs, hfs, hall, hsends⟩ := ih
    -- an event that is no delivery is one of the single texts as well
    have hsame : ∀ {e}, (∀ p sjson, e ≠ .deliver p sjson) → SmallStep J R account clock s e s' →
        ∃ fs, Run (SmallStep J R account clock) s₀ fs s' ∧
          (∀ p sjson, .deliver p sjson ∈ es ++ [e] → ∀ l, .ok l ∈ QwebClient.leaves J sjson → .deliver p l.2 ∈ fs) ∧
          ∀ p timeTo types content, .send p timeTo types content ∈ fs → .send p timeTo types content ∈ es ++ [e] := by
      intro e hne hsmall
      refine ⟨fs ++ [e], hfs.next hsmall, fun q sjson hmem l hl => ?_, fun q timeTo types content hmem => ?_⟩
      · rcases List.mem_append.1 hmem with hold | hnew
        · exact List.mem_append_left _ (hall q sjson hold l hl)
        · exact absurd (List.mem_singleton.1 hnew).symm (hne q sjson)
      · rcases List.mem_append.1 hmem with hold | hnew
        · exact List.mem_append_left _ (hsends q timeTo types content hold)
        · exact List.mem_append_right _ hnew
    refine ⟨inv_step hs hstep, ?_⟩
    cases e with
    | deliver p sjson =>
      obtain ⟨hr, c, hc, rfl⟩ := hstep
      obtain ⟨ts, hts, hleaves⟩ := exists_smallRun hs hr hc
      refine ⟨fs ++ ts.map (.deliver p), hfs.trans hts, fun q sjson' hmem l hl => ?_,
        fun q timeTo types content hmem => ?_⟩
      · rcases List.mem_append.1 hmem with hold | hnew
        · exact List.mem_append_left _ (hall q sjson' hold l hl)
        · obtain ⟨rfl, rfl⟩ := ExchangeEvent.deliver.inj (List.mem_singleton.1 hnew)
          exact List.mem_append_right _ (List.mem_map_of_mem (hleaves l hl))
      · rcases List.mem_append.1 hmem with hold | hnew
        · exact List.mem_append_left _ (hsends q timeTo types content hold)
        · obtain ⟨t, -, ht⟩ := List.mem_map.1 hnew
          cases ht
    | send p timeTo types content =>
      have hsmall : SmallStep J R account clock s (.send p timeTo types content) s' := hstep
      exact hsame (fun _ _ h => by cases h) hsmall
    | mark p acFriend sendTime =>
      have hsmall : SmallStep J R account clock s (.mark p acFriend sendTime) s' := hstep
      exact hsame (fun _ _ h => by cases h) hsmall

/-! ## Effects -/

variable (J account clock)

/-- What an event can do to a client. -/
inductive Effect (s : Exchange ρ) (p : Party) : ExchangeEvent → QwebClient Histories ρ → Prop
  /-- A message is put in the table, and sent. -/
  | wrote {timeTo : Int64} {types content t : Str} {d : Histories} :
      (s p).dbh.insertHistory (account p.other) (outgoingRow timeTo types content) = (true, d) →
      setSwapMsg J ⟨account p.other, account p, timeTo, types, content⟩ = .ok t →
      Effect s p (.send p timeTo types content) { s p with dbh := d, sent := (s p).sent ++ [t] }
  /-- It cannot be put in the table, and is not sent. -/
  | refused {timeTo : Int64} {types content : Str} : Effect s p (.send p timeTo types content) (s p)
  /-- A message of the peer is put in the table if it can be, and answered. -/
  | got {m : SwapMsg} {t back : Str} : setSwapMsg J m = .ok t → t ∈ (s p.other).sent →
      setSwapMsgBack J ⟨m.source, m.target, m.timeTo, clock p (s p).sent.length⟩ = .ok back →
      Effect s p (.deliver p t) { s p with
        dbh := ((s p).dbh.insertHistory (account p.other) m.row).2
        signals := (s p).signals ++ [.recvMsg m]
        sent := (s p).sent ++ [back] }
  /-- A receipt of the peer marks the row of its message. -/
  | confirmed {m : SwapMsgBack} {t : Str} : setSwapMsgBack J m = .ok t → HasSent account s p m.timeTo →
      Produced J account clock s p.other m.timeTo m.timeOk →
      Effect s p (.deliver p t)
        { s p with dbh := ((s p).dbh.updateFeedBack (account p.other) m.timeTo m.timeOk).2 }
  | marked {acFriend sendTime : Int64} :
      Effect s p (.mark p acFriend sendTime) { s p with dbh := ((s p).dbh.markRead acFriend sendTime).2 }

variable {J account clock}

theorem insertHistory_false {h d : Histories} {f : Int64} {r : HistoryRow}
    (hins : h.insertHistory f r = (false, d)) : d = h := by
  unfold Histories.insertHistory Histories.onTable at hins
  split at hins
  · cases (congrArg Prod.fst hins : true = false)
  · exact (congrArg Prod.snd hins).symm

/-- **All that a step can do.** -/
theorem effect_of_smallStep (hinv : Inv J account clock s) (h : SmallStep J R account clock s e s') :
    ∃ p c, Effect J account clock s p e c ∧ s' = Function.update s p c := by
  cases e with
  | send p timeTo types content =>
    obtain ⟨c, hc, rfl⟩ := h
    obtain ⟨b, d, hins, ⟨rfl, rfl⟩ | ⟨rfl, t, hset, rfl⟩⟩ := askSwapMsg_eq_ok hc
    · obtain rfl := insertHistory_false hins
      exact ⟨p, _, .refused, rfl⟩
    · exact ⟨p, _, .wrote hins hset, rfl⟩
  | mark p acFriend sendTime => exact ⟨p, _, .marked, h⟩
  | deliver p t =>
    obtain ⟨hsent, task, c, hroute, hrun, rfl⟩ := h
    cases hinv.flying p.other t hsent with
    | @msg m hset hsource htarget hrow =>
      rw [route_swapMsg hset] at hroute
      obtain rfl := Option.some.inj (Except.ok.inj hroute)
      have hget : getSwapMsg J t = .ok (some m) := MsgType.get_set J (T := .swapMsg) hset
      have hm : QwebClient.swapMsg J rowHistory (clock p) m (s p) = .ok c :=
        (QwebClient.handled_some hget _ _).symm.trans hrun
      obtain ⟨b, d, back, hins, hback, rfl⟩ := QwebClient.swapMsg_eq_ok hm
      have hd : ((s p).dbh.insertHistory (account p.other) m.row).2 = d := by
        rw [← hsource]
        exact congrArg Prod.snd (Except.ok.inj hins)
      exact ⟨p, _, .got hset hsent hback, by rw [hd]⟩
    | @back m hset hsource htarget hrow hproduced =>
      rw [route_swapMsgBack hset] at hroute
      obtain rfl := Option.some.inj (Except.ok.inj hroute)
      have hget : getSwapMsgBack J t = .ok (some m) := MsgType.get_set J (T := .swapMsgBack) hset
      have hm : QwebClient.swapMsgBack rowHistory m (s p) = .ok c :=
        (QwebClient.handled_some hget _ _).symm.trans hrun
      obtain rfl : { s p with dbh := ((s p).dbh.updateFeedBack m.source m.timeTo m.timeOk).2 } = c :=
        Except.ok.inj hm
      rw [p.other_other] at hrow
      refine ⟨p, _, ?_, rfl⟩
      rw [hsource]
      exact .confirmed hset hrow hproduced

theorem Effect.grows (h : Effect J account clock s p e c) : Grows (s p) c := by
  cases h with
  | @wrote timeTo types content t d hins hset =>
    have hlater := Histories.later_insertHistory (s p).dbh (account p.other) (outgoingRow timeTo types content)
    rw [hins] at hlater
    exact ⟨List.prefix_append _ _, List.prefix_rfl, hlater⟩
  | refused => exact .refl _
  | got => exact ⟨List.prefix_append _ _, List.prefix_append _ _, Histories.later_insertHistory _ _ _⟩
  | confirmed => exact ⟨List.prefix_rfl, List.prefix_rfl, Histories.later_updateFeedBack _ _ _ _⟩
  | marked => exact ⟨List.prefix_rfl, List.prefix_rfl, Histories.later_markRead _ _ _⟩

/-! ## Messages -/

section
variable {h h' : Histories} {f g v : Int64} {tup : HistoryRow}

theorem messages_later (hl : h.Later h') (hct : ct ∈ (h.table f).messages) : ct ∈ (h'.table f).messages := by
  cases hf : h f with
  | none =>
    rw [Histories.table_of_none hf] at hct
    exact absurd hct List.not_mem_nil
  | some t =>
    obtain ⟨t', ht', hlt⟩ := hl f t hf
    rw [Histories.table_of_some hf] at hct
    rw [Histories.table_of_some ht']
    exact hlt.mem_messages hct

theorem messages_updateFeedBack : ((h.updateFeedBack f k v).2.table g).messages = (h.table g).messages := by
  rcases eq_or_ne g f with rfl | hne
  · rw [Histories.updateFeedBack, table_onTable rfl, HistoryTable.messages_updateFeedBack]
  · rw [Histories.updateFeedBack, table_onTable_of_ne hne]

theorem messages_markRead : ((h.markRead f k).2.table g).messages = (h.table g).messages := by
  rcases eq_or_ne g f with rfl | hne
  · rw [Histories.markRead, table_onTable rfl, HistoryTable.messages_markRead]
  · rw [Histories.markRead, table_onTable_of_ne hne]

end

variable (J account)

/-- The text of a message that the user wrote. -/
def toPeer (p : Party) (ct : CtMsgType) : SwapMsg := ⟨account p.other, account p, ct.time, ct.types, ct.content⟩

/-- **The invariant of the messages.** -/
structure Talk (s : Exchange ρ) : Prop where
  kinds : ∀ p, ∀ ct ∈ (table account s p).messages, ct.object = objectAR ∨ ct.object = objectAL
  /-- What was written was sent. -/
  offered : ∀ p, ∀ ct ∈ (table account s p).messages, ct.object = objectAR →
    ∃ t ∈ (s p).sent, setSwapMsg J (toPeer account p ct) = .ok t
  /-- What was sent was written. -/
  written : ∀ p, ∀ t ∈ (s p).sent, ∀ m, setSwapMsg J m = .ok t →
    ⟨m.timeTo, m.types, objectAR, m.content⟩ ∈ (table account s p).messages
  quoted : ∀ p, ∀ ct ∈ (table account s p).messages, ct.object = objectAL →
    { ct with object := objectAR } ∈ (table account s p.other).messages

variable {J account}

theorem table_update (s : Exchange ρ) (p : Party) (c : QwebClient Histories ρ) :
    table account (Function.update s p c) p = c.dbh.table (account p.other) := by
  rw [table, Function.update_self]

theorem table_update_of_ne (h : q ≠ p) : table account (Function.update s p c) q = table account s q := by
  rw [table, Function.update_of_ne h, ← table]

/-- Messages stay. -/
theorem messages_grow (hg : Grows (s p) c) (q : Party) (hct : ct ∈ (table account s q).messages) :
    ct ∈ (table account (Function.update s p c) q).messages :=
  messages_later (grows_update hg q).later hct

/-- **The invariant rule**: one client changes; its new messages were written, and sent, or
    are of the peer. -/
theorem talk_update (htalk : Talk J account s) (hg : Grows (s p) c)
    (hnew : ∀ ct ∈ (c.dbh.table (account p.other)).messages, ct ∈ (table account s p).messages ∨
      (ct.object = objectAR ∧ ∃ t ∈ c.sent, setSwapMsg J (toPeer account p ct) = .ok t) ∨
      (ct.object = objectAL ∧ { ct with object := objectAR } ∈ (table account s p.other).messages))
    (hsent : ∀ t ∈ c.sent, t ∈ (s p).sent ∨ ∀ m, setSwapMsg J m = .ok t →
      ⟨m.timeTo, m.types, objectAR, m.content⟩ ∈ (c.dbh.table (account p.other)).messages) :
    Talk J account (Function.update s p c) := by
  have hkeep : ∀ q, ∀ t ∈ (s q).sent, t ∈ (Function.update s p c q).sent :=
    fun q t ht => (grows_update hg q).sent.subset ht
  -- a message is one that was there, or a new one of the client
  have hcases : ∀ q, ∀ ct ∈ (table account (Function.update s p c) q).messages,
      ct ∈ (table account s q).messages ∨ q = p ∧
        ((ct.object = objectAR ∧ ∃ t ∈ c.sent, setSwapMsg J (toPeer account p ct) = .ok t) ∨
        (ct.object = objectAL ∧ { ct with object := objectAR } ∈ (table account s p.other).messages)) := by
    intro q ct hct
    rcases eq_or_ne q p with rfl | hne
    · rw [table_update] at hct
      exact (hnew ct hct).imp_right fun h => ⟨rfl, h⟩
    · rw [table_update_of_ne hne] at hct
      exact Or.inl hct
  constructor
  · intro q ct hct
    rcases hcases q ct hct with hold | ⟨-, ⟨h, -⟩ | ⟨h, -⟩⟩
    · exact htalk.kinds q ct hold
    · exact Or.inl h
    · exact Or.inr h
  · intro q ct hct hAR
    rcases hcases q ct hct with hold | ⟨rfl, ⟨-, h⟩ | ⟨h, -⟩⟩
    · obtain ⟨t, ht, hset⟩ := htalk.offered q ct hold hAR
      exact ⟨t, hkeep q t ht, hset⟩
    · rw [Function.update_self]
      exact h
    · exact absurd (hAR.symm.trans h) objectAR_ne_objectAL
  · intro q t ht m hset
    rcases eq_or_ne q p with rfl | hne
    · rw [Function.update_self] at ht
      rcases hsent t ht with hold | hnew
      · exact messages_grow hg q (htalk.written q t hold m hset)
      · rw [table_update]
        exact hnew m hset
    · rw [Function.update_of_ne hne] at ht
      exact messages_grow hg q (htalk.written q t ht m hset)
  · intro q ct hct hAL
    rcases hcases q ct hct with hold | ⟨rfl, ⟨h, -⟩ | ⟨-, h⟩⟩
    · exact messages_grow hg q.other (htalk.quoted q ct hold hAL)
    · exact absurd (h.symm.trans hAL) objectAR_ne_objectAL
    · exact messages_grow hg q.other h

/-- A receipt is no message. -/
theorem swapMsg_ne_swapMsgBack {m : SwapMsg} {b : SwapMsgBack} (hm : setSwapMsg J m = .ok t)
    (hb : setSwapMsgBack J b = .ok t) : False := by
  have hroute := (route_swapMsg hm).symm.trans (route_swapMsgBack hb)
  cases Option.some.inj (Except.ok.inj hroute)

theorem setSwapMsg_inj {m m' : SwapMsg} (h : setSwapMsg J m = .ok t) (h' : setSwapMsg J m' = .ok t) : m = m' := by
  have hget : getSwapMsg J t = .ok (some m) := MsgType.get_set J (T := .swapMsg) h
  have hget' : getSwapMsg J t = .ok (some m') := MsgType.get_set J (T := .swapMsg) h'
  exact Option.some.inj (Except.ok.inj (hget.symm.trans hget'))

theorem talk_effect (htalk : Talk J account s) (h : Effect J account clock s p e c) :
    Talk J account (Function.update s p c) := by
  have hgrows := h.grows
  cases h with
  | @wrote timeTo types content t d hins hset =>
    have hd : d = ((s p).dbh.insertHistory (account p.other) (outgoingRow timeTo types content)).2 :=
      (congrArg Prod.snd hins).symm
    refine talk_update htalk hgrows (fun ct hct => ?_) fun u hu => ?_
    · rw [hd] at hct
      rcases (Histories.mem_messages_insertHistory (outgoingRow_checked _ _ _)).1 hct with hold | ⟨rfl, -⟩
      · exact Or.inl hold
      · exact Or.inr (Or.inl ⟨rfl, t, List.mem_append_right _ (List.mem_singleton_self t), hset⟩)
    · rcases List.mem_append.1 hu with hold | hnew
      · exact Or.inl hold
      · obtain rfl := List.mem_singleton.1 hnew
        refine Or.inr fun m hm => ?_
        obtain rfl := setSwapMsg_inj hm hset
        obtain ⟨tbl, htbl, hct⟩ := (Histories.Later.refl d).mem_of_insertHistory hins
        rw [Histories.table_of_some htbl]
        exact hct
  | refused =>
    rw [Function.update_eq_self]
    exact htalk
  | @got m t back hset hsent hback =>
    refine talk_update htalk hgrows (fun ct hct => ?_) fun u hu => ?_
    · rcases (Histories.mem_messages_insertHistory m.row_checked).1 hct with hold | ⟨rfl, -⟩
      · exact Or.inl hold
      · exact Or.inr (Or.inr ⟨rfl, htalk.written p.other t hsent m hset⟩)
    · rcases List.mem_append.1 hu with hold | hnew
      · exact Or.inl hold
      · obtain rfl := List.mem_singleton.1 hnew
        exact Or.inr fun m' hm' => (swapMsg_ne_swapMsgBack hm' hback).elim
  | confirmed =>
    refine talk_update htalk hgrows (fun ct hct => ?_) fun u hu => Or.inl hu
    rw [messages_updateFeedBack] at hct
    exact Or.inl hct
  | marked =>
    refine talk_update htalk hgrows (fun ct hct => ?_) fun u hu => Or.inl hu
    rw [messages_markRead] at hct
    exact Or.inl hct

theorem talk_blank (h : Blank account s) : Talk J account s := by
  have hsent : ∀ p, (s p).sent = [] := fun p => (h p).1
  have hmessages : ∀ p, (table account s p).messages = [] := by
    intro p
    rw [table, Histories.table_of_some (h p).2]
    rfl
  constructor
  · intro p ct hct
    rw [hmessages] at hct
    cases hct
  · intro p ct hct
    rw [hmessages] at hct
    cases hct
  · intro p t ht
    rw [hsent] at ht
    cases ht
  · intro p ct hct
    rw [hmessages] at hct
    cases hct

theorem fresh_blank (h : Blank account s) : Fresh account s := by
  have hrows : ∀ p, (table account s p).rows = [] := by
    intro p
    rw [table, Histories.table_of_some (h p).2]
    rfl
  refine ⟨fun p => (h p).1, fun p r hr => ?_, fun p r hr => ?_⟩
  · rw [hrows] at hr
    cases hr
  · rw [hrows] at hr
    cases hr

/-- The invariants of single texts. -/
theorem inv_smallStep (hinv : Inv J account clock s) (h : SmallStep J R account clock s e s') :
    Inv J account clock s' := by
  cases e with
  | send p timeTo types content =>
    have hstep : Step J R account clock s (.send p timeTo types content) s' := h
    exact inv_step hinv hstep
  | mark p acFriend sendTime =>
    have hstep : Step J R account clock s (.mark p acFriend sendTime) s' := h
    exact inv_step hinv hstep
  | deliver p t =>
    obtain ⟨hsent, task, c, hroute, hrun, rfl⟩ := h
    exact inv_leaf hinv (hinv.flying p.other t hsent) hroute hrun

theorem talk_smallRun {s₀ : Exchange ρ} (hinv : Inv J account clock s₀) (htalk : Talk J account s₀)
    (h : Run (SmallStep J R account clock) s₀ fs s) : Inv J account clock s ∧ Talk J account s := by
  refine h.invariant (I := fun s => Inv J account clock s ∧ Talk J account s) ⟨hinv, htalk⟩ ?_
  rintro s e s' ⟨hinv, htalk⟩ hstep
  obtain ⟨p, c, heffect, rfl⟩ := effect_of_smallStep hinv hstep
  exact ⟨inv_smallStep hinv hstep, talk_effect htalk heffect⟩

/-- **A client has no message that its peer did not write**, with this time, type and
    content, in every state of every exchange. -/
theorem quoted_of_run {s₀ : Exchange ρ} (h₀ : Blank account s₀) (h : Run (Step J R account clock) s₀ es s)
    (p : Party) (hct : ct ∈ (table account s p).messages) (hobject : ct.object = objectAL) :
    { ct with object := objectAR } ∈ (table account s p.other).messages := by
  obtain ⟨-, fs, hfs, -, -⟩ := runs_small (inv_fresh (fresh_blank h₀)) h
  obtain ⟨-, htalk⟩ := talk_smallRun (inv_fresh (fresh_blank h₀)) (talk_blank h₀) hfs
  exact htalk.quoted p ct hct hobject

/-- A new message of the user was sent just now. -/
theorem sent_effect (h : Effect J account clock s p e c) (hct : ct ∈ (table account (Function.update s p c) q).messages)
    (hobject : ct.object = objectAR) :
    ct ∈ (table account s q).messages ∨ .send q ct.time ct.types ct.content = e := by
  rcases eq_or_ne q p with rfl | hne
  · rw [table_update] at hct
    cases h with
    | @wrote timeTo types content t d hins hset =>
      rw [show d = _ from (congrArg Prod.snd hins).symm] at hct
      rcases (Histories.mem_messages_insertHistory (outgoingRow_checked _ _ _)).1 hct with hold | ⟨rfl, -⟩
      · exact Or.inl hold
      · exact Or.inr rfl
    | refused => exact Or.inl hct
    | @got m =>
      rcases (Histories.mem_messages_insertHistory m.row_checked).1 hct with hold | ⟨rfl, -⟩
      · exact Or.inl hold
      · exact absurd hobject.symm objectAR_ne_objectAL
    | confirmed =>
      rw [messages_updateFeedBack] at hct
      exact Or.inl hct
    | marked =>
      rw [messages_markRead] at hct
      exact Or.inl hct
  · rw [table_update_of_ne hne] at hct
    exact Or.inl hct

/-- **A client has written only what its user sent.** -/
theorem written_was_sent {s₀ : Exchange ρ} (h₀ : Blank account s₀) (h : Run (Step J R account clock) s₀ es s)
    (p : Party) (hct : ct ∈ (table account s p).messages) (hobject : ct.object = objectAR) :
    .send p ct.time ct.types ct.content ∈ es := by
  have hinv₀ : Inv J account clock s₀ := inv_fresh (fresh_blank h₀)
  obtain ⟨-, fs, hfs, -, hsends⟩ := runs_small hinv₀ h
  refine hsends _ _ _ _ ?_
  clear hsends h
  induction hfs with
  | start =>
    rw [table, Histories.table_of_some (h₀ p).2] at hct
    cases hct
  | @next fs s s' e hrun hstep ih =>
    obtain ⟨hinv, -⟩ := talk_smallRun hinv₀ (talk_blank h₀) hrun
    obtain ⟨q, c, heffect, rfl⟩ := effect_of_smallStep hinv hstep
    rcases sent_effect heffect hct hobject with hold | rfl
    · exact List.mem_append_left _ (ih hold)
    · exact List.mem_append_right _ (List.mem_singleton_self _)

/-! ## Delivered texts -/

variable (J account clock)

/-- There is a message of this time. -/
def Taken (s : Exchange ρ) (p : Party) (k : Int64) : Prop := ∃ ct ∈ (table account s p).messages, ct.time = k

/-- A receipt for a message of this time was sent. -/
def Answered (s : Exchange ρ) (p : Party) (k : Int64) : Prop :=
  ∃ back ∈ (s p).sent, ∃ m, setSwapMsgBack J m = .ok back ∧ m.timeTo = k

/-- The message of this time is marked as the peer answered it. -/
def Confirmed (s : Exchange ρ) (p : Party) (k : Int64) : Prop :=
  ∃ r ∈ (table account s p).rows, r.sendTime = k ∧ Produced J account clock s p.other k r.feedBack

/-- **What a text leaves behind** when it was delivered. -/
structure Done (s : Exchange ρ) (p : Party) (t : Str) : Prop where
  taken : ∀ m, setSwapMsg J m = .ok t → Taken account s p m.timeTo
  answered : ∀ m, setSwapMsg J m = .ok t → Answered J s p m.timeTo
  confirmed : ∀ m, setSwapMsgBack J m = .ok t → Confirmed J account clock s p m.timeTo

variable {J account clock}

/-- A table that is there takes the message, or has one of its time. -/
theorem taken_insertHistory {h : Histories} {f : Int64} {r : HistoryRow} (hf : h f ≠ none) (hr : r.Checked) :
    ∃ ct ∈ ((h.insertHistory f r).2.table f).messages, ct.time = r.sendTime := by
  by_cases hfree : ∀ x ∈ (h.table f).rows, x.sendTime ≠ r.sendTime
  · have hins := Histories.table_insertHistory_of_free hf hr hfree
    exact ⟨r.ct, (HistoryTable.mem_messages_insert hins).2 (Or.inl rfl), rfl⟩
  · push Not at hfree
    obtain ⟨x, hx, htime⟩ := hfree
    exact ⟨x.ct, messages_later (Histories.later_insertHistory h f r) (List.mem_map_of_mem hx), htime⟩

/-- The row that a receipt confirms stays confirmed: only receipts change what is noted. -/
theorem confirmed_effect (h : Effect J account clock s p e c) (hq : Confirmed J account clock s q k) :
    Confirmed J account clock (Function.update s p c) q k := by
  have hgrows := grows_update h.grows
  obtain ⟨r, hr, htime, hproduced⟩ := hq
  have hmono := fun v (hp : Produced J account clock s q.other k v) => hp.mono (hgrows q.other)
  rcases eq_or_ne q p with rfl | hne
  · have hkeep : ∀ {d : Histories}, (∃ x ∈ (d.table (account q.other)).rows, x.sendTime = k ∧
        Produced J account clock s q.other k x.feedBack) → c.dbh = d →
        Confirmed J account clock (Function.update s q c) q k := by
      rintro d ⟨x, hx, hk, hp⟩ rfl
      refine ⟨x, ?_, hk, hmono _ hp⟩
      rw [table_update]
      exact hx
    have hold : ∀ tup, r ∈ (((s q).dbh.insertHistory (account q.other) tup).2.table (account q.other)).rows := by
      intro tup
      rcases Histories.table_insertHistory (s q).dbh (account q.other) tup with heq | hins
      · rw [heq]
        exact hr
      · exact (HistoryTable.mem_insert hins).2 (Or.inr hr)
    cases h with
    | @wrote timeTo types content t d hins hset =>
      refine hkeep ⟨r, ?_, htime, hproduced⟩ rfl
      have hmem := hold (outgoingRow timeTo types content)
      rwa [hins] at hmem
    | refused => exact hkeep ⟨r, hr, htime, hproduced⟩ rfl
    | got => exact hkeep ⟨r, hold _, htime, hproduced⟩ rfl
    | @confirmed m t hset hrow hm =>
      refine hkeep ?_ rfl
      rw [Histories.updateFeedBack, table_onTable rfl]
      by_cases hk : r.sendTime = m.timeTo
      · refine ⟨{ r with feedBack := m.timeOk }, HistoryTable.mem_update.2 (Or.inl ⟨r, hr, hk, rfl⟩), htime, ?_⟩
        rw [← htime, hk]
        exact hm
      · exact ⟨r, HistoryTable.mem_update.2 (Or.inr ⟨hr, hk⟩), htime, hproduced⟩
    | @marked acFriend sendTime =>
      refine hkeep ?_ rfl
      rcases eq_or_ne (account q.other) acFriend with rfl | hne
      · rw [Histories.markRead, table_onTable rfl]
        by_cases hk : r.sendTime = sendTime
        · exact ⟨r.marked, HistoryTable.mem_update.2 (Or.inl ⟨r, hr, hk, rfl⟩), htime, hproduced⟩
        · exact ⟨r, HistoryTable.mem_update.2 (Or.inr ⟨hr, hk⟩), htime, hproduced⟩
      · rw [Histories.markRead, table_onTable_of_ne hne]
        exact ⟨r, hr, htime, hproduced⟩
  · refine ⟨r, ?_, htime, hmono _ hproduced⟩
    rw [table_update_of_ne hne]
    exact hr

/-- What was left behind stays. -/
theorem done_effect (h : Effect J account clock s p e c) (hq : Done J account clock s q t) :
    Done J account clock (Function.update s p c) q t where
  taken m hm := by
    obtain ⟨ct, hct, htime⟩ := hq.taken m hm
    exact ⟨ct, messages_grow h.grows q hct, htime⟩
  answered m hm := by
    obtain ⟨back, hback, hset⟩ := hq.answered m hm
    exact ⟨back, (grows_update h.grows q).sent.subset hback, hset⟩
  confirmed m hm := confirmed_effect h (hq.confirmed m hm)

/-- **A delivered text** leaves behind what it should. -/
theorem done_deliver (htable : (s p).dbh (account p.other) ≠ none)
    (h : Effect J account clock s p (.deliver p t) c) :
    Done J account clock (Function.update s p c) p t := by
  have hgrows := grows_update h.grows
  cases h with
  | @got m t back hset hsent hback =>
    constructor
    · intro m' hm'
      obtain rfl := setSwapMsg_inj hset hm'
      rw [Taken, table_update]
      exact taken_insertHistory htable (incomingRow_checked _ _ _)
    · intro m' hm'
      obtain rfl := setSwapMsg_inj hset hm'
      refine ⟨back, ?_, _, hback, rfl⟩
      rw [Function.update_self]
      exact List.mem_append_right _ (List.mem_singleton_self back)
    · intro m' hm'
      exact (swapMsg_ne_swapMsgBack hset hm').elim
  | @confirmed m t hset hrow hproduced =>
    constructor
    · intro m' hm'
      exact (swapMsg_ne_swapMsgBack hm' hset).elim
    · intro m' hm'
      exact (swapMsg_ne_swapMsgBack hm' hset).elim
    · intro m' hm'
      have hget : getSwapMsgBack J t = .ok (some m) := MsgType.get_set J (T := .swapMsgBack) hset
      have hget' : getSwapMsgBack J t = .ok (some m') := MsgType.get_set J (T := .swapMsgBack) hm'
      obtain rfl := Option.some.inj (Except.ok.inj (hget.symm.trans hget'))
      obtain ⟨tbl, htbl, ct, hct, htime, -⟩ := hrow
      obtain ⟨r, hr, rfl⟩ := List.mem_map.1 hct
      refine ⟨{ r with feedBack := m.timeOk }, ?_, htime, hproduced.mono (hgrows p.other)⟩
      rw [table_update, Histories.updateFeedBack, table_onTable rfl, Histories.table_of_some htbl]
      exact HistoryTable.mem_update.2 (Or.inl ⟨r, hr, htime, rfl⟩)

/-- **A run** leaves behind what the delivered texts leave. -/
theorem done_smallRun {s₀ : Exchange ρ} (hinv : Inv J account clock s₀)
    (htables : ∀ p, (s₀ p).dbh (account p.other) ≠ none)
    (h : Run (SmallStep J R account clock) s₀ fs s) :
    Inv J account clock s ∧ (∀ p, (s p).dbh (account p.other) ≠ none) ∧
      ∀ p t, .deliver p t ∈ fs → Done J account clock s p t := by
  induction h with
  | start => exact ⟨hinv, htables, fun _ _ h => absurd h List.not_mem_nil⟩
  | @next fs s s' e _ hstep ih =>
    obtain ⟨hs, htables, hdone⟩ := ih
    obtain ⟨p, c, heffect, rfl⟩ := effect_of_smallStep hs hstep
    refine ⟨inv_smallStep hs hstep, fun q => ?_, fun q t hmem => ?_⟩
    · obtain ⟨tbl, htbl⟩ := Option.ne_none_iff_exists'.1 (htables q)
      obtain ⟨tbl', htbl', -⟩ := (grows_update heffect.grows q).later _ _ htbl
      rw [htbl']
      exact Option.some_ne_none tbl'
    · rcases List.mem_append.1 hmem with hold | hnew
      · exact done_effect heffect (hdone q t hold)
      · obtain rfl := List.mem_singleton.1 hnew
        obtain rfl : q = p := by
          cases heffect with
          | got => rfl
          | confirmed => rfl
        exact done_deliver (htables q) heffect

/-! ## The whole conversation -/

/-- Two tables of the same messages list them in the same order. -/
theorem messages_eq_map {t t' : HistoryTable} {g : CtMsgType → CtMsgType} (htime : ∀ ct, (g ct).time = ct.time)
    (h : ∀ ct, ct ∈ t'.messages ↔ ∃ x ∈ t.messages, g x = ct) : t'.messages = t.messages.map g := by
  have hsorted : (t.messages.map g).Pairwise fun x y => x.time.toInt < y.time.toInt := by
    refine List.pairwise_map.2 (t.messages_sorted.imp ?_)
    intro x y hxy
    rw [htime, htime]
    exact hxy
  have hperm : t'.messages.Perm (t.messages.map g) := by
    refine (List.perm_ext_iff_of_nodup ?_ ?_).2 fun ct => ?_
    · exact t'.messages_sorted.imp fun hxy he => absurd hxy (by rw [he]; exact lt_irrefl _)
    · exact hsorted.imp fun hxy he => absurd hxy (by rw [he]; exact lt_irrefl _)
    · rw [h ct, List.mem_map]
  exact hperm.eq_of_pairwise (fun x y _ _ hxy hyx => absurd hxy (lt_asymm hyx)) t'.messages_sorted hsorted

/-- **The conversation agrees**: once the relay has delivered everything, the table of a
    client is the mirror image of the one of its peer, and every message that was written
    is marked with a time at which the peer answered it; the two must not have written
    messages of the same time. -/
theorem mirrored_of_run {s₀ : Exchange ρ} (h₀ : Blank account s₀)
    (h : Run (Step J R account clock) s₀ es s) (hsettled : Settled J es s)
    (htimes : ∀ x ∈ (table account s .a).messages, ∀ y ∈ (table account s .b).messages,
      x.object = objectAR → y.object = objectAR → x.time ≠ y.time) (p : Party) :
    (table account s p.other).messages = (table account s p).messages.map CtMsgType.mirrored ∧
      ∀ r ∈ (table account s p).rows, r.object = objectAR →
        Produced J account clock s p.other r.sendTime r.feedBack := by
  have hinv₀ : Inv J account clock s₀ := inv_fresh (fresh_blank h₀)
  obtain ⟨hinv, fs, hfs, hall, -⟩ := runs_small hinv₀ h
  obtain ⟨-, htalk⟩ := talk_smallRun hinv₀ (talk_blank h₀) hfs
  obtain ⟨-, -, hdone⟩ := done_smallRun hinv₀ (fun p => by rw [(h₀ p).2]; exact Option.some_ne_none _) hfs
  -- whatever was sent was delivered
  have hdelivered : ∀ p, ∀ t ∈ (s p).sent, Done J account clock s p.other t := by
    intro p t ht
    obtain ⟨sjson, task, hmem, hleaf⟩ := hsettled p t ht
    exact hdone p.other t (hall p.other sjson hmem (task, t) hleaf)
  have hapart : ∀ p, ∀ x ∈ (table account s p).messages, ∀ y ∈ (table account s p.other).messages,
      x.object = objectAR → y.object = objectAR → x.time ≠ y.time := by
    intro p x hx y hy hxo hyo
    cases p with
    | a => exact htimes x hx y hy hxo hyo
    | b => exact (htimes y hy x hx hyo hxo).symm
  have hmirror : ∀ p, ∀ ct ∈ (table account s p).messages,
      ct.mirrored ∈ (table account s p.other).messages := by
    intro p ct hct
    rcases htalk.kinds p ct hct with hAR | hAL
    · obtain ⟨t, ht, hset⟩ := htalk.offered p ct hct hAR
      obtain ⟨ct', hct', htime⟩ := (hdelivered p t ht).taken _ hset
      have htime' : ct'.time = ct.time := htime
      rcases htalk.kinds p.other ct' hct' with hAR' | hAL'
      · exact absurd htime'.symm (hapart p ct hct ct' hct' hAR hAR')
      · -- the message of this time came from the peer: it is this one
        have hback := htalk.quoted p.other ct' hct' hAL'
        rw [p.other_other] at hback
        have hsame : ct = { ct' with object := objectAR } :=
          (table account s p).message_inj hct hback htime'.symm
        rw [CtMsgType.mirrored_sent hAR, hsame, ← hAL']
        exact hct'
    · rw [CtMsgType.mirrored_received hAL]
      exact htalk.quoted p ct hct hAL
  refine ⟨messages_eq_map (fun _ => rfl) fun ct => ⟨fun hct => ?_, ?_⟩, fun r hr hAR => ?_⟩
  · refine ⟨ct.mirrored, ?_, CtMsgType.mirrored_mirrored (htalk.kinds p.other ct hct)⟩
    have hback := hmirror p.other ct hct
    rwa [p.other_other] at hback
  · rintro ⟨x, hx, rfl⟩
    exact hmirror p x hx
  · -- the message was delivered, its receipt was delivered
    obtain ⟨t, ht, hset⟩ := htalk.offered p r.ct (List.mem_map_of_mem hr) hAR
    obtain ⟨back, hback, m, hm, htime⟩ := (hdelivered p t ht).answered _ hset
    have hconfirmed := (hdelivered p.other back hback).confirmed m hm
    rw [p.other_other, htime] at hconfirmed
    obtain ⟨r', hr', htime', hproduced⟩ := hconfirmed
    obtain rfl := (table account s p).row_inj hr hr' htime'.symm
    exact hproduced

end

end Exchange

end SimpleChat
