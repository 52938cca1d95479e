/-
  Two clients that exchange messages through a relay.

  * `Relays`: what a relay makes of the texts that it got: it delivers them live or
    cached, as often and in any order it likes;
  * `ExchangeStep`: a client sends, a text is delivered, a read marks a message;
  * `Inv`: every text in flight belongs to a row of its sender or answers one of its
    receiver;
  * `receipts_right`: so receipts mark only what was sent, with a time of the peer for
    just this message.
-/
import SimpleChat.Delivery

namespace SimpleChat

open Lib Lib.Json

/-- One of the two clients. -/
inductive Party where
  | a | b
  deriving DecidableEq, Repr

/-- Its peer. -/
def Party.other : Party → Party
  | a => b
  | b => a

theorem Party.other_ne (p : Party) : p.other ≠ p := by
  cases p with
  | a => decide
  | b => decide

theorem Party.other_other (p : Party) : p.other.other = p := by
  cases p with
  | a => rfl
  | b => rfl

/-- A text that the relay can deliver when it got the texts `pool`. -/
inductive Relays (J : JsonLib) (pool : List Str) : Str → Prop
  | live {t : Str} : t ∈ pool → Relays J pool t
  | cached {svec t : Str} : setSwapCacheBack J svec = .ok t →
      (∀ u ∈ getJsonVec J svec, Relays J pool u) → Relays J pool t

inductive ExchangeEvent where
  /-- The user sends a message to the peer. -/
  | send (p : Party) (timeTo : Int64) (types content : Str)
  /-- The relay delivers a text. -/
  | deliver (p : Party) (sjson : Str)
  /-- A read marks a message. -/
  | mark (p : Party) (acFriend sendTime : Int64)

/-- The two clients; what one has sent is what the relay got for the other. -/
abbrev Exchange (ρ : Type) := Party → QwebClient Histories ρ

namespace Exchange

section
variable {ρ : Type} (J : JsonLib) (R : RecordDb ρ) (account : Party → Int64) (clock : Party → ℕ → Int64)

/-- One event; its calls return. -/
def Step (s : Exchange ρ) (e : ExchangeEvent) (s' : Exchange ρ) : Prop :=
  match e with
  | .send p timeTo types content => ∃ c,
      QwebClient.askSwapMsg J rowHistory ⟨account p.other, account p, timeTo, types, content⟩ (s p) = .ok c ∧
      s' = Function.update s p c
  | .deliver p sjson => Relays J (s p.other).sent sjson ∧ ∃ c,
      QwebClient.slMessage J rowHistory R (clock p) sjson (s p) = .ok c ∧ s' = Function.update s p c
  | .mark p acFriend sendTime =>
      s' = Function.update s p { s p with dbh := ((s p).dbh.markRead acFriend sendTime).2 }

/-- The table of a client for its peer. -/
def table (s : Exchange ρ) (p : Party) : HistoryTable := (s p).dbh.table (account p.other)

/-- The client of `p` processed a message of its peer of the time `timeTo`, and answered
    it with the time `timeOk`. -/
def Produced {δ : Type} (s : Party → QwebClient δ ρ) (p : Party) (timeTo timeOk : Int64) : Prop :=
  ∃ m n sjson, .recvMsg m ∈ (s p).signals ∧ m.source = account p.other ∧ m.timeTo = timeTo ∧
    (s p).sent[n]? = some sjson ∧ clock p n = timeOk ∧
    setSwapMsgBack J ⟨m.source, m.target, m.timeTo, clock p n⟩ = .ok sjson

/-- The columns that a receipt must not change. -/
def others (t : HistoryTable) : List (Int64 × Int64 × Str × Str × Str) :=
  t.rows.map fun r => (r.sendTime, r.nonRead, r.types, r.object, r.content)

/-- What receipts may do to the rows of a client. -/
structure ReceiptsRight (s : Exchange ρ) (p : Party) : Prop where
  /-- A row that was sent is confirmed by the peer, or not at all. -/
  sent : ∀ r ∈ (table account s p).rows, r.object = objectAR →
    r.feedBack = 0 ∨ Produced J account clock s p.other r.sendTime r.feedBack
  /-- A row that was received confirms itself. -/
  received : ∀ r ∈ (table account s p).rows, r.object = objectAL → r.feedBack = r.sendTime
  /-- A receipt leaves the other columns alone. -/
  receipt : ∀ m c, QwebClient.swapMsgBack rowHistory m (s p) = .ok c →
    ∀ f, others (c.dbh.table f) = others ((s p).dbh.table f)

/-- Nothing was sent yet; earlier messages may be in the tables. -/
structure Fresh (s : Exchange ρ) : Prop where
  sent : ∀ p, (s p).sent = []
  unconfirmed : ∀ p, ∀ r ∈ (table account s p).rows, r.object = objectAR → r.feedBack = 0
  received : ∀ p, ∀ r ∈ (table account s p).rows, r.object = objectAL → r.feedBack = r.sendTime

/-! ## The invariant -/

/-- The client has a row that it sent at this time. -/
def HasSent (s : Exchange ρ) (p : Party) (timeTo : Int64) : Prop :=
  ∃ t, (s p).dbh (account p.other) = some t ∧ ∃ ct ∈ t.messages, ct.time = timeTo ∧ ct.object = objectAR

/-- A text in flight from `p`: a message of one of its rows, or the answer to a message of
    a row of the peer. -/
inductive Flying (s : Exchange ρ) (p : Party) (sjson : Str) : Prop
  | msg {m : SwapMsg} : setSwapMsg J m = .ok sjson → m.source = account p → m.target = account p.other →
      HasSent account s p m.timeTo → Flying s p sjson
  | back {m : SwapMsgBack} : setSwapMsgBack J m = .ok sjson → m.source = account p →
      m.target = account p.other → HasSent account s p.other m.timeTo →
      Produced J account clock s p m.timeTo m.timeOk → Flying s p sjson

/-- **The invariant.** -/
structure Inv (s : Exchange ρ) : Prop where
  flying : ∀ p, ∀ sjson ∈ (s p).sent, Flying J account clock s p sjson
  sent : ∀ p, ∀ r ∈ (table account s p).rows, r.object = objectAR →
    r.feedBack = 0 ∨ Produced J account clock s p.other r.sendTime r.feedBack
  received : ∀ p, ∀ r ∈ (table account s p).rows, r.object = objectAL → r.feedBack = r.sendTime

end

/-! ## Rows -/

section
variable {h : Histories} {f k v : Int64} {r tup : HistoryRow}

theorem objectAR_ne_objectAL : objectAR ≠ objectAL := by decide

theorem mem_rows_insertHistory (hr : r ∈ ((h.insertHistory f tup).2.table f).rows) :
    r = tup ∨ r ∈ (h.table f).rows := by
  rcases Histories.table_insertHistory h f tup with heq | hins
  · rw [heq] at hr
    exact Or.inr hr
  · exact (HistoryTable.mem_insert hins).1 hr

/-- A statement on a table that is there. -/
theorem table_onTable {g : HistoryTable → HistoryTable} (hempty : g HistoryTable.empty = HistoryTable.empty) :
    (h.onTable f fun t => some (g t)).2.table f = g (h.table f) := by
  cases hf : h f with
  | none =>
    rw [Histories.onTable_none hf, Histories.table_of_none hf, hempty]
  | some t =>
    rw [Histories.table_of_some hf, Histories.table_of_some (Histories.onTable_self hf).2, Option.getD_some]

theorem table_onTable_of_ne {g : Int64} (hne : g ≠ f) (op : HistoryTable → Option HistoryTable) :
    (h.onTable f op).2.table g = h.table g := by
  rw [Histories.table, Histories.onTable_of_ne hne, ← Histories.table]

theorem mem_rows_updateFeedBack (hr : r ∈ ((h.updateFeedBack f k v).2.table f).rows) :
    (∃ x ∈ (h.table f).rows, x.sendTime = k ∧ { x with feedBack := v } = r) ∨ r ∈ (h.table f).rows := by
  rw [Histories.updateFeedBack, table_onTable rfl] at hr
  rcases HistoryTable.mem_update.1 hr with hx | ⟨hold, -⟩
  · exact Or.inl hx
  · exact Or.inr hold

theorem mem_rows_markRead {g : Int64} (hr : r ∈ ((h.markRead f k).2.table g).rows) :
    ∃ x ∈ (h.table g).rows, x.sendTime = r.sendTime ∧ x.object = r.object ∧ x.feedBack = r.feedBack := by
  rcases eq_or_ne g f with rfl | hne
  · rw [Histories.markRead, table_onTable rfl] at hr
    rcases HistoryTable.mem_update.1 hr with ⟨x, hx, -, rfl⟩ | ⟨hold, -⟩
    · exact ⟨x, hx, rfl, rfl, rfl⟩
    · exact ⟨r, hold, rfl, rfl, rfl⟩
  · rw [Histories.markRead, table_onTable_of_ne hne] at hr
    exact ⟨r, hr, rfl, rfl, rfl⟩

/-- **A receipt** changes no other column. -/
theorem others_updateFeedBack (h : Histories) (f k v g : Int64) :
    others ((h.updateFeedBack f k v).2.table g) = others (h.table g) := by
  rcases eq_or_ne g f with rfl | hne
  · rw [Histories.updateFeedBack, table_onTable rfl]
    simp only [others, HistoryTable.updateFeedBack, HistoryTable.update, updateRow, List.map_map]
    refine List.map_congr_left fun r _ => ?_
    simp only [Function.comp]
    split_ifs
    · rfl
    · rfl
  · rw [Histories.updateFeedBack, table_onTable_of_ne hne]

end

/-! ## What stays -/

section
variable {ρ : Type} {J : JsonLib} {R : RecordDb ρ} {account : Party → Int64} {clock : Party → ℕ → Int64}
  {s s' : Exchange ρ} {p q : Party} {c c' : QwebClient Histories ρ} {timeTo timeOk : Int64} {sjson : Str}

/-- A client sends and signals more, and keeps its rows. -/
structure Grows (c c' : QwebClient Histories ρ) : Prop where
  sent : c.sent <+: c'.sent
  signals : c.signals <+: c'.signals
  later : c.dbh.Later c'.dbh

theorem Grows.refl (c : QwebClient Histories ρ) : Grows c c := ⟨List.prefix_rfl, List.prefix_rfl, .refl _⟩

theorem grows_update (h : Grows (s p) c) (q : Party) : Grows (s q) (Function.update s p c q) := by
  rcases eq_or_ne q p with rfl | hne
  · rw [Function.update_self]
    exact h
  · rw [Function.update_of_ne hne]
    exact .refl _

theorem Produced.mono (h : Produced J account clock s p timeTo timeOk) (hg : Grows (s p) (s' p)) :
    Produced J account clock s' p timeTo timeOk := by
  obtain ⟨m, n, sjson, hsignal, hsource, htime, hsent, hclock, hset⟩ := h
  obtain ⟨hn, rfl⟩ := List.getElem?_eq_some_iff.1 hsent
  have hsent' := List.prefix_iff_getElem?.1 hg.sent n hn
  exact ⟨m, n, _, hg.signals.subset hsignal, hsource, htime, hsent', hclock, hset⟩

theorem HasSent.mono (h : HasSent account s p timeTo) (hg : Grows (s p) (s' p)) :
    HasSent account s' p timeTo := by
  obtain ⟨t, ht, ct, hct, hrow⟩ := h
  obtain ⟨t', ht', hl⟩ := hg.later _ _ ht
  exact ⟨t', ht', ct, hl.mem_messages hct, hrow⟩

theorem Flying.mono (h : Flying J account clock s p sjson) (hg : ∀ q, Grows (s q) (s' q)) :
    Flying J account clock s' p sjson := by
  cases h with
  | msg hset hsource htarget hrow => exact .msg hset hsource htarget (hrow.mono (hg p))
  | back hset hsource htarget hrow hproduced =>
    exact .back hset hsource htarget (hrow.mono (hg p.other)) (hproduced.mono (hg p))

/-- **The invariant rule**: one client changes; its new texts and its rows are as they
    should be. -/
theorem inv_update (hinv : Inv J account clock s) (hg : Grows (s p) c)
    (hflying : ∀ sjson ∈ c.sent, sjson ∈ (s p).sent ∨ Flying J account clock (Function.update s p c) p sjson)
    (hsent : ∀ r ∈ (c.dbh.table (account p.other)).rows, r.object = objectAR →
      r.feedBack = 0 ∨ Produced J account clock s p.other r.sendTime r.feedBack)
    (hreceived : ∀ r ∈ (c.dbh.table (account p.other)).rows, r.object = objectAL → r.feedBack = r.sendTime) :
    Inv J account clock (Function.update s p c) := by
  have hgrows := grows_update hg
  constructor
  · intro q sjson hmem
    rcases eq_or_ne q p with rfl | hne
    · rw [Function.update_self] at hmem
      rcases hflying sjson hmem with hold | hnew
      · exact (hinv.flying q sjson hold).mono hgrows
      · exact hnew
    · rw [Function.update_of_ne hne] at hmem
      exact (hinv.flying q sjson hmem).mono hgrows
  · intro q r hr hobject
    have hproduced : r.feedBack = 0 ∨ Produced J account clock s q.other r.sendTime r.feedBack := by
      rcases eq_or_ne q p with rfl | hne
      · rw [table, Function.update_self] at hr
        exact hsent r hr hobject
      · rw [table, Function.update_of_ne hne] at hr
        exact hinv.sent q r hr hobject
    exact hproduced.imp_right fun h => h.mono (hgrows q.other)
  · intro q r hr hobject
    rcases eq_or_ne q p with rfl | hne
    · rw [table, Function.update_self] at hr
      exact hreceived r hr hobject
    · rw [table, Function.update_of_ne hne] at hr
      exact hinv.received q r hr hobject

/-! ## Steps -/

/-- A message of the user is sent if it got a row. -/
theorem askSwapMsg_eq_ok {m : SwapMsg} (h : QwebClient.askSwapMsg J rowHistory m c = .ok c') :
    ∃ b d, c.dbh.insertHistory m.target (outgoingRow m.timeTo m.types m.content) = (b, d) ∧
      (b = false ∧ c' = { c with dbh := d } ∨
        b = true ∧ ∃ sjson, setSwapMsg J m = .ok sjson ∧ c' = { c with dbh := d, sent := c.sent ++ [sjson] }) := by
  obtain ⟨⟨b, c₁⟩, h₁, h⟩ := bind_eq_ok.1 h
  obtain ⟨d, hd, rfl⟩ := QwebClient.onHistory_eq_ok.1 h₁
  refine ⟨b, d, Except.ok.inj hd, ?_⟩
  cases b with
  | false => exact Or.inl ⟨rfl, (Except.ok.inj h).symm⟩
  | true =>
    obtain ⟨sjson, hset, h⟩ := bind_eq_ok.1 h
    exact Or.inr ⟨rfl, sjson, hset, (Except.ok.inj h).symm⟩

theorem inv_send (hinv : Inv J account clock s) {types content : Str}
    (h : QwebClient.askSwapMsg J rowHistory ⟨account p.other, account p, timeTo, types, content⟩ (s p) = .ok c) :
    Inv J account clock (Function.update s p c) := by
  obtain ⟨b, d, hins, hc⟩ := askSwapMsg_eq_ok h
  have hd : d = ((s p).dbh.insertHistory (account p.other) (outgoingRow timeTo types content)).2 :=
    (congrArg Prod.snd hins).symm
  have hlater : (s p).dbh.Later d := hd ▸ Histories.later_insertHistory _ _ _
  have hrow : ∀ r ∈ (d.table (account p.other)).rows,
      r = outgoingRow timeTo types content ∨ r ∈ (table account s p).rows := by
    intro r hr
    rw [hd] at hr
    exact mem_rows_insertHistory hr
  have hsent : ∀ r ∈ (d.table (account p.other)).rows, r.object = objectAR →
      r.feedBack = 0 ∨ Produced J account clock s p.other r.sendTime r.feedBack := by
    intro r hr hobject
    rcases hrow r hr with rfl | hold
    · exact Or.inl rfl
    · exact hinv.sent p r hold hobject
  have hreceived : ∀ r ∈ (d.table (account p.other)).rows, r.object = objectAL →
      r.feedBack = r.sendTime := by
    intro r hr hobject
    rcases hrow r hr with rfl | hold
    · exact absurd hobject objectAR_ne_objectAL
    · exact hinv.received p r hold hobject
  rcases hc with ⟨-, rfl⟩ | ⟨rfl, sjson, hset, rfl⟩
  · exact inv_update hinv ⟨List.prefix_rfl, List.prefix_rfl, hlater⟩
      (fun sjson hmem => Or.inl hmem) hsent hreceived
  · refine inv_update hinv ⟨List.prefix_append _ _, List.prefix_rfl, hlater⟩ ?_ hsent hreceived
    intro sjson' hmem
    rcases List.mem_append.1 hmem with hold | hnew
    · exact Or.inl hold
    · obtain rfl := List.mem_singleton.1 hnew
      obtain ⟨t, ht, hct⟩ := (Histories.Later.refl d).mem_of_insertHistory hins
      refine Or.inr (.msg hset rfl rfl ⟨t, ?_, _, hct, rfl, rfl⟩)
      rw [Function.update_self]
      exact ht

/-- **A message of the peer**: its row confirms itself, and the answer is for a row of the
    peer. -/
theorem inv_msg (hinv : Inv J account clock s) {m : SwapMsg} (hsource : m.source = account p.other)
    (htarget : m.target = account p) (hrow : HasSent account s p.other m.timeTo)
    (h : QwebClient.swapMsg J rowHistory (clock p) m (s p) = .ok c) :
    Inv J account clock (Function.update s p c) := by
  obtain ⟨b, d, sjson, hins, hset, rfl⟩ := QwebClient.swapMsg_eq_ok h
  have hd : d = ((s p).dbh.insertHistory (account p.other) m.row).2 := by
    rw [← hsource]
    exact (congrArg Prod.snd (Except.ok.inj hins)).symm
  have hlater : (s p).dbh.Later d := hd ▸ Histories.later_insertHistory _ _ _
  have hrows : ∀ r ∈ (d.table (account p.other)).rows, r = m.row ∨ r ∈ (table account s p).rows := by
    intro r hr
    rw [hd] at hr
    exact mem_rows_insertHistory hr
  refine inv_update hinv ⟨List.prefix_append _ _, List.prefix_append _ _, hlater⟩ ?_ ?_ ?_
  · intro sjson' hmem
    rcases List.mem_append.1 hmem with hold | hnew
    · exact Or.inl hold
    · obtain rfl := List.mem_singleton.1 hnew
      refine Or.inr (.back hset htarget hsource (hrow.mono ?_) ?_)
      · rw [Function.update_of_ne p.other_ne]
        exact .refl _
      · refine ⟨m, (s p).sent.length, sjson', ?_, hsource, rfl, ?_, rfl, hset⟩
        · rw [Function.update_self]
          exact List.mem_append_right _ (List.mem_singleton_self _)
        · rw [Function.update_self]
          exact List.getElem?_concat_length
  · intro r hr hobject
    rcases hrows r hr with rfl | hold
    · exact absurd hobject.symm objectAR_ne_objectAL
    · exact hinv.sent p r hold hobject
  · intro r hr hobject
    rcases hrows r hr with rfl | hold
    · rfl
    · exact hinv.received p r hold hobject

/-- **A receipt of the peer** marks the row that it was produced for, which was sent. -/
theorem inv_back (hinv : Inv J account clock s) {m : SwapMsgBack} (hsource : m.source = account p.other)
    (hrow : HasSent account s p m.timeTo)
    (hproduced : Produced J account clock s p.other m.timeTo m.timeOk)
    (h : QwebClient.swapMsgBack rowHistory m (s p) = .ok c) :
    Inv J account clock (Function.update s p c) := by
  obtain rfl : { s p with dbh := ((s p).dbh.updateFeedBack m.source m.timeTo m.timeOk).2 } = c :=
    Except.ok.inj h
  -- the row of this time was sent: no other row has the time
  have hobject : ∀ x ∈ (table account s p).rows, x.sendTime = m.timeTo → x.object = objectAR := by
    intro x hx htime
    obtain ⟨t, ht, ct, hct, htime', hobject⟩ := hrow
    obtain ⟨y, hy, rfl⟩ := List.mem_map.1 hct
    rw [table, Histories.table_of_some ht] at hx
    rw [t.row_inj hx hy (htime.trans htime'.symm)]
    exact hobject
  rw [hsource]
  refine inv_update hinv ⟨List.prefix_rfl, List.prefix_rfl, Histories.later_updateFeedBack _ _ _ _⟩
    (fun sjson hmem => Or.inl hmem) ?_ ?_
  · intro r hr hAR
    rcases mem_rows_updateFeedBack hr with ⟨x, -, htime, rfl⟩ | hold
    · exact Or.inr (htime ▸ hproduced)
    · exact hinv.sent p r hold hAR
  · intro r hr hAL
    rcases mem_rows_updateFeedBack hr with ⟨x, hx, htime, rfl⟩ | hold
    · rw [hobject x hx htime] at hAL
      exact absurd hAL objectAR_ne_objectAL
    · exact hinv.received p r hold hAL

theorem inv_mark (hinv : Inv J account clock s) (p : Party) (acFriend sendTime : Int64) :
    Inv J account clock
      (Function.update s p { s p with dbh := ((s p).dbh.markRead acFriend sendTime).2 }) := by
  refine inv_update hinv ⟨List.prefix_rfl, List.prefix_rfl, Histories.later_markRead _ _ _⟩
    (fun sjson hmem => Or.inl hmem) ?_ ?_
  · intro r hr hobject
    obtain ⟨x, hx, htime, hobj, hfeed⟩ := mem_rows_markRead hr
    rw [← htime, ← hfeed]
    exact hinv.sent p x hx (hobj.trans hobject)
  · intro r hr hobject
    obtain ⟨x, hx, htime, hobj, hfeed⟩ := mem_rows_markRead hr
    rw [← htime, ← hfeed]
    exact hinv.received p x hx (hobj.trans hobject)

/-! ## Texts in flight -/

theorem route_swapMsg {m : SwapMsg} (h : setSwapMsg J m = .ok sjson) :
    QwebClient.route J sjson = .ok (some .swapMsg) := by
  have hset : MsgType.swapMsg.set J m = .ok sjson := h
  exact (QwebClient.route_set hset).trans (by decide +kernel)

theorem route_swapMsgBack {m : SwapMsgBack} (h : setSwapMsgBack J m = .ok sjson) :
    QwebClient.route J sjson = .ok (some .swapMsgBack) := by
  have hset : MsgType.swapMsgBack.set J m = .ok sjson := h
  exact (QwebClient.route_set hset).trans (by decide +kernel)

theorem route_swapCacheBack {svec : Str} (h : setSwapCacheBack J svec = .ok sjson) :
    QwebClient.route J sjson = .ok (some .swapCacheBack) := by
  have hset : MsgType.swapCacheBack.set J svec = .ok sjson := h
  exact (QwebClient.route_set hset).trans (by decide +kernel)

/-- **What the relay delivers**: the messages in a text are texts that it got. -/
theorem leaves_of_relays {pool : List Str} (h : Relays J pool sjson)
    (hpool : ∀ t ∈ pool, ∃ task, QwebClient.route J t = .ok (some task) ∧ task ≠ .swapCacheBack) :
    ∀ l, .ok l ∈ QwebClient.leaves J sjson → l.2 ∈ pool ∧ QwebClient.route J l.2 = .ok (some l.1) := by
  induction h with
  | @live t hmem =>
    intro l hl
    obtain ⟨task, hroute, hne⟩ := hpool t hmem
    rw [QwebClient.leaves_of_task hroute hne] at hl
    obtain rfl : l = (task, t) := Except.ok.inj (List.mem_singleton.1 hl)
    exact ⟨hmem, hroute⟩
  | @cached svec t hset _ ih =>
    intro l hl
    rw [QwebClient.leaves_of_cache (route_swapCacheBack hset)
      (MsgType.get_set J (T := .swapCacheBack) hset)] at hl
    obtain ⟨u, hu, hl⟩ := List.mem_flatMap.1 hl
    exact ih u hu l hl

theorem Flying.route (h : Flying J account clock s p sjson) :
    ∃ task, QwebClient.route J sjson = .ok (some task) ∧ task ≠ .swapCacheBack := by
  cases h with
  | msg hset => exact ⟨_, route_swapMsg hset, by decide⟩
  | back hset => exact ⟨_, route_swapMsgBack hset, by decide⟩

/-- **One message** that the relay delivers. -/
theorem inv_leaf (hinv : Inv J account clock s) {task : Task}
    (hflying : Flying J account clock s p.other sjson)
    (hroute : QwebClient.route J sjson = .ok (some task))
    (h : QwebClient.runTask J rowHistory R (clock p) task sjson (s p) = .ok c) :
    Inv J account clock (Function.update s p c) := by
  cases hflying with
  | @msg m hset hsource htarget hrow =>
    rw [route_swapMsg hset] at hroute
    obtain rfl := Option.some.inj (Except.ok.inj hroute)
    have hget : getSwapMsg J sjson = .ok (some m) := MsgType.get_set J (T := .swapMsg) hset
    have hrun : QwebClient.swapMsg J rowHistory (clock p) m (s p) = .ok c :=
      (QwebClient.handled_some hget _ _).symm.trans h
    rw [p.other_other] at htarget
    exact inv_msg hinv hsource htarget hrow hrun
  | @back m hset hsource htarget hrow hproduced =>
    rw [route_swapMsgBack hset] at hroute
    obtain rfl := Option.some.inj (Except.ok.inj hroute)
    have hget : getSwapMsgBack J sjson = .ok (some m) := MsgType.get_set J (T := .swapMsgBack) hset
    have hrun : QwebClient.swapMsgBack rowHistory m (s p) = .ok c :=
      (QwebClient.handled_some hget _ _).symm.trans h
    rw [p.other_other] at hrow
    exact inv_back hinv hsource hrow hproduced hrun

/-- **One text** that the relay delivers. -/
theorem inv_deliver (hinv : Inv J account clock s) (hr : Relays J (s p.other).sent sjson)
    (h : QwebClient.slMessage J rowHistory R (clock p) sjson (s p) = .ok c) :
    Inv J account clock (Function.update s p c) := by
  have hleaves := leaves_of_relays hr fun t ht => (hinv.flying p.other t ht).route
  refine QwebClient.slMessage_invariant (P := fun c => Inv J account clock (Function.update s p c)) h ?_ ?_
  · rw [Function.update_eq_self]
    exact hinv
  · intro l c c' hl hc hrun
    obtain ⟨hmem, hroute⟩ := hleaves l hl
    have hflying : Flying J account clock (Function.update s p c) p.other l.2 := by
      refine hc.flying p.other l.2 ?_
      rw [Function.update_of_ne p.other_ne]
      exact hmem
    have hnext := inv_leaf (c := c') hc hflying hroute (by rw [Function.update_self]; exact hrun)
    rwa [Function.update_idem] at hnext

/-! ## Runs -/

/-- **One event** keeps the invariant. -/
theorem inv_step (hinv : Inv J account clock s) {e : ExchangeEvent}
    (h : Step J R account clock s e s') : Inv J account clock s' := by
  cases e with
  | send p timeTo types content =>
    obtain ⟨c, hc, rfl⟩ := h
    exact inv_send hinv hc
  | deliver p sjson =>
    obtain ⟨hr, c, hc, rfl⟩ := h
    exact inv_deliver hinv hr hc
  | mark p acFriend sendTime =>
    obtain rfl : s' = _ := h
    exact inv_mark hinv p acFriend sendTime

theorem inv_fresh (h : Fresh account s) : Inv J account clock s where
  flying p sjson hmem := by
    rw [h.sent p] at hmem
    exact absurd hmem (List.not_mem_nil)
  sent p r hr hobject := Or.inl (h.unconfirmed p r hr hobject)
  received := h.received

/-- **Receipts mark only the right message**, in every state of every exchange. -/
theorem receipts_right {s₀ : Exchange ρ} {es : List ExchangeEvent} (h₀ : Fresh account s₀)
    (h : Run (Step J R account clock) s₀ es s) (p : Party) : ReceiptsRight J account clock s p := by
  have hfresh : Inv J account clock s₀ := inv_fresh h₀
  have hinv : Inv J account clock s := h.invariant hfresh fun _ _ _ hinv hs => inv_step hinv hs
  constructor
  · exact hinv.sent p
  · exact hinv.received p
  · intro m c hc f
    obtain rfl := Except.ok.inj hc
    exact others_updateFeedBack _ _ _ _ f

/-! ## A message and its receipt -/

theorem slMessage_swapMsgBack {m : SwapMsgBack} (hset : setSwapMsgBack J m = .ok sjson)
    (clock : ℕ → Int64) (c : QwebClient Histories ρ) :
    QwebClient.slMessage J rowHistory R clock sjson c =
      .ok { c with dbh := (c.dbh.updateFeedBack m.source m.timeTo m.timeOk).2 } := by
  rw [QwebClient.slMessage_of_task (route_swapMsgBack hset) (by decide)]
  exact QwebClient.handled_some (MsgType.get_set J (T := .swapMsgBack) hset) _ c

end

/-- The accounts of the two clients. -/
def accountOf : Party → Int64
  | .a => 1
  | .b => 2

theorem fresh_empty : Fresh accountOf fun _ => QwebClient.emptyTables where
  sent _ := rfl
  unconfirmed _ _ hr := absurd hr List.not_mem_nil
  received _ _ hr := absurd hr List.not_mem_nil

/-- The message that is sent. -/
def hello : SwapMsg := ⟨2, 1, 7, lit "Text", lit "hi"⟩

/-- The client behind its first message. -/
def sentHello (t : Str) : QwebClient Histories Unit :=
  { QwebClient.emptyTables with
    dbh := (QwebClient.emptyTables.dbh.insertHistory 2 (outgoingRow 7 (lit "Text") (lit "hi"))).2
    sent := [t] }

theorem askSwapMsg_hello {t : Str} (h : setSwapMsg jsonText hello = .ok t) :
    QwebClient.askSwapMsg jsonText rowHistory hello QwebClient.emptyTables = .ok (sentHello t) := by
  refine bind_eq_ok.2 ⟨(true, { sentHello t with sent := [] }), ?_, ?_⟩
  · exact QwebClient.onHistory_eq_ok.2 ⟨_, rfl, rfl⟩
  · exact bind_eq_ok.2 ⟨t, h, rfl⟩

/-- It is sent, delivered and confirmed. -/
theorem receipts_right_hello : ∃ t u s,
    Run (Step jsonText QwebClient.noRecords accountOf fun _ _ => 9) (fun _ => QwebClient.emptyTables)
      [.send .a 7 (lit "Text") (lit "hi"), .deliver .b t, .deliver .a u] s ∧
    ReceiptsRight jsonText accountOf (fun _ _ => 9) s .a := by
  obtain ⟨t, ht⟩ := MsgType.exists_set jsonText .swapMsg hello (by decide)
  obtain ⟨u, hu, hmsg⟩ := QwebClient.swapMsg_row jsonText (fun _ => 9) hello QwebClient.emptyTables
  have hrun : Run (Step jsonText QwebClient.noRecords accountOf fun _ _ => 9) (fun _ => QwebClient.emptyTables)
      [.send .a 7 (lit "Text") (lit "hi"), .deliver .b t, .deliver .a u] _ :=
    ((Run.start.next ⟨_, askSwapMsg_hello ht, rfl⟩).next
      ⟨.live (List.mem_singleton_self t), _, (QwebClient.slMessage_swapMsg ht _).trans hmsg, rfl⟩).next
        ⟨.live (List.mem_singleton_self u), _, slMessage_swapMsgBack hu _ _, rfl⟩
  exact ⟨t, u, _, hrun, receipts_right fresh_empty hrun .a⟩

end Exchange

end SimpleChat
