/-
  Chat messages delivered again and in any order.

  * `rowHistory`: the client over the history at row level;
  * `Delivers`: a text whose messages are chat messages, live or cached;
  * `Stored`: what the history holds after some messages, whatever their order and
    number;
  * `redelivery_harmless`: so two deliveries of the same messages store the same,
    and none of them marks a message as unread again.
-/
import SimpleChat.QwebClient

namespace SimpleChat

open Lib Lib.Json

/-- `sqlite_history` at row level. -/
def rowHistory : HistoryDb Histories where
  openHistory _ h := .ok (true, h)
  createHistory acFriend h := .ok (true, h.create acFriend)
  insertHistory acFriend tup h := .ok (h.insertHistory acFriend tup)
  updateFeedBack acFriend sendTime feedBack h := .ok (h.updateFeedBack acFriend sendTime feedBack)

/-- Messages that agree on source and time agree on what is stored of them. -/
def Agree (m m' : SwapMsg) : Prop :=
  m.source = m'.source → m.timeTo = m'.timeTo → m.types = m'.types ∧ m.content = m'.content

theorem Agree.row_ct {m m' : SwapMsg} (h : Agree m m') (hs : m.source = m'.source)
    (ht : m.timeTo = m'.timeTo) : m.row.ct = m'.row.ct := by
  obtain ⟨htypes, hcontent⟩ := h hs ht
  simp only [SwapMsg.row, HistoryRow.ct, incomingRow, ht, htypes, hcontent]

/-! ## What is stored -/

/-- The history `h` holds what `h₀` held and, of the messages `ms`, those of friends
    with a table whose time was free. -/
structure Stored (h₀ : Histories) (ms : List SwapMsg) (h : Histories) : Prop where
  tables : ∀ f, h f = none ↔ h₀ f = none
  messages : ∀ f c, c ∈ (h.table f).messages ↔ c ∈ (h₀.table f).messages ∨
    (h₀ f ≠ none ∧ (∀ x ∈ (h₀.table f).messages, x.time ≠ c.time) ∧
      ∃ m ∈ ms, m.source = f ∧ m.row.ct = c)

namespace Stored

variable {h₀ h : Histories} {ms ms' : List SwapMsg}

theorem refl (h₀ : Histories) : Stored h₀ [] h₀ := ⟨fun _ => Iff.rfl, by simp⟩

/-- The order and the number of the messages do not matter. -/
theorem congr (hs : Stored h₀ ms h) (hms : ∀ m, m ∈ ms ↔ m ∈ ms') : Stored h₀ ms' h :=
  ⟨hs.tables, fun f c => by simp only [hs.messages f c, hms]⟩

/-- **One more message**: it is refused if its row is there already. -/
theorem insert (hs : Stored h₀ ms h) {m : SwapMsg} (hagree : ∀ m' ∈ ms, Agree m' m) :
    Stored h₀ (ms ++ [m]) (h.insertHistory m.source m.row).2 := by
  refine ⟨fun f => (Histories.insertHistory_none_iff f).trans (hs.tables f), fun f c => ?_⟩
  by_cases hf : f = m.source
  · subst hf
    rw [Histories.mem_messages_insertHistory m.row_checked, hs.messages]
    constructor
    · rintro ((hold | ⟨hne, hfree, m', hm', he⟩) | ⟨rfl, hne, hfree⟩)
      · exact Or.inl hold
      · exact Or.inr ⟨hne, hfree, m', List.mem_append_left _ hm', he⟩
      · refine Or.inr ⟨fun h => hne ((hs.tables _).2 h), fun x hx => ?_, m, by simp, rfl, rfl⟩
        exact hfree x ((hs.messages _ x).2 (Or.inl hx))
    · rintro (hold | ⟨hne, hfree, m', hm', he, rfl⟩)
      · exact Or.inl (Or.inl hold)
      rcases List.mem_append.1 hm' with hm' | hm'
      · exact Or.inl (Or.inr ⟨hne, hfree, m', hm', he, rfl⟩)
      · obtain rfl := List.mem_singleton.1 hm'
        -- the time is free, or taken by the same message
        by_cases htaken : ∃ x ∈ (h.table m'.source).messages, x.time = m'.timeTo
        · obtain ⟨x, hx, htime⟩ := htaken
          rcases (hs.messages _ x).1 hx with hold | ⟨-, -, m'', hm'', hs'', rfl⟩
          · exact absurd htime (hfree x hold)
          · have hct := (hagree m'' hm'').row_ct hs'' htime
            exact Or.inl (Or.inr ⟨hne, hfree, m'', hm'', hs'', hct⟩)
        · refine Or.inr ⟨rfl, fun h => hne ((hs.tables _).1 h), fun x hx htime => htaken ⟨x, hx, htime⟩⟩
  · have hsame : (h.insertHistory m.source m.row).2.table f = h.table f := by
      rw [Histories.table, Histories.insertHistory, Histories.onTable_of_ne hf, ← Histories.table]
    rw [hsame, hs.messages]
    refine or_congr Iff.rfl (and_congr Iff.rfl (and_congr Iff.rfl ?_))
    constructor
    · rintro ⟨m', hm', he⟩
      exact ⟨m', List.mem_append_left _ hm', he⟩
    · rintro ⟨m', hm', he, hct⟩
      rcases List.mem_append.1 hm' with hm' | hm'
      · exact ⟨m', hm', he, hct⟩
      · rw [List.mem_singleton.1 hm'] at he
        exact absurd he.symm hf

theorem markRead (hs : Stored h₀ ms h) (g k : Int64) : Stored h₀ ms (h.markRead g k).2 := by
  have hmark : ∀ f, ((h.markRead g k).2 f = none ↔ h f = none) ∧
      ((h.markRead g k).2.table f).messages = (h.table f).messages := by
    intro f
    by_cases hf : f = g
    · subst hf
      cases ht : h f with
      | none => rw [Histories.markRead, Histories.onTable_none ht]; simp [ht]
      | some t =>
        have hself : (h.markRead f k).2 f = some (t.markRead k) := (Histories.onTable_self ht).2
        rw [hself, Histories.table_of_some hself, Histories.table_of_some ht]
        simp
    · rw [Histories.markRead, Histories.table, Histories.table, Histories.onTable_of_ne hf]
      simp
  exact ⟨fun f => (hmark f).1.trans (hs.tables f), fun f c => by rw [(hmark f).2, hs.messages]⟩

end Stored

namespace QwebClient

variable {J : JsonLib} {ρ : Type} {R : RecordDb ρ} {clock : ℕ → Int64}

/-- **What a chat message does.** -/
theorem swapMsg_row (J : JsonLib) (clock : ℕ → Int64) (m : SwapMsg) (c : QwebClient Histories ρ) :
    ∃ s, setSwapMsgBack J ⟨m.source, m.target, m.timeTo, clock c.sent.length⟩ = .ok s ∧
      swapMsg J rowHistory clock m c = .ok
        { c with
          dbh := (c.dbh.insertHistory m.source m.row).2
          signals := c.signals ++ [.recvMsg m]
          sent := c.sent ++ [s] } := by
  obtain ⟨s, hs⟩ := MsgType.exists_set J .swapMsgBack
    ⟨m.source, m.target, m.timeTo, clock c.sent.length⟩ (by simp [MsgType.strings])
  have hset : setSwapMsgBack J ⟨m.source, m.target, m.timeTo, clock c.sent.length⟩ = .ok s := hs
  refine ⟨s, hset, ?_⟩
  simp only [swapMsg, onHistory, rowHistory, Except.map, bind, Except.bind, emit, hset]
  rfl

/-! ## Texts of chat messages -/

/-- The text holds the chat messages `ms`, and nothing else. -/
def Delivers (J : JsonLib) (ms : List SwapMsg) (sjson : Str) : Prop :=
  List.Forall₂ (fun m leaf => ∃ t, leaf = .ok (.swapMsg, t) ∧ getSwapMsg J t = .ok (some m)) ms
    (leaves J sjson)

theorem delivers_live {m : SwapMsg} {t : Str} (h : setSwapMsg J m = .ok t) : Delivers J [m] t := by
  have hset : MsgType.swapMsg.set J m = .ok t := h
  have hroute : route J t = .ok (some .swapMsg) := (route_set hset).trans (by decide +kernel)
  rw [Delivers, leaves_of_task hroute (by decide)]
  exact .cons ⟨t, rfl, MsgType.get_set J hset⟩ .nil

/-- A message of the cache delivers what the texts in it deliver. -/
theorem delivers_cached {svec t : Str} {mss : List (List SwapMsg)}
    (h : setSwapCacheBack J svec = .ok t)
    (hvec : List.Forall₂ (Delivers J) mss (getJsonVec J svec)) : Delivers J mss.flatten t := by
  have hset : MsgType.swapCacheBack.set J svec = .ok t := h
  have hroute : route J t = .ok (some .swapCacheBack) := (route_set hset).trans (by decide +kernel)
  rw [Delivers, leaves_of_cache hroute (MsgType.get_set J hset)]
  generalize getJsonVec J svec = texts at hvec
  induction hvec with
  | nil => exact .nil
  | cons hd _ ih => exact List.rel_append hd ih

/-- **What a text of chat messages does to the history.** -/
theorem slMessage_delivers (R : RecordDb ρ) (clock : ℕ → Int64) {ms : List SwapMsg} {sjson : Str}
    (h : Delivers J ms sjson) (c : QwebClient Histories ρ) :
    ∃ c', slMessage J rowHistory R clock sjson c = .ok c' ∧
      c'.dbh = ms.foldl (fun h m => (h.insertHistory m.source m.row).2) c.dbh := by
  rw [slMessage_eq]
  unfold Delivers at h
  generalize leaves J sjson = ls at h
  induction h generalizing c with
  | nil => exact ⟨c, rfl, rfl⟩
  | @cons m leaf ms ls hd _ ih =>
    obtain ⟨t, rfl, hget⟩ := hd
    obtain ⟨s, -, hrun⟩ := swapMsg_row J clock m c
    obtain ⟨c', hc', hdbh⟩ := ih { c with
      dbh := (c.dbh.insertHistory m.source m.row).2
      signals := c.signals ++ [.recvMsg m]
      sent := c.sent ++ [s] }
    refine ⟨c', ?_, hdbh⟩
    rw [List.foldlM_cons]
    have hleaf : runLeaf J rowHistory R clock c (.ok (.swapMsg, t)) = swapMsg J rowHistory clock m c := by
      simp only [runLeaf, ok_bind, runTask, taskSwapMsg, handled, hget, Option.elim]
    rw [hleaf, hrun, ok_bind, hc']

/-! ## Deliveries -/

/-- A text is received, or a read marks a message. -/
inductive DeliveryEvent where
  | frame (sjson : Str)
  | mark (acFriend sendTime : Int64)
  deriving DecidableEq

/-- One event; the call of `sl_message` returns. -/
def DeliveryStep (J : JsonLib) (R : RecordDb ρ) (clock : ℕ → Int64) (c : QwebClient Histories ρ)
    (e : DeliveryEvent) (c' : QwebClient Histories ρ) : Prop :=
  match e with
  | .frame sjson => slMessage J rowHistory R clock sjson c = .ok c'
  | .mark acFriend sendTime => c' = { c with dbh := (c.dbh.markRead acFriend sendTime).2 }

/-- The messages that the received texts deliver. -/
def Delivered (J : JsonLib) (es : List DeliveryEvent) (m : SwapMsg) : Prop :=
  ∃ sjson ms, .frame sjson ∈ es ∧ Delivers J ms sjson ∧ m ∈ ms

/-- All received texts are chat messages, live or cached. -/
def AllDeliver (J : JsonLib) (es : List DeliveryEvent) : Prop :=
  ∀ sjson, .frame sjson ∈ es → ∃ ms, Delivers J ms sjson

theorem delivers_unique {ms ms' : List SwapMsg} {sjson : Str} (h : Delivers J ms sjson)
    (h' : Delivers J ms' sjson) : ms = ms' := by
  unfold Delivers at h h'
  generalize leaves J sjson = ls at h h'
  induction h generalizing ms' with
  | nil => cases h'; rfl
  | cons hd _ ih =>
    obtain ⟨t, rfl, hget⟩ := hd
    cases h' with
    | cons hd' htl' =>
      obtain ⟨t', ht', hget'⟩ := hd'
      obtain rfl : t = t' := congrArg Prod.snd (Except.ok.inj ht')
      obtain rfl := Option.some.inj (Except.ok.inj (hget.symm.trans hget'))
      rw [ih htl']

theorem delivered_append {es fs : List DeliveryEvent} {m : SwapMsg} :
    Delivered J (es ++ fs) m ↔ Delivered J es m ∨ Delivered J fs m := by
  simp only [Delivered, List.mem_append]
  constructor
  · rintro ⟨t, ms, hmem | hmem, hd, hm⟩
    · exact Or.inl ⟨t, ms, hmem, hd, hm⟩
    · exact Or.inr ⟨t, ms, hmem, hd, hm⟩
  · rintro (⟨t, ms, hmem, hd, hm⟩ | ⟨t, ms, hmem, hd, hm⟩)
    · exact ⟨t, ms, Or.inl hmem, hd, hm⟩
    · exact ⟨t, ms, Or.inr hmem, hd, hm⟩

variable {c₀ c c' : QwebClient Histories ρ} {es : List DeliveryEvent}

/-- One text of messages that agree with those before. -/
theorem stored_foldl {h₀ h : Histories} {D ms : List SwapMsg} (hs : Stored h₀ D h)
    (hagree : ∀ m ∈ D ++ ms, ∀ m' ∈ D ++ ms, Agree m m') :
    Stored h₀ (D ++ ms) (ms.foldl (fun h m => (h.insertHistory m.source m.row).2) h) := by
  induction ms generalizing D h with
  | nil => simpa using hs
  | cons m ms ih =>
    have hnext := hs.insert (m := m) fun m' hm' => hagree m' (by simp [hm']) m (by simp)
    have hassoc : D ++ m :: ms = (D ++ [m]) ++ ms := by simp
    rw [hassoc] at hagree ⊢
    exact ih hnext hagree

/-- **What a run stores.** -/
theorem stored_of_run (h : Run (DeliveryStep J R clock) c₀ es c) (hall : AllDeliver J es)
    (hagree : ∀ m m', Delivered J es m → Delivered J es m' → Agree m m') :
    ∃ D, (∀ m, m ∈ D ↔ Delivered J es m) ∧ Stored c₀.dbh D c.dbh := by
  induction h with
  | start => exact ⟨[], by simp [Delivered], .refl _⟩
  | @next es c c' e _ hs ih =>
    have hold : ∀ m, Delivered J es m → Delivered J (es ++ [e]) m :=
      fun m hm => delivered_append.2 (Or.inl hm)
    obtain ⟨D, hD, hstored⟩ := ih (fun t ht => hall t (by simp [ht]))
      fun m m' hm hm' => hagree m m' (hold m hm) (hold m' hm')
    cases e with
    | mark f k =>
      refine ⟨D, fun m => ?_, ?_⟩
      · rw [hD, delivered_append]
        simp [Delivered]
      · rw [hs]
        exact hstored.markRead f k
    | frame sjson =>
      obtain ⟨ms, hms⟩ := hall sjson (by simp)
      have hD' : ∀ m, m ∈ D ++ ms ↔ Delivered J (es ++ [.frame sjson]) m := by
        intro m
        rw [List.mem_append, hD, delivered_append]
        refine or_congr Iff.rfl ⟨fun hm => ⟨sjson, ms, by simp, hms, hm⟩, ?_⟩
        rintro ⟨t, ms', ht, hms', hm⟩
        obtain rfl : t = sjson := by simpa using ht
        rwa [delivers_unique hms hms']
      obtain ⟨c'', hc'', hdbh⟩ := slMessage_delivers R clock hms c
      obtain rfl : c'' = c' := Except.ok.inj (hc''.symm.trans hs)
      refine ⟨D ++ ms, hD', ?_⟩
      rw [hdbh]
      exact stored_foldl hstored fun m hm m' hm' =>
        hagree m m' ((hD' m).1 hm) ((hD' m').1 hm')

/-- A run only adds rows, and never marks a message as unread. -/
theorem later_of_run (h : Run (DeliveryStep J R clock) c₀ es c) (hall : AllDeliver J es) :
    c₀.dbh.Later c.dbh := by
  induction h with
  | start => exact .refl _
  | @next es c c' e _ hs ih =>
    refine (ih fun t ht => hall t (by simp [ht])).trans ?_
    cases e with
    | mark f k =>
      rw [hs]
      exact Histories.later_markRead c.dbh f k
    | frame sjson =>
      obtain ⟨ms, hms⟩ := hall sjson (by simp)
      obtain ⟨c'', hc'', hdbh⟩ := slMessage_delivers R clock hms c
      obtain rfl : c'' = c' := Except.ok.inj (hc''.symm.trans hs)
      rw [hdbh]
      have hfold : ∀ (ms : List SwapMsg) (h : Histories),
          h.Later (ms.foldl (fun h m => (h.insertHistory m.source m.row).2) h) := by
        intro ms
        induction ms with
        | nil => exact fun h => .refl h
        | cons m ms ih => exact fun h => (Histories.later_insertHistory h m.source m.row).trans (ih _)
      exact hfold ms c.dbh

/-- Chat messages can always be received: the calls return. -/
theorem exists_run (R : RecordDb ρ) (clock : ℕ → Int64) (c₀ : QwebClient Histories ρ)
    (hall : AllDeliver J es) :
    ∃ c, Run (DeliveryStep J R clock) c₀ es c := by
  induction es using List.reverseRecOn with
  | nil => exact ⟨c₀, .start⟩
  | append_singleton es e ih =>
    obtain ⟨c, hc⟩ := ih fun t ht => hall t (by simp [ht])
    cases e with
    | mark f k => exact ⟨_, hc.next rfl⟩
    | frame sjson =>
      obtain ⟨ms, hms⟩ := hall sjson (by simp)
      obtain ⟨c', hc', -⟩ := slMessage_delivers R clock hms c
      exact ⟨c', hc.next hc'⟩

/-- **Redelivery and reordering do not matter.**  Two deliveries of the same
    messages store the same messages of each friend, and what was marked as read
    stays so. -/
theorem redelivery_harmless {fs : List DeliveryEvent} {d : QwebClient Histories ρ}
    (hes : AllDeliver J es) (hfs : AllDeliver J fs)
    (hsame : ∀ m, Delivered J es m ↔ Delivered J fs m)
    (hagree : ∀ m m', Delivered J es m → Delivered J es m' → Agree m m')
    (hc : Run (DeliveryStep J R clock) c₀ es c) (hd : Run (DeliveryStep J R clock) c₀ fs d) :
    (∀ f ct, ct ∈ (c.dbh.table f).messages ↔ ct ∈ (d.dbh.table f).messages) ∧
    ∀ es₁ es₂ cm, es = es₁ ++ es₂ → Run (DeliveryStep J R clock) c₀ es₁ cm →
      Run (DeliveryStep J R clock) cm es₂ c → cm.dbh.Later c.dbh := by
  obtain ⟨D, hD, hstored⟩ := stored_of_run hc hes hagree
  obtain ⟨D', hD', hstored'⟩ := stored_of_run hd hfs fun m m' hm hm' =>
    hagree m m' ((hsame m).2 hm) ((hsame m').2 hm')
  have hcongr : Stored c₀.dbh D' c.dbh := hstored.congr fun m => by rw [hD, hD', hsame]
  refine ⟨fun f ct => (hcongr.messages f ct).trans (hstored'.messages f ct).symm, ?_⟩
  rintro es₁ es₂ cm rfl - hrest
  exact later_of_run hrest fun t ht => hes t (by simp [ht])

/-- A client whose friends all have empty tables, without friend requests. -/
def emptyTables : QwebClient Histories Unit := ⟨fun _ => some HistoryTable.empty, (), [], []⟩

def noRecords : RecordDb Unit := ⟨fun _ _ => .ok (false, ()), fun _ _ _ => .ok (false, ())⟩

theorem redelivery_harmless_twice :
    ∃ t c d, setSwapMsg jsonText ⟨1, 5, 7, lit "Text", lit "hi"⟩ = .ok t ∧
      Run (DeliveryStep jsonText noRecords fun _ => 9) emptyTables
        [.frame t, .mark 5 7, .frame t] c ∧
      Run (DeliveryStep jsonText noRecords fun _ => 9) emptyTables [.frame t] d ∧
      ∀ f ct, ct ∈ (c.dbh.table f).messages ↔ ct ∈ (d.dbh.table f).messages := by
  obtain ⟨t, ht⟩ := MsgType.exists_set jsonText .swapMsg ⟨1, 5, 7, lit "Text", lit "hi"⟩ (by decide)
  have hlive : Delivers jsonText [⟨1, 5, 7, lit "Text", lit "hi"⟩] t := delivers_live ht
  have hes : AllDeliver jsonText [.frame t, .mark 5 7, .frame t] := by
    intro sjson hmem
    obtain rfl : sjson = t := by simpa using hmem
    exact ⟨_, hlive⟩
  have hfs : AllDeliver jsonText [.frame t] := by
    intro sjson hmem
    obtain rfl : sjson = t := by simpa using hmem
    exact ⟨_, hlive⟩
  have hone : ∀ es m, (∀ sjson, .frame sjson ∈ es → sjson = t) → Delivered jsonText es m →
      m = ⟨1, 5, 7, lit "Text", lit "hi"⟩ := by
    rintro es m hall ⟨sjson, ms, hmem, hd, hm⟩
    rw [hall sjson hmem] at hd
    rw [delivers_unique hd hlive] at hm
    simpa using hm
  have hdel : ∀ m, Delivered jsonText [.frame t, .mark 5 7, .frame t] m ↔
      Delivered jsonText [.frame t] m := by
    intro m
    constructor
    · intro hm
      rw [hone _ m (by simp) hm]
      exact ⟨t, _, by simp, hlive, by simp⟩
    · intro hm
      rw [hone _ m (by simp) hm]
      exact ⟨t, _, by simp, hlive, by simp⟩
  obtain ⟨c, hc⟩ := exists_run noRecords (fun _ => 9) emptyTables hes
  obtain ⟨d, hd⟩ := exists_run noRecords (fun _ => 9) emptyTables hfs
  refine ⟨t, c, d, ht, hc, hd, (redelivery_harmless hes hfs hdel (fun m m' hm hm' => ?_) hc hd).1⟩
  rw [hone _ m (by simp) hm, hone _ m' (by simp) hm']
  exact fun _ _ => ⟨rfl, rfl⟩

end QwebClient

end SimpleChat
