/-
  Reading while messages arrive: the select step and the mark steps of the reads
  of one friend, between any statements of the network thread.

  * `Write`: what else happens to the history, and `Change`, what it can do to
    the table of a friend;
  * `Reading`: the state of the reader, and `step`, one statement of it or one
    `Write`;
  * `Inv`: a row is unread until the read that selected it has marked it;
  * `shown_once`: each stored message is returned by exactly one read, the reads
    are ordered, and `count_non_read` counts the messages not yet returned.
-/
import SimpleChat.History

namespace SimpleChat

open Lib

/-! ## Writes -/

/-- The statements that change the history, besides the marks of the reader. -/
inductive Write where
  /-- `insert_history` by `task_swap_msg` -/
  | incoming (source timeTo : Int64) (type content : Str)
  /-- `insert_history` by `ask_swap_msg` -/
  | outgoing (target timeTo : Int64) (types content : Str)
  /-- `update_feed_back` by `task_swap_msg_back` -/
  | receipt (source timeTo timeOk : Int64)
  /-- `create_history` -/
  | create (acFriend : Int64)
  deriving DecidableEq

def Write.apply (h : Histories) : Write → Histories
  | incoming source timeTo type content => (h.insertHistory source (incomingRow timeTo type content)).2
  | outgoing target timeTo types content => (h.insertHistory target (outgoingRow timeTo types content)).2
  | receipt source timeTo timeOk => (h.updateFeedBack source timeTo timeOk).2
  | create acFriend => h.create acFriend

/-- What a write can do to a table. -/
inductive Change (t : HistoryTable) : HistoryTable → Prop
  | same : Change t t
  | insert {t' : HistoryTable} {r : HistoryRow}
      (hr : r.object = objectAL ∧ r.nonRead = 1 ∨ r.object = objectAR ∧ r.nonRead = 0)
      (h : t.insert r = some t') : Change t t'
  | feedBack (k v : Int64) : Change t (t.updateFeedBack k v)

section
variable {h : Histories} {f : Int64}

theorem change_onTable {op : HistoryTable → Option HistoryTable}
    (hop : ∀ t t', op t = some t' → Change t t') (g : Int64) :
    Change (h.table f) ((h.onTable g op).2.table f) := by
  by_cases hg : f = g
  · subst hg
    cases hf : h f with
    | none => rw [Histories.onTable_none hf]; exact .same
    | some t =>
      rw [Histories.table_of_some hf, Histories.table_of_some (Histories.onTable_self hf).2]
      cases ho : op t with
      | none => exact .same
      | some t' => exact hop t t' ho
  · rw [Histories.table, Histories.table, Histories.onTable_of_ne hg]
    exact .same

/-- **What a write can do.** -/
theorem Write.change (w : Write) (f : Int64) : Change (h.table f) ((w.apply h).table f) := by
  cases w with
  | incoming source timeTo type content =>
    exact change_onTable (fun _ _ => .insert (Or.inl ⟨rfl, rfl⟩)) source
  | outgoing target timeTo types content =>
    exact change_onTable (fun _ _ => .insert (Or.inr ⟨rfl, rfl⟩)) target
  | receipt source timeTo timeOk =>
    exact change_onTable (fun t t' ho => Option.some.inj ho ▸ .feedBack timeTo timeOk) source
  | create acFriend =>
    have he : (h.create acFriend).table f = h.table f := by
      by_cases hf : f = acFriend
      · subst hf; simp [Histories.table, Histories.create_self]
      · simp [Histories.table, Histories.create_of_ne hf]
    simp only [Write.apply, he]
    exact .same

end

namespace Change

variable {t t' : HistoryTable}

theorem later (h : Change t t') : t.Later t' := by
  cases h with
  | same => exact .refl t
  | insert _ h => exact HistoryTable.later_insert h
  | feedBack k v => exact HistoryTable.later_updateFeedBack

/-- A row is an old one, or it is new under a free key. -/
theorem row (h : Change t t') {r' : HistoryRow} (hr' : r' ∈ t'.rows) :
    (∃ r ∈ t.rows, r.ct = r'.ct ∧ r.nonRead = r'.nonRead) ∨
      (r'.object = objectAL ∧ r'.nonRead = 1 ∨ r'.object = objectAR ∧ r'.nonRead = 0) ∧
        ∀ x ∈ t.rows, x.sendTime ≠ r'.sendTime := by
  cases h with
  | same => exact Or.inl ⟨r', hr', rfl, rfl⟩
  | insert hr h =>
    rcases (HistoryTable.mem_insert h).1 hr' with rfl | hmem
    · exact Or.inr ⟨hr, (HistoryTable.insert_eq_some.1 h).1⟩
    · exact Or.inl ⟨r', hmem, rfl, rfl⟩
  | feedBack k v =>
    rcases HistoryTable.mem_update.1 hr' with ⟨r, hr, -, rfl⟩ | ⟨hmem, -⟩
    · exact Or.inl ⟨r, hr, rfl, rfl⟩
    · exact Or.inl ⟨r', hmem, rfl, rfl⟩

end Change

/-! ## The reader -/

/-- The reader of the messages of one friend, between two statements. -/
structure Reading where
  histories : Histories
  /-- `read_history` was called. -/
  started : Bool
  /-- The read in progress: the rows to go on with, and `vec_msg`. -/
  current : Option (List HistoryRow × List CtMsgType)
  /-- What the reads returned. -/
  reads : List (List CtMsgType)

inductive ReadEvent where
  /-- The reader takes its next step. -/
  | reader
  | write (w : Write)
  deriving DecidableEq

namespace Reading

variable (friend : Int64)

/-- One step of the reader: a select (of everything the first time, of the unread
    rows later), the mark of one selected row, or the end of the read. -/
def readStep (s : Reading) : Reading :=
  match s.current with
  | none =>
    let rows := if s.started then s.histories.selectNonRead friend
      else s.histories.selectHistory friend
    { s with started := true, current := some (rows.getD [], []) }
  | some (r :: rows, out) =>
    { s with
      histories := (s.histories.markRead friend r.sendTime).2
      current := some (rows, out ++ [r.ct]) }
  | some ([], out) => { s with current := none, reads := s.reads ++ [out] }

def step (s : Reading) : ReadEvent → Reading
  | .reader => s.readStep friend
  | .write w => { s with histories := w.apply s.histories }

variable {friend}

/-- Rows that the read in progress has yet to go through. -/
def todo (s : Reading) : List HistoryRow := (s.current.map Prod.fst).getD []

/-- Messages that the reads went through. -/
def done (s : Reading) : List CtMsgType := s.reads.flatten ++ (s.current.map Prod.snd).getD []

/-- Messages that the reads return, the read in progress included. -/
def returned (s : Reading) : List CtMsgType := s.done ++ s.todo.map HistoryRow.ct

theorem returned_of_idle {s : Reading} (h : s.current = none) : s.returned = s.reads.flatten := by
  simp [returned, done, todo, h]

/-- A read on its own is `read_history` or `read_history_non_read`. -/
theorem readSteps_eq {s : Reading} (hidle : s.current = none) :
    ∃ n, (readStep friend)^[n] s =
      let r := if s.started then s.histories.readHistoryNonRead friend
        else s.histories.readHistory friend
      ⟨r.2, true, none, s.reads ++ [r.1]⟩ := by
  have hloop : ∀ rows (h : Histories) (out : List CtMsgType) (reads : List (List CtMsgType)),
      (readStep friend)^[rows.length + 1] ⟨h, true, some (rows, out), reads⟩ =
        ⟨(h.readLoop friend rows).2, true, none, reads ++ [out ++ rows.map HistoryRow.ct]⟩ := by
    intro rows
    induction rows with
    | nil => intro h out reads; simp [readStep, Histories.readLoop]
    | cons r rows ih =>
      intro h out reads
      rw [List.length_cons, Function.iterate_succ_apply]
      simpa [readStep, Histories.readLoop] using ih _ (out ++ [r.ct]) reads
  refine ⟨((if s.started then s.histories.selectNonRead friend
    else s.histories.selectHistory friend).getD []).length + 1 + 1, ?_⟩
  rw [Function.iterate_succ_apply]
  have hstart : s.readStep friend = ⟨s.histories, true, some ((if s.started then
      s.histories.selectNonRead friend else s.histories.selectHistory friend).getD [], []),
      s.reads⟩ := by
    simp [readStep, hidle]
  rw [hstart, hloop]
  cases s.started <;>
    simp only [Bool.false_eq_true, if_false, if_true, Histories.readHistory,
      Histories.readHistoryNonRead, List.nil_append]
  · cases s.histories.selectHistory friend <;> rfl
  · cases s.histories.selectNonRead friend <;> rfl

/-! ## The invariant -/

variable {s₀ s : Reading}

/-- The reader starts: unread rows are incoming messages, and what the user sent
    is not unread. -/
structure Fresh (friend : Int64) (s₀ : Reading) : Prop where
  started : s₀.started = false
  current : s₀.current = none
  reads : s₀.reads = []
  unread : ∀ r ∈ (s₀.histories.table friend).rows, r.nonRead = 1 → r.object = objectAL

/-- The message of time `k` was marked as read before the reader started. -/
def ReadBefore (friend : Int64) (s₀ : Reading) (k : Int64) : Prop :=
  ∃ r ∈ (s₀.histories.table friend).rows, r.sendTime = k ∧ r.nonRead = 0

/-- **The invariant.**  `unread`: the mark of an incoming message is cleared by
    the read that selected it, and by nothing else. -/
structure Inv (friend : Int64) (s₀ s : Reading) : Prop where
  later : (s₀.histories.table friend).Later (s.histories.table friend)
  stored : ∀ c ∈ s.returned, c ∈ (s.histories.table friend).messages
  once : s.returned.Nodup
  unread : ∀ r ∈ (s.histories.table friend).rows,
    r.nonRead = 0 ↔ r.object ≠ objectAL ∨ ReadBefore friend s₀ r.sendTime ∨ r.ct ∈ s.done
  seen : s.started = true → ∀ r ∈ (s.histories.table friend).rows,
    r.object = objectAL → r.nonRead = 0 → r.ct ∈ s.returned
  fresh : s.started = false → s.current = none ∧ s.reads = []
  sorted : ∀ l ∈ s.reads ++ (s.current.map fun c => c.2 ++ c.1.map HistoryRow.ct).toList,
    l.Pairwise fun x y => x.time.toInt < y.time.toInt

theorem inv_start (h : Fresh friend s₀) : Inv friend s₀ s₀ where
  later := .refl _
  stored := by simp [returned, done, todo, h.current, h.reads]
  once := by simp [returned, done, todo, h.current, h.reads]
  unread r hr := by
    simp only [done, h.current, h.reads, ReadBefore]
    constructor
    · intro h0
      exact Or.inr (Or.inl ⟨r, hr, rfl, h0⟩)
    · rintro (hal | ⟨x, hx, hk, h0⟩ | hc)
      · exact (HistoryTable.zero_or_one hr).resolve_right fun h1 => hal (h.unread r hr h1)
      · rwa [← HistoryTable.row_inj _ hx hr hk]
      · simp at hc
  seen hs := by simp [h.started] at hs
  fresh _ := ⟨h.current, h.reads⟩
  sorted := by simp [h.current, h.reads]

/-- A write keeps the invariant: a new incoming message is unread, under a key
    that no read has returned. -/
theorem inv_write (h : Inv friend s₀ s) (w : Write) :
    Inv friend s₀ { s with histories := w.apply s.histories } := by
  have hchange := w.change (h := s.histories) friend
  refine ⟨h.later.trans hchange.later, fun c hc => hchange.later.mem_messages (h.stored c hc),
    h.once, ?_, ?_, h.fresh, h.sorted⟩
  · intro r hr
    rcases hchange.row hr with ⟨r', hr', hct, hn⟩ | ⟨hnew, hfree⟩
    · rw [← hn, h.unread r' hr', show r.object = r'.object from (congrArg CtMsgType.object hct).symm,
        show r.sendTime = r'.sendTime from (congrArg CtMsgType.time hct).symm, ← hct]
      rfl
    · have hbefore : ¬ ReadBefore friend s₀ r.sendTime := by
        rintro ⟨x, hx, hk, -⟩
        obtain ⟨x', hx', hct, -⟩ := h.later x hx
        exact hfree x' hx' ((congrArg CtMsgType.time hct).trans hk)
      have hdone : r.ct ∉ s.done := by
        intro hc
        obtain ⟨x, hx, hct⟩ := List.mem_map.1 (h.stored r.ct (List.mem_append_left _ hc))
        exact hfree x hx (congrArg CtMsgType.time hct)
      rcases hnew with ⟨hal, h1⟩ | ⟨har, h0⟩
      · rw [h1, hal]
        exact ⟨fun h => absurd h (by decide), fun h =>
          absurd h (by rintro (h | h | h); exacts [h rfl, hbefore h, hdone h])⟩
      · rw [h0, har]
        exact ⟨fun _ => Or.inl (by decide), fun _ => rfl⟩
  · intro hs r hr hal h0
    rcases hchange.row hr with ⟨r', hr', hct, hn⟩ | ⟨⟨-, h1⟩ | ⟨har, -⟩, -⟩
    · rw [← hct]
      exact h.seen hs r' hr' ((congrArg CtMsgType.object hct).trans hal) (hn.trans h0)
    · rw [h1] at h0
      exact absurd h0 (by decide)
    · rw [har] at hal
      exact absurd hal (by decide)

/-- The rows of the next select. -/
def selected (friend : Int64) (s : Reading) : List HistoryRow :=
  if s.started then (s.histories.table friend).unread else (s.histories.table friend).rows

theorem readStep_idle (hidle : s.current = none) :
    s.readStep friend = { s with started := true, current := some (s.selected friend, []) } := by
  simp only [readStep, hidle, selected, Histories.table, Histories.selectNonRead,
    Histories.selectHistory]
  cases s.started <;> cases s.histories friend <;> rfl

theorem selected_sublist : (s.selected friend).Sublist (s.histories.table friend).rows := by
  unfold selected
  split_ifs
  · exact List.filter_sublist
  · exact List.Sublist.refl _

theorem selected_sorted : ((s.selected friend).map HistoryRow.ct).Pairwise
    fun x y => x.time.toInt < y.time.toInt :=
  (s.histories.table friend).messages_sorted.sublist (selected_sublist.map _)

/-- What was returned is not selected again: it is marked. -/
theorem selected_disjoint (h : Inv friend s₀ s) (hidle : s.current = none) {r : HistoryRow}
    (hr : r ∈ s.selected friend) : r.ct ∉ s.returned := by
  intro hc
  unfold selected at hr
  split_ifs at hr with hs
  · obtain ⟨hmem, h1⟩ := List.mem_filter.1 hr
    have hdone : r.ct ∈ s.done := by simpa [returned, todo, hidle] using hc
    have h0 := (h.unread r hmem).2 (Or.inr (Or.inr hdone))
    rw [h0] at h1
    exact absurd h1 (by decide)
  · obtain ⟨hcur, hreads⟩ := h.fresh (by simpa using hs)
    simp [returned, done, todo, hcur, hreads] at hc

/-- **A select returns each incoming message that no read has returned.** -/
theorem returned_select (h : Inv friend s₀ s) (hidle : s.current = none) {r : HistoryRow}
    (hr : r ∈ (s.histories.table friend).rows) (hal : r.object = objectAL) :
    r.ct ∈ (s.readStep friend).returned := by
  have hreturned : (s.readStep friend).returned =
      s.returned ++ (s.selected friend).map HistoryRow.ct := by
    simp [readStep_idle hidle, returned, done, todo, hidle]
  rw [hreturned]
  unfold selected
  split_ifs with hs
  · rcases HistoryTable.zero_or_one hr with h0 | h1
    · exact List.mem_append_left _ (h.seen hs r hr hal h0)
    · exact List.mem_append_right _ (List.mem_map_of_mem (List.mem_filter.2 ⟨hr, by simp [h1]⟩))
  · exact List.mem_append_right _ (List.mem_map_of_mem hr)

theorem inv_select (h : Inv friend s₀ s) (hidle : s.current = none) :
    Inv friend s₀ (s.readStep friend) := by
  have hdone : (s.readStep friend).done = s.done := by simp [readStep_idle hidle, done, hidle]
  have hreturned : (s.readStep friend).returned =
      s.returned ++ (s.selected friend).map HistoryRow.ct := by
    simp [readStep_idle hidle, returned, done, todo, hidle]
  have hhist : (s.readStep friend).histories = s.histories := by rw [readStep_idle hidle]
  constructor
  case later => rw [hhist]; exact h.later
  case stored =>
    rw [hreturned, hhist]
    intro c hc
    rcases List.mem_append.1 hc with hc | hc
    · exact h.stored c hc
    · exact (selected_sublist.map _).subset hc
  case once =>
    rw [hreturned]
    refine List.Nodup.append h.once ?_ ?_
    · exact selected_sorted.imp fun hlt he => absurd hlt (by rw [he]; exact lt_irrefl _)
    · intro c hc hc'
      obtain ⟨r, hr, rfl⟩ := List.mem_map.1 hc'
      exact selected_disjoint h hidle hr hc
  case unread => rw [hdone, hhist]; exact h.unread
  case seen =>
    rw [hhist]
    intro _ r hr hal _
    exact returned_select h hidle hr hal
  case fresh =>
    rw [readStep_idle hidle]
    intro hs
    cases hs
  case sorted =>
    rw [readStep_idle hidle]
    intro l hl
    rcases List.mem_append.1 hl with hl | hl
    · exact h.sorted l (List.mem_append_left _ hl)
    · simp only [Option.map_some, Option.toList_some, List.nil_append, List.mem_singleton] at hl
      rw [hl]
      exact selected_sorted

/-- Marking a selected row makes that row read, and no other. -/
theorem inv_mark (h : Inv friend s₀ s) {r : HistoryRow} {rows : List HistoryRow}
    {out : List CtMsgType} (hcur : s.current = some (r :: rows, out)) :
    Inv friend s₀ (s.readStep friend) := by
  have hstep : s.readStep friend = { s with
      histories := (s.histories.markRead friend r.sendTime).2
      current := some (rows, out ++ [r.ct]) } := by
    simp [readStep, hcur]
  have hdone : (s.readStep friend).done = s.done ++ [r.ct] := by simp [hstep, done, hcur]
  have hreturned : (s.readStep friend).returned = s.returned := by
    simp [hstep, returned, done, todo, hcur]
  have hr : r.ct ∈ (s.histories.table friend).messages :=
    h.stored r.ct (by simp [returned, todo, hcur])
  have htable : (s.readStep friend).histories.table friend =
      (s.histories.table friend).markRead r.sendTime := by
    rw [hstep]
    cases hf : s.histories friend with
    | none => simp [Histories.table, hf, HistoryTable.messages] at hr
    | some t =>
      exact Histories.table_of_some (by
        simp [Histories.markRead, (Histories.onTable_self hf).2, Histories.table, hf])
  constructor
  case later => rw [htable]; exact h.later.trans HistoryTable.later_markRead
  case stored => rw [hreturned, htable, HistoryTable.messages_markRead]; exact h.stored
  case once => rw [hreturned]; exact h.once
  case unread =>
    rw [htable, hdone]
    intro x hx
    rw [HistoryTable.rows_markRead] at hx
    obtain ⟨y, hy, rfl⟩ := List.mem_map.1 hx
    by_cases hk : y.sendTime = r.sendTime
    · have hct : y.ct = r.ct := HistoryTable.message_inj _ (List.mem_map_of_mem hy) hr hk
      rw [if_pos hk]
      exact ⟨fun _ => Or.inr (Or.inr (by simp [hct])), fun _ => rfl⟩
    · have hct : y.ct ≠ r.ct := fun he => hk (congrArg CtMsgType.time he)
      rw [if_neg hk, h.unread y hy]
      simp [hct]
  case seen =>
    rw [hreturned, htable]
    intro _ x hx hal h0
    rw [HistoryTable.rows_markRead] at hx
    obtain ⟨y, hy, rfl⟩ := List.mem_map.1 hx
    have hs : s.started = true := by
      by_contra hs
      have := (h.fresh (by simpa using hs)).1
      rw [hcur] at this
      cases this
    by_cases hk : y.sendTime = r.sendTime
    · rw [if_pos hk, HistoryRow.marked_ct,
        HistoryTable.message_inj _ (List.mem_map_of_mem hy) hr hk]
      simp [returned, todo, hcur]
    · rw [if_neg hk] at hal h0 ⊢
      exact h.seen hs y hy hal h0
  case fresh =>
    intro hs
    rw [hstep] at hs
    have := (h.fresh hs).1
    rw [hcur] at this
    cases this
  case sorted =>
    rw [hstep]
    have := h.sorted
    simp only [hcur, Option.map_some, Option.toList_some, List.map_cons] at this
    simpa using this

/-- The end of a read changes nothing but the list of the reads. -/
theorem inv_return (h : Inv friend s₀ s) {out : List CtMsgType} (hcur : s.current = some ([], out)) :
    Inv friend s₀ (s.readStep friend) := by
  have hstep : s.readStep friend = { s with current := none, reads := s.reads ++ [out] } := by
    simp [readStep, hcur]
  have hdone : (s.readStep friend).done = s.done := by simp [hstep, done, hcur]
  have htodo : (s.readStep friend).todo = s.todo := by simp [hstep, todo, hcur]
  have hreturned : (s.readStep friend).returned = s.returned := by
    rw [returned, returned, hdone, htodo]
  have hstarted : s.started = true := by
    by_contra hs
    have := (h.fresh (by simpa using hs)).1
    rw [hcur] at this
    cases this
  constructor
  case later => rw [hstep]; exact h.later
  case stored => rw [hreturned, hstep]; exact h.stored
  case once => rw [hreturned]; exact h.once
  case unread => rw [hdone, hstep]; exact h.unread
  case seen => rw [hreturned, hstep]; exact h.seen
  case fresh =>
    rw [hstep]
    intro hs
    rw [hstarted] at hs
    cases hs
  case sorted =>
    rw [hstep]
    simpa [hcur] using h.sorted

theorem inv_step (h : Inv friend s₀ s) (e : ReadEvent) : Inv friend s₀ (s.step friend e) := by
  cases e with
  | write w => exact inv_write h w
  | reader =>
    simp only [step]
    rcases hcur : s.current with _ | ⟨_ | ⟨r, rows⟩, out⟩
    · exact inv_select h hcur
    · exact inv_return h hcur
    · exact inv_mark h hcur

/-- The state after some events. -/
def run (friend : Int64) (s₀ : Reading) (es : List ReadEvent) : Reading := es.foldl (step friend) s₀

theorem run_append (es fs : List ReadEvent) :
    run friend s₀ (es ++ fs) = run friend (run friend s₀ es) fs := List.foldl_append

theorem inv_run (h : Inv friend s₀ s) (es : List ReadEvent) : Inv friend s₀ (run friend s es) :=
  (Run.of_foldl (step friend) s es).invariant h fun _ e _ hi hs => hs ▸ inv_step hi e

/-- What is returned stays so. -/
theorem returned_step (s : Reading) (e : ReadEvent) {c : CtMsgType} (hc : c ∈ s.returned) :
    c ∈ (s.step friend e).returned := by
  cases e with
  | write w => exact hc
  | reader =>
    simp only [step]
    rcases hcur : s.current with _ | ⟨_ | ⟨r, rows⟩, out⟩
    · simp only [returned_of_idle hcur] at hc
      simp [readStep, hcur, returned, done, hc]
    · simpa [readStep, hcur, returned, done, todo] using hc
    · simpa [readStep, hcur, returned, done, todo, or_assoc] using hc

theorem returned_run (s : Reading) (es : List ReadEvent) {c : CtMsgType} (hc : c ∈ s.returned) :
    c ∈ (run friend s es).returned :=
  (Run.of_foldl (step friend) s es).invariant (I := fun s => c ∈ s.returned) hc
    fun s e _ hi hs => hs ▸ returned_step s e hi

/-! ## Each message once -/

instance (friend : Int64) (s₀ : Reading) (k : Int64) : Decidable (ReadBefore friend s₀ k) :=
  inferInstanceAs (Decidable (∃ r ∈ (s₀.histories.table friend).rows, r.sendTime = k ∧ r.nonRead = 0))

/-- The incoming messages of the table that no read has returned, neither in this
    run nor before it. -/
def pending (friend : Int64) (s₀ s : Reading) : List HistoryRow :=
  (s.histories.table friend).rows.filter fun r =>
    r.object = objectAL ∧ r.ct ∉ s.returned ∧ ¬ ReadBefore friend s₀ r.sendTime

theorem unread_eq_pending (h : Inv friend s₀ s) (hidle : s.current = none) :
    (s.histories.table friend).unread = s₀.pending friend s := by
  refine List.filter_congr fun r hr => ?_
  have hdone : s.done = s.returned := by simp [returned, todo, hidle]
  have hread := h.unread r hr
  rw [hdone] at hread
  have h1 : r.nonRead = 1 ↔ ¬ r.nonRead = 0 := by
    rcases HistoryTable.zero_or_one hr with h | h <;> simp [h]
  rw [decide_eq_decide, h1, hread]
  tauto

theorem countNonRead_eq (h : Inv friend s₀ s) (hidle : s.current = none)
    (ht : s.histories friend ≠ none) :
    s.histories.countNonRead friend = Int32.ofInt (s₀.pending friend s).length := by
  obtain ⟨t, ht⟩ := Option.ne_none_iff_exists'.1 ht
  rw [← unread_eq_pending h hidle, Histories.table_of_some ht, ← t.sum_nonRead]
  simp [Histories.countNonRead, ht]

/-- **Unread messages are shown exactly once.** -/
theorem shown_once (h₀ : Fresh friend s₀) (es : List ReadEvent) :
    (∀ es₁ es₂, es = es₁ ++ .reader :: es₂ → (run friend s₀ es₁).current = none →
      ∀ r ∈ ((run friend s₀ es₁).histories.table friend).rows, r.object = objectAL →
        (run friend s₀ es).returned.count r.ct = 1) ∧
    (∀ l ∈ (run friend s₀ es).reads, l.Pairwise fun x y => x.time.toInt < y.time.toInt) ∧
    ((run friend s₀ es).current = none → (run friend s₀ es).histories friend ≠ none →
      ((run friend s₀ es).histories.countNonRead friend).toInt =
        ((s₀.pending friend (run friend s₀ es)).length : ℤ).bmod (2 ^ 32)) := by
  have hinv := inv_run (inv_start h₀) es
  refine ⟨?_, fun l hl => hinv.sorted l (List.mem_append_left _ hl), ?_⟩
  · rintro es₁ es₂ rfl hidle r hr hal
    have hmid := inv_run (inv_start h₀) es₁
    refine List.count_eq_one_of_mem hinv.once ?_
    rw [run_append]
    exact returned_run _ es₂ (returned_select hmid hidle hr hal)
  · intro hidle ht
    rw [countNonRead_eq hinv hidle ht, Int32.toInt_ofInt]
    rfl

/-- A reader of an empty table. -/
def openEmpty (friend : Int64) : Reading :=
  ⟨fun f => if f = friend then some HistoryTable.empty else none, false, none, []⟩

theorem fresh_openEmpty (friend : Int64) : Fresh friend (openEmpty friend) :=
  ⟨rfl, rfl, rfl, by simp [openEmpty, Histories.table]⟩

theorem shown_once_openEmpty :
    let es : List ReadEvent := [.write (.incoming 5 7 [] []), .reader, .write (.incoming 5 8 [] []),
      .reader]
    ((run 5 (openEmpty 5) es).returned.count ⟨7, [], objectAL, []⟩ = 1) := by
  intro es
  have hfirst := (shown_once (fresh_openEmpty 5) es).1 [.write (.incoming 5 7 [] [])]
    [.write (.incoming 5 8 [] []), .reader] rfl rfl ⟨7, 7, 1, [], objectAL, []⟩
  exact hfirst (by decide) rfl

/-- The arrival of messages at the times `0, .., n - 1`. -/
def arrivals (n : ℕ) : List ReadEvent :=
  (List.range n).map fun i => .write (.incoming 5 (Int64.ofNat i) [] [])

theorem run_arrivals (n : ℕ) (hn : n ≤ 2 ^ 63) :
    (run 5 (openEmpty 5) (arrivals n)).current = none ∧
      (run 5 (openEmpty 5) (arrivals n)).reads = [] ∧
      ∃ t, (run 5 (openEmpty 5) (arrivals n)).histories 5 = some t ∧ t.rows.length = n ∧
        ∀ r ∈ t.rows, r.object = objectAL ∧ r.nonRead = 1 ∧ r.sendTime.toInt < n := by
  induction n with
  | zero => exact ⟨rfl, rfl, HistoryTable.empty, rfl, rfl, by simp⟩
  | succ n ih =>
    obtain ⟨hcur, hreads, t, ht, hlen, hrows⟩ := ih (by omega)
    set s := run 5 (openEmpty 5) (arrivals n) with hs
    have htime : (Int64.ofNat n).toInt = n := Int64.toInt_ofNat_of_lt (by omega)
    have hnext : run 5 (openEmpty 5) (arrivals (n + 1)) =
        { s with histories := (s.histories.insertHistory 5 (incomingRow (Int64.ofNat n) [] [])).2 } := by
      rw [arrivals, List.range_succ, List.map_append, run_append, ← arrivals, ← hs]
      rfl
    have hfree : ∀ x ∈ t.rows, x.sendTime ≠ Int64.ofNat n := by
      intro x hx he
      have := (hrows x hx).2.2
      rw [he, htime] at this
      exact absurd this (lt_irrefl _)
    have hsome : ∃ t', t.insert (incomingRow (Int64.ofNat n) [] []) = some t' := by
      refine Option.ne_none_iff_exists'.1 fun hnone => ?_
      obtain ⟨x, hx, he⟩ := (HistoryTable.insert_eq_none (incomingRow_checked _ _ _)).1 hnone
      exact hfree x hx he
    obtain ⟨t', ht'⟩ := hsome
    rw [hnext]
    refine ⟨hcur, hreads, t', ?_, ?_, ?_⟩
    · simp [Histories.insertHistory, (Histories.onTable_self ht).2, ht']
    · rw [(HistoryTable.insert_eq_some.1 ht').2.2, insertRow, List.orderedInsert_length, hlen]
    · intro r hr
      rcases (HistoryTable.mem_insert ht').1 hr with rfl | hr
      · exact ⟨rfl, rfl, by simp [incomingRow, htime]⟩
      · obtain ⟨hal, h1, hlt⟩ := hrows r hr
        exact ⟨hal, h1, by push_cast; omega⟩

theorem countNonRead_of_arrivals {n : ℕ} (hn : n ≤ 2 ^ 63) {s : Reading}
    (hs : s = run 5 (openEmpty 5) (arrivals n)) :
    s.current = none ∧ s.histories 5 ≠ none ∧ s.histories.countNonRead 5 = Int32.ofInt n ∧
      ((s.histories.table 5).rows.filter fun r =>
        r.object = objectAL ∧ r.ct ∉ s.returned).length = n := by
  obtain ⟨hcur, hreads, t, ht, hlen, hrows⟩ := run_arrivals n hn
  rw [← hs] at hcur hreads ht
  have hreturned : s.returned = [] := by rw [returned_of_idle hcur, hreads]; rfl
  have hall : ((s.histories.table 5).rows.filter fun r => r.object = objectAL ∧ r.ct ∉ s.returned) =
      t.rows := by
    rw [Histories.table_of_some ht, hreturned]
    exact List.filter_eq_self.2 fun r hr => by simp [(hrows r hr).1]
  have hunread : t.unread = t.rows := List.filter_eq_self.2 fun r hr => by simp [(hrows r hr).2.1]
  refine ⟨hcur, by simp [ht], ?_, by rw [hall, hlen]⟩
  simp only [Histories.countNonRead, ht, t.sum_nonRead, hunread, hlen]

/-- The count is an `int`: `2 ^ 31` messages that nobody has read are counted as a
    negative number. -/
theorem countNonRead_arrivals :
    ∃ s, s = run 5 (openEmpty 5) (arrivals (2 ^ 31)) ∧ s.current = none ∧ s.histories 5 ≠ none ∧
      (s.histories.countNonRead 5).toInt ≠ ((s.histories.table 5).rows.filter fun r =>
        r.object = objectAL ∧ r.ct ∉ s.returned).length := by
  obtain ⟨hcur, ht, hcount, hlen⟩ := countNonRead_of_arrivals (n := 2 ^ 31) (by norm_num) rfl
  refine ⟨_, rfl, hcur, ht, ?_⟩
  rw [hcount, hlen, Int32.toInt_ofInt]
  decide

end Reading

end SimpleChat
