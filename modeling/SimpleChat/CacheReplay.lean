/-
  The replay of cached messages: a `swap_cache_back` message holds texts, some of them
  such messages again.

  * `IsMessage`: the messages for the client, and `Replays`: the messages in a text,
    nested ones in their place;
  * `HeadComplete`: the texts that the client can judge: `check_head` indexes a constant
    document, and there a missing field is a failed assertion;
  * `replays_iff`, `leaves_returns`: the code handles the messages of `Replays`, as long
    as it comes to no other text;
  * `cache_replayed`: so a cache is replayed iff all texts in it are such.
-/
import SimpleChat.Delivery

namespace SimpleChat

open Lib Lib.Json

namespace QwebClient

/-- A message for the client: from the server or from a client, and of a type that has a
    handler. -/
def IsMessage (J : JsonLib) (sjson : Str) (task : Task) : Prop :=
  ∃ fs stream type, J.parse sjson = some (.obj fs) ∧ find fs (lit "head") = some (.str head) ∧
    find fs (lit "version") = some (.str version) ∧ find fs (lit "stream") = some (.str stream) ∧
    find fs (lit "type") = some (.str type) ∧ (stream = streamSc ∨ stream = streamCc) ∧
    mapFn type = some task

/-- The messages in a text, each with its handler. -/
inductive Replays (J : JsonLib) : Str → List (Task × Str) → Prop
  | handled {sjson task} :
      IsMessage J sjson task → task ≠ .swapCacheBack → Replays J sjson [(task, sjson)]
  | cached {sjson svec lss} :
      IsMessage J sjson .swapCacheBack → getSwapCacheBack J sjson = .ok (some svec) →
      List.Forall₂ (Replays J) (getJsonVec J svec) lss → Replays J sjson lss.flatten
  | unread {sjson} :
      IsMessage J sjson .swapCacheBack → getSwapCacheBack J sjson = .ok none → Replays J sjson []
  | skipped {sjson} : (∀ task, ¬ IsMessage J sjson task) → Replays J sjson []

/-- The texts that the client comes to: those in the list and, behind messages of the
    cache, those in them. -/
inductive Within (J : JsonLib) (vec : List Str) : Str → Prop
  | entry {sjson} : sjson ∈ vec → Within J vec sjson
  | nested {sjson svec s} :
      Within J vec sjson → IsMessage J sjson .swapCacheBack →
      getSwapCacheBack J sjson = .ok (some svec) → s ∈ getJsonVec J svec → Within J vec s

/-- If the text has a stream and a type then it has a head, and behind the right head a
    version. -/
def HeadComplete (J : JsonLib) (sjson : Str) : Prop :=
  ∀ fs stream type, J.parse sjson = some (.obj fs) → find fs (lit "stream") = some (.str stream) →
    find fs (lit "type") = some (.str type) →
    ∃ h, find fs (lit "head") = some h ∧
      (h = .str head → ∃ v, find fs (lit "version") = some v)

section
variable {J : JsonLib} {s t sjson : Str} {vec : List Str} {task : Task} {ls : List (Task × Str)}

/-! ## One text -/

theorem eqString_iff {j : Json} : eqString j s = true ↔ j = .str s := by
  cases j <;> simp [eqString]

theorem checkHead_none {fs : List (Str × Json)} (hh : find fs (lit "head") = none) :
    checkHead (.obj fs) = .error .assertion := by
  simp only [checkHead, hh]

theorem checkHead_other {fs : List (Str × Json)} {h : Json} (hh : find fs (lit "head") = some h)
    (hne : h ≠ .str head) : checkHead (.obj fs) = .ok false := by
  simp only [checkHead, hh]
  exact if_neg fun he => hne (eqString_iff.1 he)

/-- Behind the right head the version is compared. -/
theorem checkHead_head {fs : List (Str × Json)} (hh : find fs (lit "head") = some (.str head)) :
    checkHead (.obj fs) = (find fs (lit "version")).elim (.error .assertion) fun v =>
      .ok (eqString v version) := by
  simp only [checkHead, hh]
  rw [if_pos (eqString_iff.2 rfl)]
  cases find fs (lit "version") <;> rfl

theorem checkHead_eq_true {fs : List (Str × Json)} :
    checkHead (.obj fs) = .ok true ↔
      find fs (lit "head") = some (.str head) ∧ find fs (lit "version") = some (.str version) := by
  cases hh : find fs (lit "head") with
  | none => simp [checkHead_none hh]
  | some h =>
    by_cases hhead : h = .str head
    · subst hhead
      rw [checkHead_head hh]
      cases find fs (lit "version") with
      | none => simp
      | some v => simp [eqString_iff]
    · simp [checkHead_other hh hhead, hhead]

theorem checkHead_returns {fs : List (Str × Json)} :
    (∃ b, checkHead (.obj fs) = .ok b) ↔
      ∃ h, find fs (lit "head") = some h ∧
        (h = .str head → ∃ v, find fs (lit "version") = some v) := by
  cases hh : find fs (lit "head") with
  | none => simp [checkHead_none hh]
  | some h =>
    by_cases hhead : h = .str head
    · subst hhead
      rw [checkHead_head hh]
      cases find fs (lit "version") <;> simp
    · simp [checkHead_other hh hhead, hhead]

theorem checkHead_error {fs : List (Str × Json)} {e : Fault} (h : checkHead (.obj fs) = .error e) :
    e = .assertion := by
  cases hh : find fs (lit "head") with
  | none =>
    rw [checkHead_none hh] at h
    exact (Except.error.inj h).symm
  | some v =>
    by_cases hhead : v = .str head
    · subst hhead
      rw [checkHead_head hh] at h
      cases hv : find fs (lit "version") with
      | none =>
        rw [hv] at h
        exact (Except.error.inj h).symm
      | some v => rw [hv] at h; cases h
    · rw [checkHead_other hh hhead] at h
      cases h

/-- `check_json` never throws: it fails on an assertion, or returns. -/
theorem checkJson_of_fields {fs : List (Str × Json)} {stream type : Str}
    (hp : J.parse sjson = some (.obj fs)) (hs : find fs (lit "stream") = some (.str stream))
    (ht : find fs (lit "type") = some (.str type)) :
    checkJson J sjson =
      (checkHead (.obj fs)).map fun ret => if ret then some (stream, type) else none := by
  have hstream : (index (.obj fs) (lit "stream")).bind getString = some stream := by
    rw [index, hs]
    rfl
  have htype : (index (.obj fs) (lit "type")).bind getString = some type := by
    rw [index, ht]
    rfl
  simp only [checkJson, hp, hstream, htype]
  cases hc : checkHead (.obj fs) with
  | ok b => rfl
  | error e =>
    obtain rfl := checkHead_error hc
    rfl

/-- A string field of an object. -/
theorem field_of_index {js : Json} {k : Str} (h : (index js k).bind getString = some s) :
    ∃ fs, js = .obj fs ∧ find fs k = some (.str s) := by
  obtain ⟨v, hv, hs⟩ := Option.bind_eq_some_iff.1 h
  obtain rfl : v = .str s := by
    cases v <;> simp only [getString, reduceCtorEq, Option.some.injEq] at hs
    rw [hs]
  cases js with
  | obj fs =>
    refine ⟨fs, rfl, ?_⟩
    rw [index] at hv
    cases hf : find fs k with
    | none => rw [hf] at hv; cases hv
    | some v => rw [hf] at hv; exact hv
  | _ => cases hv

/-- Other texts are no messages. -/
theorem checkJson_of_noFields
    (h : ¬ ∃ fs stream type, J.parse sjson = some (.obj fs) ∧
      find fs (lit "stream") = some (.str stream) ∧ find fs (lit "type") = some (.str type)) :
    checkJson J sjson = .ok none := by
  unfold checkJson
  cases hp : J.parse sjson with
  | none => rfl
  | some js =>
    cases hs : (index js (lit "stream")).bind getString with
    | none => simp only [hs]; rfl
    | some stream =>
      cases ht : (index js (lit "type")).bind getString with
      | none => simp only [hs, ht]; rfl
      | some type =>
        obtain ⟨fs, rfl, hfs⟩ := field_of_index hs
        obtain ⟨fs', hfs', hft⟩ := field_of_index ht
        obtain rfl := Json.obj.inj hfs'
        exact absurd ⟨fs, stream, type, hp, hfs, hft⟩ h

theorem route_eq_some : route J sjson = .ok (some task) ↔ IsMessage J sjson task := by
  constructor
  · intro h
    by_cases hf : ∃ fs stream type, J.parse sjson = some (.obj fs) ∧
        find fs (lit "stream") = some (.str stream) ∧ find fs (lit "type") = some (.str type)
    · obtain ⟨fs, stream, type, hp, hs, ht⟩ := hf
      obtain ⟨r, hr, h⟩ := map_eq_ok.1 h
      rw [checkJson_of_fields hp hs ht] at hr
      obtain ⟨b, hb, rfl⟩ := map_eq_ok.1 hr
      cases b with
      | false => cases h
      | true =>
        obtain ⟨hhead, hversion⟩ := checkHead_eq_true.1 hb
        simp only [if_true, Option.bind_some] at h
        split_ifs at h with hstream
        exact ⟨fs, stream, type, hp, hhead, hversion, hs, ht, hstream, h⟩
    · rw [route, checkJson_of_noFields hf] at h
      cases h
  · rintro ⟨fs, stream, type, hp, hhead, hversion, hs, ht, hstream, hmap⟩
    rw [route, checkJson_of_fields hp hs ht, checkHead_eq_true.2 ⟨hhead, hversion⟩]
    exact congrArg Except.ok ((if_pos hstream).trans hmap)

/-- **The texts that the client can judge.** -/
theorem route_returns : (∃ r, route J sjson = .ok r) ↔ HeadComplete J sjson := by
  constructor
  · rintro ⟨r, hr⟩ fs stream type hp hs ht
    obtain ⟨r', hr', -⟩ := map_eq_ok.1 hr
    rw [checkJson_of_fields hp hs ht] at hr'
    obtain ⟨b, hb, -⟩ := map_eq_ok.1 hr'
    exact checkHead_returns.1 ⟨b, hb⟩
  · intro h
    by_cases hf : ∃ fs stream type, J.parse sjson = some (.obj fs) ∧
        find fs (lit "stream") = some (.str stream) ∧ find fs (lit "type") = some (.str type)
    · obtain ⟨fs, stream, type, hp, hs, ht⟩ := hf
      obtain ⟨b, hb⟩ := checkHead_returns.2 (h fs stream type hp hs ht)
      rw [route, checkJson_of_fields hp hs ht, hb]
      exact ⟨_, rfl⟩
    · rw [route, checkJson_of_noFields hf]
      exact ⟨_, rfl⟩

/-- A message of the cache is parsed: its list is read or it is not. -/
theorem IsMessage.cache (h : IsMessage J sjson task) :
    (∃ svec, getSwapCacheBack J sjson = .ok (some svec)) ∨ getSwapCacheBack J sjson = .ok none := by
  obtain ⟨fs, -, -, hp, -⟩ := h
  rw [getSwapCacheBack, csGet, parse, hp]
  cases hr : ((getExtend (.obj fs) (lit "svec_sjson")).bind getString) with
  | none => exact Or.inr (congrArg Except.ok hr)
  | some svec => exact Or.inl ⟨svec, congrArg Except.ok hr⟩

theorem IsMessage.unique {task' : Task} (h : IsMessage J sjson task) (h' : IsMessage J sjson task') :
    task = task' :=
  Option.some.inj (Except.ok.inj ((route_eq_some.2 h).symm.trans (route_eq_some.2 h')))

/-! ## Lists of texts -/

theorem leaves_of_unread (hm : IsMessage J sjson .swapCacheBack)
    (hc : getSwapCacheBack J sjson = .ok none) : leaves J sjson = [] := by
  rw [leaves]
  simp only [route_eq_some.2 hm]
  split
  · rename_i h; rw [hc] at h; cases h
  · rfl
  · rename_i h; rw [hc] at h; cases h

/-- A text that is no message is ignored, or cannot be judged. -/
theorem leaves_of_skipped (h : ∀ task, ¬ IsMessage J sjson task) :
    leaves J sjson = [] ∨ ∃ e, leaves J sjson = [.error e] := by
  rw [leaves]
  cases hr : route J sjson with
  | error e => exact Or.inr ⟨e, rfl⟩
  | ok r =>
    cases r with
    | none => exact Or.inl rfl
    | some task => exact absurd (route_eq_some.1 hr) (h task)

/-- The messages among the leaves. -/
def readLeaves (J : JsonLib) (sjson : Str) : List (Task × Str) :=
  (leaves J sjson).filterMap Except.toOption

theorem readLeaves_of_cache {svec : Str} (hm : IsMessage J sjson .swapCacheBack)
    (hc : getSwapCacheBack J sjson = .ok (some svec)) :
    readLeaves J sjson = ((getJsonVec J svec).map (readLeaves J)).flatten := by
  rw [readLeaves, leaves_of_cache (route_eq_some.2 hm) hc, List.filterMap_flatMap]
  rfl

theorem eq_map_of_forall₂ {R : Str → List (Task × Str) → Prop} {f : Str → List (Task × Str)}
    {lss : List (List (Task × Str))} (h : List.Forall₂ R vec lss)
    (hR : ∀ s ∈ vec, ∀ ls, R s ls → ls = f s) : lss = vec.map f := by
  induction h with
  | nil => rfl
  | cons h _ ih =>
    rw [List.map_cons, hR _ List.mem_cons_self _ h]
    exact congrArg _ (ih fun s hs => hR s (List.mem_cons_of_mem _ hs))

/-- **The messages in a text are those that the code comes to**, by induction on the
    length of the text. -/
theorem replays_iff : Replays J sjson ls ↔ ls = readLeaves J sjson := by
  induction hn : sjson.length using Nat.strong_induction_on generalizing sjson ls with
  | _ n ih =>
    by_cases hm : ∃ task, IsMessage J sjson task
    swap
    · have hskip := not_exists.1 hm
      have hread : readLeaves J sjson = [] := by
        rcases leaves_of_skipped hskip with h | ⟨e, h⟩ <;> rw [readLeaves, h] <;> rfl
      rw [hread]
      constructor
      · rintro (⟨h, -⟩ | ⟨h, -, -⟩ | ⟨h, -⟩ | -)
        · exact absurd h (hskip _)
        · exact absurd h (hskip _)
        · rfl
        · rfl
      · rintro rfl
        exact .skipped hskip
    obtain ⟨task, hm⟩ := hm
    by_cases ht : task = .swapCacheBack
    swap
    · have hread : readLeaves J sjson = [(task, sjson)] := by
        rw [readLeaves, leaves_of_task (route_eq_some.2 hm) ht]
        rfl
      rw [hread]
      constructor
      · rintro (⟨h, -⟩ | ⟨h, -, -⟩ | ⟨h, -⟩ | h)
        · rw [h.unique hm]
        · exact absurd (hm.unique h) ht
        · exact absurd (hm.unique h) ht
        · exact absurd hm (h task)
      · rintro rfl
        exact .handled hm ht
    subst ht
    rcases hm.cache with ⟨svec, hc⟩ | hc
    · rw [readLeaves_of_cache hm hc]
      have hshort : ∀ s ∈ getJsonVec J svec, ∀ ls, Replays J s ls ↔ ls = readLeaves J s := by
        intro s hs ls
        refine ih s.length ?_ rfl
        exact hn ▸ (getJsonVec_length hs).trans (getSwapCacheBack_length hc)
      constructor
      · rintro (⟨h, hne⟩ | ⟨h, hc', hlss⟩ | ⟨h, hc'⟩ | h)
        · exact absurd (h.unique hm) hne
        · obtain rfl := Option.some.inj (Except.ok.inj (hc.symm.trans hc'))
          rw [eq_map_of_forall₂ hlss fun s hs ls h => (hshort s hs ls).1 h]
        · rw [hc] at hc'; cases hc'
        · exact absurd hm (h _)
      · rintro rfl
        refine .cached hm hc ?_
        rw [List.forall₂_map_right_iff, List.forall₂_same]
        exact fun s hs => (hshort s hs _).2 rfl
    · rw [readLeaves, leaves_of_unread hm hc]
      constructor
      · rintro (⟨h, hne⟩ | ⟨h, hc', hlss⟩ | ⟨h, hc'⟩ | -)
        · exact absurd (h.unique hm) hne
        · rw [hc] at hc'; cases hc'
        · rfl
        · rfl
      · rintro rfl
        exact .unread hm hc

/-- A list is expanded text by text. -/
theorem forall₂_replays (vec : List Str) :
    List.Forall₂ (Replays J) vec (vec.map (readLeaves J)) := by
  rw [List.forall₂_map_right_iff, List.forall₂_same]
  exact fun s _ => replays_iff.2 rfl

theorem mem_leaves_of_within (h : Within J vec s) {l : Outcome (Task × Str)} (hl : l ∈ leaves J s) :
    ∃ u ∈ vec, l ∈ leaves J u := by
  induction h with
  | entry hs => exact ⟨_, hs, hl⟩
  | nested _ hm hc hs ih =>
    refine ih ?_
    rw [leaves_of_cache (route_eq_some.2 hm) hc, List.mem_flatMap]
    exact ⟨_, hs, hl⟩

/-- If the client can judge all texts that it comes to then reading them returns. -/
theorem leaves_returns (hall : ∀ s, Within J vec s → HeadComplete J s) (h : Within J vec s) :
    ∀ l ∈ leaves J s, ∃ a, l = .ok a := by
  induction hn : s.length using Nat.strong_induction_on generalizing s with
  | _ n ih =>
    intro l hl
    by_cases hm : ∃ task, IsMessage J s task
    swap
    · obtain ⟨r, hr⟩ := route_returns.2 (hall s h)
      rcases leaves_of_skipped (not_exists.1 hm) with hnil | ⟨e, he⟩
      · rw [hnil] at hl
        cases hl
      · rw [leaves, hr] at he
        cases r with
        | none => cases he
        | some task => exact absurd ⟨task, route_eq_some.1 hr⟩ hm
    obtain ⟨task, hm⟩ := hm
    by_cases ht : task = .swapCacheBack
    swap
    · rw [leaves_of_task (route_eq_some.2 hm) ht, List.mem_singleton] at hl
      exact ⟨_, hl⟩
    subst ht
    rcases hm.cache with ⟨svec, hc⟩ | hc
    · rw [leaves_of_cache (route_eq_some.2 hm) hc, List.mem_flatMap] at hl
      obtain ⟨u, hu, hl⟩ := hl
      have hlt := (getJsonVec_length hu).trans (getSwapCacheBack_length hc)
      exact ih u.length (hn ▸ hlt) (h.nested hm hc hu) rfl l hl
    · rw [leaves_of_unread hm hc] at hl
      cases hl

end

/-! ## The cache -/

section
variable {δ ρ : Type} {J : JsonLib} {H : HistoryDb δ} {R : RecordDb ρ} {clock : ℕ → Int64}
  {c c' : QwebClient δ ρ} {vec : List Str} {t : Str}

/-- The handlers of some messages, one after the other. -/
def runTasks (J : JsonLib) (H : HistoryDb δ) (R : RecordDb ρ) (clock : ℕ → Int64)
    (ls : List (Task × Str)) (c : QwebClient δ ρ) : Outcome (QwebClient δ ρ) :=
  ls.foldlM (fun c l => runTask J H R clock l.1 l.2 c) c

theorem ok_of_mem_foldlM {ls : List (Outcome (Task × Str))}
    (h : ls.foldlM (runLeaf J H R clock) c = .ok c') : ∀ l ∈ ls, ∃ a, l = .ok a := by
  induction ls generalizing c with
  | nil => simp
  | cons l ls ih =>
    rw [List.foldlM_cons] at h
    obtain ⟨c₁, h₁, h⟩ := bind_eq_ok.1 h
    obtain ⟨a, ha, -⟩ := bind_eq_ok.1 h₁
    exact List.forall_mem_cons.2 ⟨⟨a, ha⟩, ih h⟩

theorem foldlM_runLeaf {ls : List (Outcome (Task × Str))} (h : ∀ l ∈ ls, ∃ a, l = .ok a)
    (c : QwebClient δ ρ) :
    ls.foldlM (runLeaf J H R clock) c = runTasks J H R clock (ls.filterMap Except.toOption) c := by
  induction ls generalizing c with
  | nil => rfl
  | cons l ls ih =>
    obtain ⟨⟨a, rfl⟩, hls⟩ := List.forall_mem_cons.1 h
    exact congrArg _ (funext fun c => ih hls c)

/-- The texts of a cache that was written are those that were put in. -/
theorem leaves_setSwapCacheBack (hvec : ∀ s ∈ vec, validUtf8 s = true)
    (ht : setSwapCacheBack J (setJsonVec J vec) = .ok t) : leaves J t = vec.flatMap (leaves J) := by
  have hset : MsgType.swapCacheBack.set J (setJsonVec J vec) = .ok t := ht
  have hget : getSwapCacheBack J t = .ok (some (setJsonVec J vec)) := MsgType.get_set J hset
  rw [leaves_of_cache ((route_set hset).trans (by decide +kernel)) hget, getJsonVec_setJsonVec hvec]

/-- **A cache is replayed iff the client can judge every text in it**, provided that the
    handlers of its messages return.  Each message is handled once, in its place. -/
theorem cache_replayed (hvec : ∀ s ∈ vec, validUtf8 s = true)
    (ht : setSwapCacheBack J (setJsonVec J vec) = .ok t)
    (hret : ∀ lss, List.Forall₂ (Replays J) vec lss →
      ∃ c', runTasks J H R clock lss.flatten c = .ok c') :
    (∃ lss, List.Forall₂ (Replays J) vec lss ∧
        slMessage J H R clock t c = runTasks J H R clock lss.flatten c) ↔
      ∀ s, Within J vec s → HeadComplete J s := by
  have hleaves := leaves_setSwapCacheBack hvec ht
  constructor
  · rintro ⟨lss, hlss, hrun⟩ s hs
    obtain ⟨c', hc'⟩ := hret lss hlss
    rw [slMessage_eq, hleaves] at hrun
    have hok := ok_of_mem_foldlM (hrun.trans hc')
    by_contra hcomplete
    cases hr : route J s with
    | ok r => exact hcomplete (route_returns.1 ⟨r, hr⟩)
    | error e =>
      have hmem : .error e ∈ leaves J s := by
        rw [leaves, hr]
        exact List.mem_singleton_self _
      obtain ⟨u, hu, hl⟩ := mem_leaves_of_within hs hmem
      obtain ⟨a, ha⟩ := hok _ (List.mem_flatMap.2 ⟨u, hu, hl⟩)
      cases ha
  · intro hall
    refine ⟨vec.map (readLeaves J), forall₂_replays vec, ?_⟩
    rw [slMessage_eq, hleaves, foldlM_runLeaf, List.filterMap_flatMap]
    · rfl
    · intro l hl
      obtain ⟨u, hu, hl⟩ := List.mem_flatMap.1 hl
      exact leaves_returns hall (.entry hu) l hl

end

/-! ## A text without a head -/

/-- The text that a message was written as is UTF-8. -/
theorem utf8_set {J : JsonLib} (hJ : J.Strict) {T : MsgType} {args : T.Args} {t : Str}
    (h : T.set J args = .ok t) : validUtf8 t = true := by
  obtain ⟨fields, hT⟩ := MsgType.agrees J T args
  obtain ⟨_, -, h⟩ := bind_eq_ok.1 (hT.set_eq ▸ h)
  obtain ⟨_, -, h⟩ := bind_eq_ok.1 h
  obtain ⟨js, -, h⟩ := bind_eq_ok.1 h
  cases hd : J.dump js with
  | none => rw [dump, hd] at h; cases h
  | some t' =>
    rw [dump, hd] at h
    obtain rfl := Except.ok.inj h
    exact hJ.utf8 hd

theorem replays_set {T : MsgType} {args : T.Args} {t : Str} {task : Task}
    (h : T.set jsonText args = .ok t)
    (hroute : (if T.stream = streamSc ∨ T.stream = streamCc then mapFn T.name else none) = some task)
    (ht : task ≠ .swapCacheBack) : Replays jsonText t [(task, t)] :=
  .handled (route_eq_some.1 ((route_set h).trans (congrArg Except.ok hroute))) ht

/-- A text without a head: not a message. -/
def noHead : Str := lit "\x7b\"stream\":\"sc\",\"type\":\"swap_msg\"\x7d"

theorem route_noHead : route jsonText noHead = .error .assertion := by
  decide +kernel

theorem replays_noHead : Replays jsonText noHead [] := by
  refine .skipped fun task h => ?_
  have := route_eq_some.2 h
  rw [route_noHead] at this
  cases this

/-- A text without a head costs the message behind it. -/
theorem cache_assertion : ∃ m t, setSwapMsg jsonText ⟨1, 5, 7, lit "Text", lit "hi"⟩ = .ok m ∧
    setSwapCacheBack jsonText (setJsonVec jsonText [noHead, m]) = .ok t ∧
    List.Forall₂ (Replays jsonText) [noHead, m] [[], [(.swapMsg, m)]] ∧
    ∀ c, slMessage jsonText rowHistory noRecords (fun _ => 9) t c = .error .assertion := by
  obtain ⟨m, hm⟩ := MsgType.exists_set jsonText .swapMsg ⟨1, 5, 7, lit "Text", lit "hi"⟩ (by decide)
  have hvec : ∀ s ∈ [noHead, m], validUtf8 s = true := by
    simp only [List.mem_cons, List.not_mem_nil, or_false, forall_eq_or_imp, forall_eq]
    exact ⟨by decide +kernel, utf8_set jsonText_strict hm⟩
  obtain ⟨t, ht⟩ := MsgType.exists_set jsonText .swapCacheBack (setJsonVec jsonText [noHead, m]) (by
    simp only [MsgType.strings, List.mem_singleton, forall_eq]
    exact jsonText_strict.utf8 (dump_vec hvec))
  refine ⟨m, t, hm, ht, .cons replays_noHead (.cons ?_ .nil), fun c => ?_⟩
  · exact replays_set hm (by decide +kernel) (by decide)
  · have hleaf : leaves jsonText noHead = [.error .assertion] := by
      rw [leaves, route_noHead]
    rw [slMessage_eq, leaves_setSwapCacheBack hvec ht, List.flatMap_cons, hleaf]
    rfl

/-- A message and a text that is none. -/
theorem cache_replayed_two : ∃ m t, setSwapMsg jsonText ⟨1, 5, 7, lit "Text", lit "hi"⟩ = .ok m ∧
    setSwapCacheBack jsonText (setJsonVec jsonText [m, lit "x"]) = .ok t ∧
    ((∃ lss, List.Forall₂ (Replays jsonText) [m, lit "x"] lss ∧
        slMessage jsonText rowHistory noRecords (fun _ => 9) t emptyTables =
          runTasks jsonText rowHistory noRecords (fun _ => 9) lss.flatten emptyTables) ↔
      ∀ s, Within jsonText [m, lit "x"] s → HeadComplete jsonText s) := by
  obtain ⟨m, hm⟩ := MsgType.exists_set jsonText .swapMsg ⟨1, 5, 7, lit "Text", lit "hi"⟩ (by decide)
  have hvec : ∀ s ∈ [m, lit "x"], validUtf8 s = true := by
    simp only [List.mem_cons, List.not_mem_nil, or_false, forall_eq_or_imp, forall_eq]
    exact ⟨utf8_set jsonText_strict hm, by decide +kernel⟩
  obtain ⟨t, ht⟩ := MsgType.exists_set jsonText .swapCacheBack (setJsonVec jsonText [m, lit "x"]) (by
    simp only [MsgType.strings, List.mem_singleton, forall_eq]
    exact jsonText_strict.utf8 (dump_vec hvec))
  refine ⟨m, t, hm, ht, cache_replayed hvec ht fun lss hlss => ?_⟩
  have hread : readLeaves jsonText m = [(.swapMsg, m)] :=
    (replays_iff.1 (replays_set hm (by decide +kernel) (by decide))).symm
  have hother : readLeaves jsonText (lit "x") = [] := by
    refine (replays_iff.1 (.skipped fun task h => ?_)).symm
    have hroute : route jsonText (lit "x") = .ok none := by decide +kernel
    have := route_eq_some.2 h
    rw [hroute] at this
    cases this
  have hmap := eq_map_of_forall₂ hlss fun s _ ls h => replays_iff.1 h
  rw [List.map_cons, List.map_singleton, hread, hother] at hmap
  obtain ⟨c', hc', -⟩ := slMessage_delivers noRecords (fun _ => 9) (delivers_live hm) emptyTables
  refine ⟨c', ?_⟩
  rw [slMessage_of_task ((route_set hm).trans (by decide +kernel)) (t := .swapMsg) (by decide)] at hc'
  rw [hmap]
  exact bind_eq_ok.2 ⟨c', hc', rfl⟩

end QwebClient

end SimpleChat
