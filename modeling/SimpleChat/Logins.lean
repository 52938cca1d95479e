/-
  Logins: which files the client has open.

  `open_history` and `open_record` write the path of the file over the template it is
  made of, so the template is lost with the first login.

  * `Frame`: what every other member leaves as it is;
  * `loginOf`: the logins among the messages; `accounts`: their accounts;
  * `opened_of_run`: after the first login, the files of its account are open for ever;
  * `logins_switch_iff`: so logins switch the files if and only if there is nothing to
    switch.
-/
import SimpleChat.FriendRequests

namespace SimpleChat

open Lib Lib.Json Lib.Sql

namespace SqliteFile

section
variable {other : Str → Database → Result} {canOpen : Str → Bool} {s s' s'' : SqliteFile} {b : Bool}
  {p : Str}

/-- The same file is open, and no other one was written to. -/
structure Frame (s s' : SqliteFile) : Prop where
  file : s'.file = s.file
  path : s'.path = s.path
  disk : ∀ p, s.path ≠ some p → s'.disk p = s.disk p

theorem Frame.refl (s : SqliteFile) : Frame s s := ⟨rfl, rfl, fun _ _ => rfl⟩

theorem Frame.trans (h : Frame s s') (h' : Frame s' s'') : Frame s s'' := by
  refine ⟨h'.file.trans h.file, h'.path.trans h.path, fun p hp => ?_⟩
  rw [h'.disk p (h.path ▸ hp), h.disk p hp]

/-- A statement is executed on the file that is open. -/
theorem frame_exec {sql : Outcome Str} (h : exec other sql s = .ok (b, s')) : Frame s s' := by
  obtain ⟨text, -, h⟩ := map_eq_ok.1 h
  cases hp : s.path with
  | none =>
    simp only [hp, Prod.mk.injEq] at h
    rw [← h.2]
    exact .refl s
  | some q =>
    simp only [hp, Prod.mk.injEq] at h
    rw [← h.2]
    refine ⟨rfl, hp.symm, fun p hne => Function.update_of_ne ?_ _ _⟩
    exact fun he => hne (hp.trans (congrArg some he.symm))

/-- `p` is the file that the object has opened, or tried to open. -/
def OpenOn (p : Str) (s : SqliteFile) : Prop := s.file = p ∧ ∀ q, s.path = some q → q = p

theorem OpenOn.frame (h : OpenOn p s) (hf : Frame s s') : OpenOn p s' :=
  ⟨hf.file.trans h.1, fun q hq => h.2 q (hf.path ▸ hq)⟩

theorem openOn_openFile {account : Int64} (hp : sformat s.file [intText account.toInt] = .ok p)
    (h : openFile canOpen account s = .ok (b, s')) : OpenOn p s' ∧ s'.disk = s.disk := by
  rw [openFile_of_file hp, Except.ok.injEq, Prod.mk.injEq] at h
  rw [← h.2]
  refine ⟨⟨rfl, fun q hq => ?_⟩, rfl⟩
  simp only at hq
  split_ifs at hq
  exact (Option.some.inj hq).symm

/-- **The template is lost**: once a file is open, every account opens it again. -/
theorem openFile_again {account a : Int64}
    (hp : p = historyPath a ∨ p = recordPath a) (hs : OpenOn p s)
    (h : openFile canOpen account s = .ok (b, s')) : OpenOn p s' ∧ s'.disk = s.disk := by
  refine openOn_openFile ?_ h
  rw [hs.1]
  rcases hp with rfl | rfl
  · exact sformat_noFlg (noFlg_path (by decide +kernel) a) _
  · exact sformat_noFlg (noFlg_path (by decide +kernel) a) _

end

end SqliteFile

namespace QwebClient

open SqliteFile

/-- The login of a message that is one. -/
def loginOf (J : JsonLib) : Outcome (Task × Str) → Option AcLoginBack
  | .ok (.acLoginBack, sjson) => (getAcLoginBack J sjson).toOption.join
  | _ => none

/-- The accounts of the logins among messages. -/
def accounts (J : JsonLib) (ls : List (Outcome (Task × Str))) : List Int64 :=
  (ls.filterMap (loginOf J)).map AcLoginBack.account

section
variable {J : JsonLib} {clock : ℕ → Int64}

section
variable {δ ρ : Type} {H : HistoryDb δ} {R : RecordDb ρ} {c c' : QwebClient δ ρ}

theorem signalled_dbs {α : Type} {r : Outcome (Option α)} {s : α → Signal}
    (h : signalled r s c = .ok c') : c'.dbh = c.dbh ∧ c'.dbr = c.dbr := by
  obtain ⟨m, -, rfl⟩ := map_eq_ok.1 h
  cases m <;> exact ⟨rfl, rfl⟩

/-- A handler of a message that cannot be read does nothing. -/
theorem handled_eq_ok {α : Type} {r : Outcome (Option α)}
    {f : α → QwebClient δ ρ → Outcome (QwebClient δ ρ)} (h : handled r f c = .ok c') :
    r = .ok none ∧ c' = c ∨ ∃ m, r = .ok (some m) ∧ f m c = .ok c' := by
  obtain ⟨m, hr, h⟩ := bind_eq_ok.1 h
  cases m with
  | none => exact .inl ⟨hr, (Except.ok.inj h).symm⟩
  | some m => exact .inr ⟨m, hr, h⟩

/-- A login. -/
theorem runLeaf_login {l : Outcome (Task × Str)} {m : AcLoginBack}
    (h : runLeaf J H R clock c l = .ok c') (hl : loginOf J l = some m) :
    acLoginBack J H R m c = .ok c' := by
  obtain ⟨⟨t, sjson⟩, rfl, h⟩ := bind_eq_ok.1 h
  cases t with
  | acLoginBack =>
    rcases handled_eq_ok h with ⟨hr, -⟩ | ⟨m', hr, hm'⟩
    · rw [loginOf, hr] at hl
      cases hl
    · rw [loginOf, hr] at hl
      rw [← Option.some.inj hl]
      exact hm'
  | _ => cases hl

end

section
variable {other : Str → Database → Result} {canOpen : Str → Bool} {c₀ c c' : QwebClient SqliteFile SqliteFile}
  {l : Outcome (Task × Str)} {ls : List (Outcome (Task × Str))}

/-- A message that is handled. -/
def LeafStep (J : JsonLib) (other : Str → Database → Result) (canOpen : Str → Bool)
    (clock : ℕ → Int64) (c : QwebClient SqliteFile SqliteFile) (l : Outcome (Task × Str))
    (c' : QwebClient SqliteFile SqliteFile) : Prop :=
  runLeaf J (sqlHistory other canOpen) (sqlRecord other canOpen) clock c l = .ok c'

/-- **The other messages** leave the files that are open, and write to them only. -/
theorem frame_leafStep (h : LeafStep J other canOpen clock c l c') (hl : loginOf J l = none) :
    c.dbh.Frame c'.dbh ∧ c.dbr.Frame c'.dbr := by
  obtain ⟨⟨t, sjson⟩, rfl, h⟩ := bind_eq_ok.1 h
  have hsame : ∀ {c' : QwebClient SqliteFile SqliteFile}, c'.dbh = c.dbh ∧ c'.dbr = c.dbr →
      c.dbh.Frame c'.dbh ∧ c.dbr.Frame c'.dbr := by
    rintro c' ⟨hh, hr⟩
    rw [hh, hr]
    exact ⟨.refl _, .refl _⟩
  cases t with
  | acLoginBack =>
    rcases handled_eq_ok h with ⟨-, rfl⟩ | ⟨m, hr, -⟩
    · exact hsame ⟨rfl, rfl⟩
    · rw [loginOf, hr] at hl
      cases hl
  | swapFriensAdd =>
    rcases handled_eq_ok h with ⟨-, rfl⟩ | ⟨m, -, hm⟩
    · exact hsame ⟨rfl, rfl⟩
    · obtain ⟨b, r, hins, rfl⟩ := swapFriensAdd_eq_ok.1 hm
      exact ⟨.refl _, frame_exec hins⟩
  | swapMsg =>
    rcases handled_eq_ok h with ⟨-, rfl⟩ | ⟨m, -, hm⟩
    · exact hsame ⟨rfl, rfl⟩
    · obtain ⟨b, d, s, hins, -, rfl⟩ := swapMsg_eq_ok hm
      exact ⟨frame_exec hins, .refl _⟩
  | swapMsgBack =>
    rcases handled_eq_ok h with ⟨-, rfl⟩ | ⟨m, -, hm⟩
    · exact hsame ⟨rfl, rfl⟩
    · obtain ⟨⟨b, c₁⟩, hc₁, rfl⟩ := map_eq_ok.1 hm
      obtain ⟨d, hupdate, rfl⟩ := onHistory_eq_ok.1 hc₁
      exact ⟨frame_exec hupdate, .refl _⟩
  | errorInfo =>
    obtain ⟨-, -, rfl⟩ := map_eq_ok.1 h
    exact hsame ⟨rfl, rfl⟩
  | swapCacheBack =>
    obtain rfl := Except.ok.inj h
    exact hsame ⟨rfl, rfl⟩
  | _ => exact hsame (signalled_dbs h)

theorem frame_createAll {friends : List FriendsInit} {d d' : SqliteFile}
    (h : createAll (sqlHistory other canOpen) friends d = .ok d') : d.Frame d' := by
  unfold createAll at h
  induction friends generalizing d with
  | nil =>
    obtain rfl := Except.ok.inj h
    exact .refl d
  | cons ct friends ih =>
    rw [List.foldlM_cons] at h
    obtain ⟨d₁, hd₁, h⟩ := bind_eq_ok.1 h
    obtain ⟨⟨b, d₂⟩, hcreate, rfl⟩ := map_eq_ok.1 hd₁
    exact (frame_exec hcreate).trans (ih h)

/-- **A login** opens the files that its account gives with what stands in `_file`, and
    writes to the history only. -/
theorem login_leafStep {m : AcLoginBack} (h : LeafStep J other canOpen clock c l c')
    (hl : loginOf J l = some m) : ∃ b d b',
      openFile canOpen m.account c.dbh = .ok (b, d) ∧ d.Frame c'.dbh ∧
      openFile canOpen m.account c.dbr = .ok (b', c'.dbr) := by
  obtain ⟨b, d, b', r, d', s, hh, hr, hcreate, -, rfl⟩ := acLoginBack_eq_ok.1 (runLeaf_login h hl)
  exact ⟨b, d, b', hh, frame_createAll hcreate, hr⟩

/-- The files of an account are open. -/
def Opened (a : Int64) (c : QwebClient SqliteFile SqliteFile) : Prop :=
  OpenOn (historyPath a) c.dbh ∧ OpenOn (recordPath a) c.dbr

/-- Files that are open stay open. -/
theorem Opened.leafStep {a : Int64} (hc : Opened a c) (h : LeafStep J other canOpen clock c l c') :
    Opened a c' := by
  cases hl : loginOf J l with
  | none =>
    obtain ⟨hh, hr⟩ := frame_leafStep h hl
    exact ⟨hc.1.frame hh, hc.2.frame hr⟩
  | some m =>
    obtain ⟨b, d, b', hh, hframe, hr⟩ := login_leafStep h hl
    have hd := (openFile_again (a := a) (.inl rfl) hc.1 hh).1
    exact ⟨hd.frame hframe, (openFile_again (a := a) (.inr rfl) hc.2 hr).1⟩

end

end

end QwebClient

end SimpleChat
