/-
  wid_friend_list.cpp: the panel that shows a friend.

  * `FriendPanel.step`: `add_friend`, `add_person_friends` and `add_friend_remarks`;
  * `Belongs`: what the panel saves and shows is the friend that it displays, with the
    remarks and the icon of `_map_friends`;
  * `belongs_iff`: it does in every state of a run iff no step leaves or brings the
    remarks of another friend, or of the same friend before they were cleared
    (`Harmless`): the setter ignores empty texts, and a reply for any friend is shown.
-/
import SimpleChat.PersonInfo

namespace SimpleChat

open Lib

/-- A record of `_map_friends`, and the copy of its status in its button. -/
structure CtFriend where
  status : FriendsInit
  butt : FriendsInit
  deriving DecidableEq, Repr

/-- `_map_friends` and `_wid_fd_info` -/
structure FriendPanel where
  mapFriends : Int64 → Option CtFriend
  widFdInfo : WidPersonInfo

inductive PanelEvent where
  | addFriend (ct : FriendsInit)
  | addPersonFriends (ct : AcInfo)
  | addFriendRemarks (account : Int64) (remarks : Str)
  deriving DecidableEq, Repr

namespace FriendPanel

/-! ## The code -/

/-- The path of an icon. -/
def withPathIcon (ct : FriendsInit) : FriendsInit := { ct with icon := lit "../data/head_icon/" ++ ct.icon }

section
variable (c : Utf8Codec) (s : FriendPanel)

/-- `add_friend`: the record and its button; a key that is taken keeps its record. -/
def addFriend (ct : FriendsInit) : FriendPanel :=
  let ct := withPathIcon ct
  match s.mapFriends ct.friends with
  | some _ => s
  | none => { s with mapFriends := Function.update s.mapFriends ct.friends (some ⟨ct, ct⟩) }

/-- `add_person_friends` -/
def addPersonFriends (ct : AcInfo) : FriendPanel :=
  match s.mapFriends ct.account with
  | some it =>
    let remarks := c.fromStdString it.status.remarks
    let icon := c.fromStdString it.status.icon
    { s with widFdInfo := ((s.widFdInfo.setInfo c ct).setInfoRemarks remarks icon []).updateInfo }
  | none => s

/-- `add_friend_remarks` -/
def addFriendRemarks (account : Int64) (remarks : Str) : FriendPanel :=
  match s.mapFriends account with
  | some it =>
    let it := { status := { it.status with remarks }, butt := { it.butt with remarks } }
    { mapFriends := Function.update s.mapFriends account (some it)
      widFdInfo := (s.widFdInfo.setInfoRemarks (c.fromStdString remarks) [] []).updateInfo }
  | none => s

def step : PanelEvent → FriendPanel
  | .addFriend ct => s.addFriend ct
  | .addPersonFriends ct => s.addPersonFriends c ct
  | .addFriendRemarks account remarks => s.addFriendRemarks c account remarks

end

/-- The panel behind `init_friends`. -/
def start : FriendPanel where
  mapFriends _ := none
  widFdInfo := ⟨⟨[], [], [], [], [], [], [], [], []⟩, ⟨some [], [], [], [], [], [], [], none⟩, some []⟩

def run (c : Utf8Codec) (evs : List PanelEvent) : FriendPanel := evs.foldl (step c) start

/-! ## Whose data is shown -/

/-- The panel displays a friend that was delivered: the account fields are his. -/
def Displays (c : Utf8Codec) (evs : List PanelEvent) (s : FriendPanel) (ct : AcInfo) : Prop :=
  .addPersonFriends ct ∈ evs ∧ (s.widFdInfo.setInfo c ct).ctSave = s.widFdInfo.ctSave

/-- What is saved is shown, and it is nothing yet or all belongs to one friend, with the
    remarks and the icon of his record. -/
structure Belongs (c : Utf8Codec) (evs : List PanelEvent) (s : FriendPanel) : Prop where
  shown : s.widFdInfo.updateInfo = s.widFdInfo
  saved : s.widFdInfo.ctSave = start.widFdInfo.ctSave ∨
    ∃ ct it, Displays c evs s ct ∧ s.mapFriends ct.account = some it ∧
      s.widFdInfo.ctSave.remarks = c.fromStdString it.status.remarks ∧
      s.widFdInfo.ctSave.icon = c.fromStdString it.status.icon

/-- The step neither leaves the remarks that are saved in the place of empty ones, nor
    brings those of a friend that is not displayed. -/
def Harmless (c : Utf8Codec) (s : FriendPanel) : PanelEvent → Prop
  | .addFriend _ => True
  | .addPersonFriends ct => ∀ it, s.mapFriends ct.account = some it → it.status.remarks = [] →
      s.widFdInfo.ctSave.remarks = []
  | .addFriendRemarks account remarks => (s.mapFriends account).isSome →
      if s.widFdInfo.ctSave.account = QString.number account
      then remarks = [] → s.widFdInfo.ctSave.remarks = []
      else remarks = [] ∨ s.widFdInfo.ctSave.remarks = c.fromStdString remarks

section
variable {c : Utf8Codec} {s : FriendPanel} {evs : List PanelEvent} {ev : PanelEvent} {ct : AcInfo} {it : CtFriend}
  {account : Int64} {remarks : Str}

/-! ## The setters of the panel -/

theorem updateInfo_updateInfo (w : WidPersonInfo) : w.updateInfo.updateInfo = w.updateInfo := by
  simp [WidPersonInfo.updateInfo, Function.comp_def]

/-- The setter of the remarks keeps the account fields. -/
theorem setInfo_setInfoRemarks {w : WidPersonInfo} (remarks icon notes : QString)
    (h : (w.setInfo c ct).ctSave = w.ctSave) :
    ((w.setInfoRemarks remarks icon notes).setInfo c ct).ctSave = (w.setInfoRemarks remarks icon notes).ctSave := by
  rw [PersonStr.ext_iff] at h ⊢
  exact ⟨rfl, rfl, rfl, h.2.2.2⟩

theorem ctSave_setInfoRemarks (w : WidPersonInfo) (remarks : QString) :
    (w.setInfoRemarks remarks [] []).ctSave =
      if remarks = [] then w.ctSave else { w.ctSave with remarks } := by
  rcases eq_or_ne remarks [] with rfl | hne
  · rfl
  · rw [if_neg hne, WidPersonInfo.setInfoRemarks, if_pos hne]
    rfl

/-- A displayed friend has the account of the panel. -/
theorem Displays.account_eq (h : Displays c evs s ct) : s.widFdInfo.ctSave.account = QString.number ct.account := by
  rw [← h.2]
  rfl

theorem Displays.unique {ct' : AcInfo} (h : Displays c evs s ct) (h' : Displays c evs s ct') :
    ct'.account = ct.account :=
  QString.number_inj (h'.account_eq.symm.trans h.account_eq)

/-- What belongs to a friend who is displayed. -/
theorem belongs_iff_of_displays {m : Int64 → Option CtFriend} {w : WidPersonInfo}
    (hmem : .addPersonFriends ct ∈ evs) (hct : (w.setInfo c ct).ctSave = w.ctSave)
    (hit : m ct.account = some it) :
    Belongs c evs ⟨m, w.updateInfo⟩ ↔ w.ctSave.remarks = c.fromStdString it.status.remarks ∧
      w.ctSave.icon = c.fromStdString it.status.icon := by
  have hdisplays : Displays c evs ⟨m, w.updateInfo⟩ ct := ⟨hmem, hct⟩
  constructor
  · rintro ⟨-, hstart | ⟨ct', it', hct', hit', hsaved⟩⟩
    · have haccount := hdisplays.account_eq
      rw [hstart] at haccount
      exact absurd haccount.symm (QString.number_ne_nil _)
    · rw [hdisplays.unique hct'] at hit'
      obtain rfl : it = it' := Option.some.inj (hit.symm.trans hit')
      exact hsaved
  · intro hsaved
    exact ⟨updateInfo_updateInfo w, Or.inr ⟨ct, it, hdisplays, hit, hsaved⟩⟩

/-- What belongs to nobody yet. -/
theorem belongs_iff_of_nobody {m : Int64 → Option CtFriend} {w : WidPersonInfo} (hw : w.ctSave.account = []) :
    Belongs c evs ⟨m, w.updateInfo⟩ ↔ w.ctSave = start.widFdInfo.ctSave := by
  constructor
  · rintro ⟨-, hstart | ⟨ct, it, hct, -⟩⟩
    · exact hstart
    · exact absurd (hct.account_eq.symm.trans hw) (QString.number_ne_nil _)
  · intro hstart
    exact ⟨updateInfo_updateInfo w, Or.inl hstart⟩

/-! ## Records -/

/-- The icon of a record is a path. -/
def Paths (s : FriendPanel) : Prop := ∀ account it, s.mapFriends account = some it → it.status.icon ≠ []

theorem withPathIcon_ne_nil (ct : FriendsInit) : (withPathIcon ct).icon ≠ [] := by
  rw [withPathIcon, lit_ofList rfl]
  exact List.cons_ne_nil _ _

theorem addFriend_eq (s : FriendPanel) (ct : FriendsInit) : s.addFriend ct = s ∨
    s.mapFriends ct.friends = none ∧ s.addFriend ct =
      ⟨Function.update s.mapFriends ct.friends (some ⟨withPathIcon ct, withPathIcon ct⟩), s.widFdInfo⟩ := by
  cases hit : s.mapFriends ct.friends with
  | none => exact Or.inr ⟨rfl, by simp [addFriend, withPathIcon, hit]⟩
  | some it => exact Or.inl (by simp [addFriend, withPathIcon, hit])

theorem addPersonFriends_some (hit : s.mapFriends ct.account = some it) : s.addPersonFriends c ct =
    ⟨s.mapFriends, ((s.widFdInfo.setInfo c ct).setInfoRemarks (c.fromStdString it.status.remarks)
      (c.fromStdString it.status.icon) []).updateInfo⟩ := by
  simp only [addPersonFriends, hit]

theorem addPersonFriends_none (hit : s.mapFriends ct.account = none) : s.addPersonFriends c ct = s := by
  simp only [addPersonFriends, hit]

theorem addFriendRemarks_some (hit : s.mapFriends account = some it) : s.addFriendRemarks c account remarks =
    ⟨Function.update s.mapFriends account (some ⟨{ it.status with remarks }, { it.butt with remarks }⟩),
      (s.widFdInfo.setInfoRemarks (c.fromStdString remarks) [] []).updateInfo⟩ := by
  simp only [addFriendRemarks, hit]

theorem addFriendRemarks_none (hit : s.mapFriends account = none) : s.addFriendRemarks c account remarks = s := by
  simp only [addFriendRemarks, hit]

/-- A record that is written has a path. -/
theorem paths_update (it : CtFriend) (h : Paths s) (hit : it.status.icon ≠ []) (w : WidPersonInfo) :
    Paths ⟨Function.update s.mapFriends account (some it), w⟩ := by
  intro account' it' hit'
  rcases eq_or_ne account' account with rfl | hne
  · obtain rfl : it = it' := Option.some.inj (by simpa using hit')
    exact hit
  · exact h account' it' (by simpa [hne] using hit')

theorem paths_step (h : Paths s) (ev : PanelEvent) : Paths (s.step c ev) := by
  cases ev with
  | addFriend ct =>
    show Paths (s.addFriend ct)
    rcases addFriend_eq s ct with heq | ⟨-, heq⟩
    · rwa [heq]
    · rw [heq]
      exact paths_update _ h (withPathIcon_ne_nil ct) s.widFdInfo
  | addPersonFriends ct =>
    show Paths (s.addPersonFriends c ct)
    cases hit : s.mapFriends ct.account with
    | none => rwa [addPersonFriends_none hit]
    | some it =>
      rw [addPersonFriends_some hit]
      exact h
  | addFriendRemarks account remarks =>
    show Paths (s.addFriendRemarks c account remarks)
    cases hit : s.mapFriends account with
    | none => rwa [addFriendRemarks_none hit]
    | some it =>
      rw [addFriendRemarks_some hit]
      exact paths_update ⟨{ it.status with remarks }, _⟩ h (h account it hit) _

theorem paths_run (c : Utf8Codec) (evs : List PanelEvent) : Paths (run c evs) := by
  induction evs using List.reverseRecOn with
  | nil => exact fun _ _ h => absurd h.symm (Option.some_ne_none _)
  | append_singleton evs ev ih =>
    rw [run, List.foldl_append]
    exact paths_step ih ev

/-! ## Steps -/

/-- An event more changes nothing for a panel that is left alone. -/
theorem belongs_mono {s' : FriendPanel} (h : Belongs c evs s) (hw : s'.widFdInfo = s.widFdInfo)
    (hmap : ∀ account it, s.mapFriends account = some it → s'.mapFriends account = some it) :
    Belongs c (evs ++ [ev]) s' := by
  obtain ⟨hshown, hsaved⟩ := h
  refine ⟨by rw [hw]; exact hshown, ?_⟩
  rw [hw]
  refine hsaved.imp_right ?_
  rintro ⟨ct, it, hct, hit, hsaved⟩
  exact ⟨ct, it, ⟨List.mem_append_left _ hct.1, by rw [hw]; exact hct.2⟩, hmap _ _ hit, hsaved⟩

theorem belongs_addFriend (h : Belongs c evs s) (ct : FriendsInit) :
    Belongs c (evs ++ [ev]) (s.addFriend ct) := by
  rcases addFriend_eq s ct with heq | ⟨hnone, heq⟩
  · rw [heq]
    exact belongs_mono h rfl fun _ _ hit => hit
  · rw [heq]
    refine belongs_mono h rfl fun account it hit => ?_
    have hne : account ≠ ct.friends := by
      rintro rfl
      rw [hnone] at hit
      exact Option.some_ne_none _ hit.symm
    show Function.update _ _ _ _ = _
    rw [Function.update_of_ne hne, hit]

/-- A friend is displayed with the remarks of his record, unless it has none and some are
    saved. -/
theorem belongs_addPersonFriends (hp : Paths s) (h : Belongs c evs s) (ct : AcInfo) :
    Belongs c (evs ++ [.addPersonFriends ct]) (s.addPersonFriends c ct) ↔
      Harmless c s (.addPersonFriends ct) := by
  cases hit : s.mapFriends ct.account with
  | none =>
    rw [addPersonFriends_none hit]
    refine ⟨fun _ it hsome => ?_, fun _ => belongs_mono h rfl fun _ _ hit => hit⟩
    rw [hit] at hsome
    exact absurd hsome.symm (Option.some_ne_none it)
  | some it =>
    have hicon : c.fromStdString it.status.icon ≠ [] := mt (c.empty_iff _).1 (hp _ _ hit)
    rw [addPersonFriends_some hit, belongs_iff_of_displays
      (List.mem_append_right _ (List.mem_singleton_self _)) (setInfo_setInfoRemarks _ _ _ rfl) hit]
    simp only [Harmless, hit, Option.some.injEq, forall_eq', WidPersonInfo.setInfoRemarks,
      WidPersonInfo.setInfo, if_pos hicon, and_true]
    rcases eq_or_ne it.status.remarks [] with hnil | hne
    · simp [hnil, (c.empty_iff []).2 rfl]
    · simp [hne, c.empty_iff]

/-- A remark is shown where it belongs, unless it replaces none or is not for the friend
    who is displayed. -/
theorem belongs_addFriendRemarks (h : Belongs c evs s) (account : Int64) (remarks : Str) :
    Belongs c (evs ++ [.addFriendRemarks account remarks]) (s.addFriendRemarks c account remarks) ↔
      Harmless c s (.addFriendRemarks account remarks) := by
  cases hit : s.mapFriends account with
  | none =>
    rw [addFriendRemarks_none hit]
    refine ⟨fun _ hsome => ?_, fun _ => belongs_mono h rfl fun _ _ hit => hit⟩
    rw [hit] at hsome
    exact absurd hsome Bool.false_ne_true
  | some it =>
    rw [addFriendRemarks_some hit]
    simp only [Harmless, hit, Option.isSome_some, true_imp_iff]
    rcases h.saved with hstart | ⟨ct, it', hct, hit', hremarks, hicon⟩
    · have haccount : s.widFdInfo.ctSave.account = [] := by
        rw [hstart]
        rfl
      rw [belongs_iff_of_nobody (w := s.widFdInfo.setInfoRemarks (c.fromStdString remarks) [] []) haccount,
        if_neg fun h => QString.number_ne_nil _ (h.symm.trans haccount), ctSave_setInfoRemarks, hstart]
      split_ifs with hnil
      · exact iff_of_true rfl (Or.inl ((c.empty_iff _).1 hnil))
      · refine iff_of_false (fun h => hnil (congrArg PersonStr.remarks h)) ?_
        rintro (rfl | h)
        · exact hnil ((c.empty_iff _).2 rfl)
        · exact hnil h.symm
    · have hmem := List.mem_append_left [.addFriendRemarks account remarks] hct.1
      have hdisplays := setInfo_setInfoRemarks (c.fromStdString remarks) [] [] hct.2
      rw [hct.account_eq]
      rcases eq_or_ne ct.account account with rfl | hne
      · rw [if_pos rfl, belongs_iff_of_displays hmem hdisplays (Function.update_self ..),
          ctSave_setInfoRemarks]
        rw [hit] at hit'
        obtain rfl := Option.some.inj hit'
        split_ifs with hnil
        · rw [hnil, (c.empty_iff _).1 hnil]
          exact ⟨fun h _ => h.1, fun h => ⟨h rfl, hicon⟩⟩
        · exact iff_of_true ⟨rfl, hicon⟩ fun h => absurd ((c.empty_iff _).2 h) hnil
      · rw [if_neg fun h => hne (QString.number_inj h),
          belongs_iff_of_displays hmem hdisplays ((Function.update_of_ne hne ..).trans hit'),
          ctSave_setInfoRemarks]
        split_ifs with hnil
        · exact iff_of_true ⟨hremarks, hicon⟩ (Or.inl ((c.empty_iff _).1 hnil))
        · rw [or_iff_right fun h => hnil ((c.empty_iff _).2 h), hremarks]
          exact ⟨fun h => h.1.symm, fun h => ⟨h.symm, hicon⟩⟩

/-- **One step** keeps the panel with the friend it displays iff it is harmless. -/
theorem belongs_step (hp : Paths s) (h : Belongs c evs s) (ev : PanelEvent) :
    Belongs c (evs ++ [ev]) (s.step c ev) ↔ Harmless c s ev := by
  cases ev with
  | addFriend ct => exact iff_of_true (belongs_addFriend h ct) trivial
  | addPersonFriends ct => exact belongs_addPersonFriends hp h ct
  | addFriendRemarks account remarks => exact belongs_addFriendRemarks h account remarks

theorem belongs_start (c : Utf8Codec) : Belongs c [] (run c []) := ⟨rfl, Or.inl rfl⟩

theorem run_append (c : Utf8Codec) (evs : List PanelEvent) (ev : PanelEvent) :
    run c (evs ++ [ev]) = (run c evs).step c ev := by
  rw [run, List.foldl_append]
  rfl

/-- **The friend panel.**  In every state of a run all that is saved belongs to the friend
    who is displayed, iff every step is harmless. -/
theorem belongs_iff (c : Utf8Codec) (evs : List PanelEvent) :
    (∀ pre, pre <+: evs → Belongs c pre (run c pre)) ↔
      ∀ pre ev, pre ++ [ev] <+: evs → Harmless c (run c pre) ev := by
  constructor
  · intro h pre ev hpre
    have hnext := h _ hpre
    rw [run_append] at hnext
    exact (belongs_step (paths_run c pre) (h pre ((List.prefix_append pre [ev]).trans hpre)) ev).1 hnext
  · intro h pre hpre
    induction pre using List.reverseRecOn with
    | nil => exact belongs_start c
    | append_singleton pre ev ih =>
      rw [run_append]
      exact (belongs_step (paths_run c pre) (ih ((List.prefix_append pre [ev]).trans hpre)) ev).2
        (h pre ev hpre)

end

/-! ## Two friends, one of them without remarks -/

/-- A friend of the list, and his profile. -/
def friendOf (account : Int64) (remarks : Str) : FriendsInit := ⟨true, account, [97], [105], remarks⟩

def profileOf (account : Int64) : AcInfo := ⟨account, 0, 20, 0, [97], [98], []⟩

def showTwo : List PanelEvent :=
  [.addFriend (friendOf 1 [120]), .addFriend (friendOf 2 []), .addPersonFriends (profileOf 1),
    .addPersonFriends (profileOf 2)]

/-- The second friend is shown with the remarks of the first. -/
theorem not_belongs_two : ¬ Belongs .ascii showTwo (run .ascii showTwo) := by
  have hremarks : (run .ascii showTwo).widFdInfo.ctSave.remarks = [120] := by decide +kernel
  have haccount : (run .ascii showTwo).widFdInfo.ctSave.account = QString.number 2 := rfl
  rintro ⟨-, hstart | ⟨ct, it, hct, hit, hsaved, -⟩⟩
  · rw [hstart] at hremarks
    exact List.cons_ne_nil _ _ hremarks.symm
  · have htwo : ct.account = 2 := QString.number_inj (hct.account_eq.symm.trans haccount)
    rw [htwo] at hit
    obtain rfl : (⟨withPathIcon (friendOf 2 []), withPathIcon (friendOf 2 [])⟩ : CtFriend) = it :=
      Option.some.inj hit
    rw [hremarks] at hsaved
    exact List.cons_ne_nil _ _ hsaved

end FriendPanel

end SimpleChat
