/-
  wid_person_info.{h,cpp}: the form of a profile.

  * `setInfo`, `setInfoRemarks`, `updateInfo`: a profile is saved as texts and shown;
  * `isVerificationInfo`, `getEditInfo`, `snSave`: the texts are checked, read back and
    sent;
  * `SendsEdited`: what is sent is the loaded profile with the values entered;
  * `sendsEdited_iff`: which holds iff the sex is not left empty, as the check allows,
    and the numbers are numbers.

  A line edit is its text, and a pointer that no `init_` function set is `none`.
-/
import SimpleChat.Lib.QString
import SimpleChat.WebProtocol

namespace SimpleChat

open Lib

/-- `ct_person_str` -/
@[ext] structure PersonStr where
  notes : QString
  icon : QString
  remarks : QString
  account : QString
  phone : QString
  age : QString
  sex : QString
  nickname : QString
  location : QString
  deriving DecidableEq, Repr

/-- `ct_person_edit` -/
structure PersonEdit where
  remarks : Option QString
  account : QString
  phone : QString
  age : QString
  sex : QString
  nickname : QString
  location : QString
  notes : Option QString
  deriving DecidableEq, Repr

/-- The members of `wid_person_info` that hold a profile. -/
structure WidPersonInfo where
  ctSave : PersonStr
  edit : PersonEdit
  /-- The picture that `_img` shows. -/
  img : Option QString
  deriving DecidableEq, Repr

/-- The `ct_ac_info` of `get_edit_info`: the sex is `none` while it is uninitialised. -/
structure EditInfo where
  account : Int64
  phone : Int64
  age : Int64
  sex : Option Int64
  nickname : Str
  location : Str
  icon : Str
  deriving DecidableEq, Repr

/-- The signals of `wid_person_info` behind the buttons. -/
inductive PersonSignal where
  | saveInfo (ct : EditInfo)
  | saveRemarks (remarks : Str)
  | notChange
  deriving DecidableEq, Repr

/-! ## The code -/

/-- `"女"` -/
def female : QString := [0x5973]

/-- `"男"` -/
def male : QString := [0x7537]

namespace WidPersonInfo

section
variable (c : Utf8Codec) (w : WidPersonInfo)

/-- `set_info` -/
def setInfo (info : AcInfo) : WidPersonInfo :=
  let sex := if info.sex = 0 then female else male
  { w with ctSave := { w.ctSave with
      account := QString.number info.account
      phone := QString.number info.phone
      age := QString.number info.age
      sex
      nickname := c.fromStdString info.nickname
      location := c.fromStdString info.location } }

/-- `set_info_remarks` -/
def setInfoRemarks (remarks icon notes : QString) : WidPersonInfo :=
  { w with ctSave := { w.ctSave with
      remarks := if remarks ≠ [] then remarks else w.ctSave.remarks
      icon := if icon ≠ [] then icon else w.ctSave.icon
      notes := if notes ≠ [] then notes else w.ctSave.notes } }

/-- `not_change_info` -/
def notChangeInfo : Bool :=
  if w.ctSave.account ≠ w.edit.account then false
  else if w.ctSave.phone ≠ w.edit.phone then false
  else if w.ctSave.age ≠ w.edit.age then false
  else if w.ctSave.sex ≠ w.edit.sex then false
  else if w.ctSave.nickname ≠ w.edit.nickname then false
  else if w.ctSave.location ≠ w.edit.location then false
  else true

/-- `not_change_remarks` -/
def notChangeRemarks : Bool :=
  match w.edit.remarks with
  | some remarks => if remarks = w.ctSave.remarks then true else false
  | none => true

/-- `is_verification_info` -/
def isVerificationInfo : Bool :=
  let age := w.edit.age.toLongLong
  if w.edit.phone.toLongLong < 0 then false
  else if age < 0 ∨ age > 200 then false
  else if w.edit.sex ≠ male ∧ w.edit.sex ≠ female ∧ w.edit.sex ≠ [] then false
  else true

/-- `update_info` -/
def updateInfo : WidPersonInfo :=
  { w with
    edit :=
      { remarks := w.edit.remarks.map fun _ => w.ctSave.remarks
        notes := w.edit.notes.map fun _ => w.ctSave.notes
        account := w.ctSave.account
        phone := w.ctSave.phone
        age := w.ctSave.age
        sex := w.ctSave.sex
        nickname := w.ctSave.nickname
        location := w.ctSave.location }
    img := w.img.map fun _ => w.ctSave.icon }

/-- `get_edit_info` -/
def getEditInfo : EditInfo :=
  let sex := if w.edit.sex = female then some 0 else if w.edit.sex = male then some 1 else none
  { account := w.edit.account.toLongLong
    phone := w.edit.phone.toLongLong
    age := w.edit.age.toLongLong
    sex
    nickname := c.toStdString w.edit.nickname
    location := c.toStdString w.edit.location
    icon := [] }

/-- `get_edit_remarks` -/
def getEditRemarks : Str := c.toStdString (w.edit.remarks.getD [])

/-- The signals that `sn_save(save)` leads to; `ok` is the answer to the dialog. -/
def snSave (save ok : Bool) : List PersonSignal :=
  if save then
    if w.notChangeInfo = false then
      if w.isVerificationInfo then
        if ok then [.saveInfo (w.getEditInfo c)] else []
      else []
    else (if w.notChangeRemarks = false then [.saveRemarks (w.getEditRemarks c)] else []) ++ [.notChange]
  else [.notChange]

end

/-! ## What is sent -/

/-- What is sent for a number field: the number loaded, or the one that was entered. -/
def SendsNumber (shown text : QString) (loaded sent : Int64) : Prop :=
  if text = shown then sent = loaded else text.trimmed.Denotes sent.toInt

/-- The form that shows `info` sends it with what was entered: every field is defined,
    what was not edited is as it was loaded, and if nothing was edited then nothing is
    sent. -/
structure SendsEdited (c : Utf8Codec) (info : AcInfo) (shown : WidPersonInfo) (edit : PersonEdit) :
    Prop where
  defined : ({ shown with edit }.getEditInfo c).sex ≠ none
  account : SendsNumber shown.edit.account edit.account info.account
    ({ shown with edit }.getEditInfo c).account
  phone : SendsNumber shown.edit.phone edit.phone info.phone ({ shown with edit }.getEditInfo c).phone
  age : SendsNumber shown.edit.age edit.age info.age ({ shown with edit }.getEditInfo c).age
  sex : edit.sex = shown.edit.sex → info.sex = 0 ∨ info.sex = 1 →
    ({ shown with edit }.getEditInfo c).sex = some info.sex
  sexEntered : ∀ n, ({ shown with edit }.getEditInfo c).sex = some n →
    (edit.sex = female ∧ n = 0) ∨ (edit.sex = male ∧ n = 1)
  nickname : ({ shown with edit }.getEditInfo c).nickname =
    if edit.nickname = shown.edit.nickname then info.nickname else c.toStdString edit.nickname
  location : ({ shown with edit }.getEditInfo c).location =
    if edit.location = shown.edit.location then info.location else c.toStdString edit.location
  unchanged : edit = shown.edit → { shown with edit }.notChangeInfo = true ∧
    ∀ ok, { shown with edit }.snSave c true ok = [.notChange]

section
variable {c : Utf8Codec} {w : WidPersonInfo} {info : AcInfo} {edit : PersonEdit} {text : QString}

/-- A number is sent as entered iff the text is a number. -/
theorem sendsNumber_iff (n : Int64) :
    SendsNumber (QString.number n) text n text.toLongLong ↔ text.longLong?.isSome := by
  rw [SendsNumber, ← QString.denotes_toLongLong]
  split_ifs with htext
  · subst htext
    rw [QString.toLongLong_number, (QString.denotes_number n).trimmed_eq]
    exact ⟨fun _ => QString.denotes_number n, fun _ => rfl⟩
  · exact Iff.rfl

/-- The sex is sent as entered if the text is one of the two, and is undefined if not. -/
theorem sex_getEditInfo : (w.getEditInfo c).sex =
    if w.edit.sex = female then some 0 else if w.edit.sex = male then some 1 else none := rfl

theorem sex_of_verification (h : w.isVerificationInfo = true) :
    w.edit.sex = female ∨ w.edit.sex = male ∨ w.edit.sex = [] := by
  unfold isVerificationInfo at h
  dsimp only at h
  split_ifs at h with _ _ hsex
  by_contra hnot
  simp only [not_or] at hnot
  exact hsex ⟨hnot.2.1, hnot.1, hnot.2.2⟩

/-- A form that nobody edited says so, and sends nothing. -/
theorem not_changed (ok : Bool) : (w.setInfo c info).updateInfo.notChangeInfo = true ∧
    (w.setInfo c info).updateInfo.snSave c true ok = [.notChange] := by
  have hinfo : (w.setInfo c info).updateInfo.notChangeInfo = true := by
    simp [notChangeInfo, updateInfo]
  have hremarks : (w.setInfo c info).updateInfo.notChangeRemarks = true := by
    unfold notChangeRemarks updateInfo
    cases (w.setInfo c info).edit.remarks with
    | none => rfl
    | some remarks => exact if_pos rfl
  refine ⟨hinfo, ?_⟩
  rw [snSave, hinfo, hremarks]
  rfl

/-- A text that was not edited is sent as it was loaded. -/
theorem text_kept {s : Str} {text : QString} (hs : Json.validUtf8 s = true) :
    c.toStdString text = if text = c.fromStdString s then s else c.toStdString text := by
  split_ifs with htext
  · rw [htext, c.round_trip s hs]
  · rfl

/-- The sex of a loaded profile is shown as one of the two, and read back. -/
theorem sex_kept (hsex : info.sex = 0 ∨ info.sex = 1) :
    (if (if info.sex = 0 then female else male) = female then some 0
      else if (if info.sex = 0 then female else male) = male then some 1 else none) = some info.sex := by
  rcases hsex with hsex | hsex
  all_goals
    rw [hsex]
    rfl

/-- **The profile form.**  An edit that is accepted is sent as it was entered iff the sex
    is not empty and the numbers are integers of 64 bits. -/
theorem sendsEdited_iff (c : Utf8Codec) (w : WidPersonInfo) (info : AcInfo) (edit : PersonEdit)
    (hnickname : Json.validUtf8 info.nickname = true) (hlocation : Json.validUtf8 info.location = true)
    (hok : { (w.setInfo c info).updateInfo with edit }.isVerificationInfo = true) :
    SendsEdited c info (w.setInfo c info).updateInfo edit ↔ edit.sex ≠ [] ∧
      ∀ text ∈ [edit.account, edit.phone, edit.age], text.longLong?.isSome := by
  simp only [List.forall_mem_cons, List.not_mem_nil, false_imp_iff, implies_true, and_true]
  rw [← sendsNumber_iff info.account, ← sendsNumber_iff info.phone, ← sendsNumber_iff info.age]
  constructor
  · intro h
    refine ⟨?_, h.account, h.phone, h.age⟩
    intro hsex
    apply h.defined
    rw [sex_getEditInfo, hsex]
    rfl
  · rintro ⟨hsex, haccount, hphone, hage⟩
    have hsex : edit.sex = female ∨ edit.sex = male :=
      (sex_of_verification hok).imp_right fun h => h.resolve_right hsex
    constructor
    · rw [sex_getEditInfo]
      rcases hsex with hsex | hsex
      all_goals
        rw [hsex]
        exact Option.some_ne_none _
    · exact haccount
    · exact hphone
    · exact hage
    · intro hkept hinfo
      rw [sex_getEditInfo, hkept]
      exact sex_kept hinfo
    · intro n hn
      rw [sex_getEditInfo] at hn
      rcases hsex with hsex | hsex
      · rw [hsex] at hn
        exact Or.inl ⟨hsex, (Option.some.inj hn).symm⟩
      · rw [hsex] at hn
        exact Or.inr ⟨hsex, (Option.some.inj hn).symm⟩
    · exact text_kept hnickname
    · exact text_kept hlocation
    · rintro rfl
      exact ⟨(not_changed true).1, fun ok => (not_changed ok).2⟩

/-! ## A sex that was emptied -/

/-- An empty form. -/
def emptyForm : WidPersonInfo := ⟨⟨[], [], [], [], [], [], [], [], []⟩, ⟨none, [], [], [], [], [], [], none⟩, none⟩

/-- A profile. -/
def someInfo : AcInfo := ⟨5, 110122, 19, 1, [97], [98], []⟩

/-- Its form with a new age and no sex. -/
def someEdit (sex : QString) : PersonEdit :=
  ⟨none, QString.number 5, QString.number 110122, QString.ofAscii [50, 48], sex, [97], [98], none⟩

theorem verifies_someEdit {sex : QString} (hsex : sex = male ∨ sex = []) :
    { (emptyForm.setInfo .ascii someInfo).updateInfo with
      edit := someEdit sex }.isVerificationInfo = true := by
  have hphone : ¬ (QString.number 110122).toLongLong < 0 := by
    rw [QString.toLongLong_number]
    decide
  have hage : ¬ ((QString.ofAscii [50, 48]).toLongLong < 0 ∨ (QString.ofAscii [50, 48]).toLongLong > 200) := by
    decide
  have hsex : ¬ (sex ≠ male ∧ sex ≠ female ∧ sex ≠ []) := by
    rintro ⟨hmale, -, hnil⟩
    exact hsex.elim hmale hnil
  unfold isVerificationInfo someEdit
  dsimp only
  rw [if_neg hphone, if_neg hage, if_neg hsex]

theorem sendsEdited_age :
    SendsEdited .ascii someInfo (emptyForm.setInfo .ascii someInfo).updateInfo (someEdit male) := by
  refine (sendsEdited_iff .ascii emptyForm someInfo (someEdit male) (by decide) (by decide)
    (verifies_someEdit (Or.inl rfl))).2 ⟨by decide, ?_⟩
  simp only [someEdit, List.forall_mem_cons, QString.longLong?_number]
  decide

/-- The check accepts the form, and the sex that it sends is whatever was in memory. -/
theorem not_sendsEdited_empty : { (emptyForm.setInfo .ascii someInfo).updateInfo with
      edit := someEdit [] }.isVerificationInfo = true ∧
    ¬ SendsEdited .ascii someInfo (emptyForm.setInfo .ascii someInfo).updateInfo (someEdit []) :=
  ⟨verifies_someEdit (Or.inr rfl), fun h => h.defined rfl⟩

end

end WidPersonInfo

end SimpleChat
