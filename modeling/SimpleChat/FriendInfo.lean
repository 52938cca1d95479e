/-
  Friend lists in the messages of the server: each entry is a JSON text, the list of
  these texts another one, and that a field of the message.

  * `getFriendsInfoJson_set`: an entry is read back, or comes to nothing;
  * `friends_codec`: so a list comes back without the entries that are not UTF-8.
-/
import SimpleChat.QwebClient

namespace SimpleChat

open Lib Lib.Json

/-- The strings of an entry are UTF-8. -/
def FriendsInit.utf8 (m : FriendsInit) : Bool :=
  validUtf8 m.nickname && validUtf8 m.icon && validUtf8 m.remarks

section
variable {J : JsonLib}

theorem friendsInfo_eq (m : FriendsInit) : friendsInfo m =
    [(lit "friends", .int m.friends.toInt), (lit "icon", .str m.icon),
      (lit "nickname", .str m.nickname), (lit "online", .bool m.online),
      (lit "remarks", .str m.remarks)] := rfl

theorem plain_friendsInfo (m : FriendsInit) : Plain (.obj (friendsInfo m)) := by
  refine ⟨?_, ?_⟩
  · unfold friendsInfo
    exact sortedKeys_setField (sortedKeys_setField (sortedKeys_setField (sortedKeys_setField
      (sortedKeys_setField .nil _ _) _ _) _ _) _ _) _ _
  · rw [friendsInfo_eq]
    have := plain_int64Field m.friends
    exact ⟨this, trivial, trivial, trivial, trivial, trivial⟩

theorem utf8_friendsInfo (m : FriendsInit) : Json.Utf8 (.obj (friendsInfo m)) = m.utf8 := by
  have hkeys : validUtf8 (lit "friends") = true ∧ validUtf8 (lit "icon") = true ∧
      validUtf8 (lit "nickname") = true ∧ validUtf8 (lit "online") = true ∧
      validUtf8 (lit "remarks") = true := by decide +kernel
  obtain ⟨h₁, h₂, h₃, h₄, h₅⟩ := hkeys
  rw [friendsInfo_eq]
  simp only [Json.Utf8, Utf8Fields, h₁, h₂, h₃, h₄, h₅, Bool.true_and, Bool.and_true, FriendsInit.utf8]
  cases validUtf8 m.icon <;> simp

/-- No entry is spelled by the empty text. -/
theorem getFriendsInfoJson_nil : getFriendsInfoJson J [] = none := by
  cases hp : J.parse [] with
  | none => simp [getFriendsInfoJson, hp]
  | some js =>
    have hsize : js.size ≤ 0 := J.parse_size hp
    have hnick : (index js (lit "nickname")).bind getString = none := by
      by_contra hne
      obtain ⟨s, hs⟩ := Option.ne_none_iff_exists'.1 hne
      obtain ⟨v, hv, hs⟩ := Option.bind_eq_some_iff.1 hs
      have := QwebClient.size_le_of_index hv
      have := QwebClient.length_lt_of_getString hs
      omega
    simp [getFriendsInfoJson, hp, hnick]

/-- **An entry is read back if its strings are UTF-8**, and comes to nothing else. -/
theorem getFriendsInfoJson_set (hJ : J.Strict) (m : FriendsInit) :
    getFriendsInfoJson J (setFriendsInfoJson J m) = if m.utf8 then some m else none := by
  cases hd : J.dump (.obj (friendsInfo m)) with
  | none =>
    have hutf8 : ¬ m.utf8 = true := by
      intro hu
      have := J.dump_utf8 (plain_friendsInfo m) ((utf8_friendsInfo m).trans hu)
      rw [hd] at this
      cases this
    rw [setFriendsInfoJson, hd, Option.getD_none, getFriendsInfoJson_nil, if_neg hutf8]
  | some t =>
    have hutf8 : m.utf8 = true := (utf8_friendsInfo m).symm.trans (hJ.throws hd)
    have hfields : index (.obj (friendsInfo m)) (lit "friends") = some (.int m.friends.toInt) ∧
        index (.obj (friendsInfo m)) (lit "nickname") = some (.str m.nickname) ∧
        index (.obj (friendsInfo m)) (lit "icon") = some (.str m.icon) ∧
        index (.obj (friendsInfo m)) (lit "remarks") = some (.str m.remarks) ∧
        index (.obj (friendsInfo m)) (lit "online") = some (.bool m.online) :=
      ⟨rfl, rfl, rfl, rfl, rfl⟩
    obtain ⟨h₁, h₂, h₃, h₄, h₅⟩ := hfields
    have hint : getInt64 (.int m.friends.toInt) = some m.friends := getInt64_int64Field m.friends
    rw [setFriendsInfoJson, hd, Option.getD_some, if_pos hutf8]
    simp only [getFriendsInfoJson, J.parse_dump (plain_friendsInfo m) hd, h₁, h₂, h₃, h₄, h₅,
      Option.bind_eq_bind, Option.bind_some, hint, getString, getBool]

/-- The text of an entry is UTF-8, also if it is empty. -/
theorem utf8_setFriendsInfoJson (hJ : J.Strict) (m : FriendsInit) :
    validUtf8 (setFriendsInfoJson J m) = true := by
  cases hd : J.dump (.obj (friendsInfo m)) with
  | none => rw [setFriendsInfoJson, hd, Option.getD_none, validUtf8]
  | some t =>
    rw [setFriendsInfoJson, hd, Option.getD_some]
    exact hJ.utf8 hd

/-- **The list without the message around it.** -/
theorem vecFriends_setJsonVec (hJ : J.Strict) (l : List FriendsInit) :
    QwebClient.vecFriends J (setJsonVec J (l.map (setFriendsInfoJson J))) =
      l.filter FriendsInit.utf8 := by
  have hutf8 : ∀ s ∈ l.map (setFriendsInfoJson J), validUtf8 s = true := by
    intro s hs
    obtain ⟨m, -, rfl⟩ := List.mem_map.1 hs
    exact utf8_setFriendsInfoJson hJ m
  rw [QwebClient.vecFriends, getJsonVec_setJsonVec hutf8, List.filterMap_map]
  induction l with
  | nil => rfl
  | cons m l ih =>
    have ih := ih fun s hs => hutf8 s (by rw [List.map_cons]; exact List.mem_cons_of_mem _ hs)
    rw [List.filterMap_cons, Function.comp_apply, getFriendsInfoJson_set hJ, List.filter_cons]
    cases m.utf8 with
    | true => exact congrArg (m :: ·) ih
    | false => exact ih

/-- **Friend lists survive their encodings.**  A list comes out of a login and out of an
    update as it was, without the entries that are not UTF-8. -/
theorem friends_codec (hJ : J.Strict) (l : List FriendsInit) :
    (∀ account nickname icon, validUtf8 nickname = true → validUtf8 icon = true →
      ∃ t m, setAcLoginBack J ⟨account, nickname, icon,
          setJsonVec J (l.map (setFriendsInfoJson J))⟩ = .ok t ∧
        getAcLoginBack J t = .ok (some m) ∧
        QwebClient.vecFriends J m.svecFriendsInfo = l.filter FriendsInit.utf8) ∧
    ∃ t s, setAcUpdateFriendsBack J (setJsonVec J (l.map (setFriendsInfoJson J))) = .ok t ∧
      getAcUpdateFriendsBack J t = .ok (some s) ∧
      QwebClient.vecFriends J s = l.filter FriendsInit.utf8 := by
  have hutf8 : validUtf8 (setJsonVec J (l.map (setFriendsInfoJson J))) = true := by
    refine hJ.utf8 (dump_vec fun s hs => ?_)
    obtain ⟨m, -, rfl⟩ := List.mem_map.1 hs
    exact utf8_setFriendsInfoJson hJ m
  refine ⟨fun account nickname icon hn hi => ?_, ?_⟩
  · obtain ⟨t, ht⟩ := MsgType.exists_set J .acLoginBack
      ⟨account, nickname, icon, setJsonVec J (l.map (setFriendsInfoJson J))⟩ (by
        simp only [MsgType.strings, List.mem_cons, List.not_mem_nil, or_false, forall_eq_or_imp,
          forall_eq]
        exact ⟨hn, hi, hutf8⟩)
    exact ⟨t, _, ht, MsgType.get_set J ht, vecFriends_setJsonVec hJ l⟩
  · obtain ⟨t, ht⟩ := MsgType.exists_set J .acUpdateFriendsBack
      (setJsonVec J (l.map (setFriendsInfoJson J))) (by
        simp only [MsgType.strings, List.mem_singleton, forall_eq]
        exact hutf8)
    exact ⟨t, _, ht, MsgType.get_set J ht, vecFriends_setJsonVec hJ l⟩

/-- The entry of 2 is lost, that of 3 is not. -/
theorem friends_codec_mixed :
    ∃ t s, setAcUpdateFriendsBack jsonText (setJsonVec jsonText
        ([⟨true, 2, [0xFF], [], []⟩, ⟨false, 3, lit "C", [], []⟩].map (setFriendsInfoJson jsonText))) =
          .ok t ∧
      getAcUpdateFriendsBack jsonText t = .ok (some s) ∧
      QwebClient.vecFriends jsonText s =
        [⟨true, 2, [0xFF], [], []⟩, ⟨false, 3, lit "C", [], []⟩].filter FriendsInit.utf8 :=
  (friends_codec jsonText_strict _).2

end

end SimpleChat
