/-
  The statements that `sqlite_base` builds.

  * `updateDbWith_eq`, `deleteDbWith_eq`: with any arguments for which a formatter fills
    its templates, `update_db` and `delete_db` build the statement that they mean;
  * `keyed_statements`, `updateDb_long`: so they do with positions of type `int` up to
    `2 ^ 31` bytes, and not beyond;
  * `insertDb_iff`: up to there, `insert_db` does if and only if no brace group is among
    the values before the last, which are searched for markers again.
-/
import SimpleChat.SqliteOp
import SimpleChat.FormatInt

namespace SimpleChat

open Lib Lib.Sql

/-! ## `update_db` and `delete_db` -/

/-- The quotes around an argument. -/
def Field.quotes : Field → Str
  | .int _ => []
  | .text _ => [quote]

theorem Field.flg_eq (v : Field) (m : Str) : v.flg m = v.quotes ++ m ++ v.quotes := by
  cases v with
  | int n => rw [Field.flg, Field.quotes, List.nil_append, List.append_nil]
  | text s => rfl

theorem Field.sqlText_eq (v : Field) : v.sqlText = v.quotes ++ v.arg ++ v.quotes := by
  cases v with
  | int n => rw [Field.sqlText, Field.quotes, Field.arg, List.nil_append, List.append_nil]
  | text s => rfl

theorem Field.brace_notMem_quotes (v : Field) : lbrace ∉ v.quotes := by
  cases v with
  | int n => exact List.not_mem_nil
  | text s =>
    show lbrace ∉ [quote]
    decide

/-- The statement that rewrites a field of one row. -/
def updateText (table fieldId : Str) (id : Field) (fieldUpdate : Str) (update : Field) : Str :=
  lit " UPDATE " ++ table ++ lit " SET " ++ fieldUpdate ++ lit " = " ++ update.sqlText ++
    lit " WHERE " ++ fieldId ++ lit " = " ++ id.sqlText ++ lit "; "

/-- The statement that deletes one row. -/
def deleteText (table fieldId : Str) (id : Field) : Str :=
  lit " DELETE FROM " ++ table ++ lit " WHERE " ++ fieldId ++ lit " = " ++ id.sqlText ++ lit "; "

section
variable {format : Str → List Str → Outcome Str} {bound : ℕ∞} {table fieldId fieldUpdate : Str} {fuel : ℕ}

theorem Field.length_flg (v : Field) (m : Str) : (v.flg m).length = v.quotes.length * 2 + m.length := by
  rw [Field.flg_eq, List.length_append, List.length_append]
  omega

theorem Field.length_sqlText (v : Field) : v.sqlText.length = v.quotes.length * 2 + v.arg.length := by
  rw [Field.sqlText_eq, List.length_append, List.length_append]
  omega

theorem length_updateText (table fieldId fieldUpdate : Str) (id update : Field) :
    (updateText table fieldId id fieldUpdate update).length = table.length + fieldUpdate.length +
      fieldId.length + (update.quotes.length * 2 + update.arg.length) +
        (id.quotes.length * 2 + id.arg.length) + 28 := by
  have hlits : (lit " UPDATE ").length = 8 ∧ (lit " SET ").length = 5 ∧ (lit " = ").length = 3 ∧
      (lit " WHERE ").length = 7 ∧ (lit "; ").length = 2 := by decide
  simp only [updateText, List.length_append, hlits, Field.length_sqlText]
  omega

/-- The first pass of `update_db` makes the template of the second. -/
theorem updateDbWith_first (hf : Fills format bound) {id update : Field}
    (hlen : ((table.length + fieldUpdate.length + fieldId.length + update.quotes.length * 2 +
      id.quotes.length * 2 + 49 : ℕ) : ℕ∞) < bound) :
    format (lit " UPDATE {0} SET {1} = {2} WHERE {3} = {4}; ")
      [table, fieldUpdate, update.flg (lit "{0}"), fieldId, id.flg (lit "{1}")] =
    .ok (template (lit " UPDATE " ++ table ++ lit " SET " ++ fieldUpdate ++ lit " = " ++ update.quotes)
      [(0, update.quotes ++ lit " WHERE " ++ fieldId ++ lit " = " ++ id.quotes),
        (1, id.quotes ++ lit "; ")]) := by
  have hshape : lit " UPDATE {0} SET {1} = {2} WHERE {3} = {4}; " = template (lit " UPDATE ")
      [(0, lit " SET "), (1, lit " = "), (2, lit " WHERE "), (3, lit " = "), (4, lit "; ")] := by
    decide +kernel
  have hmarks : lit "{0}" = marker 0 ∧ lit "{1}" = marker 1 := by decide
  have htemplate : (lit " UPDATE {0} SET {1} = {2} WHERE {3} = {4}; ").length = 43 := by decide +kernel
  have hflg : (lit "{0}").length = 3 ∧ (lit "{1}").length = 3 := by decide
  rw [hshape, hf (by decide +kernel) (by simp; decide) (by decide) (by decide)]
  · rw [update.flg_eq, id.flg_eq, hmarks.1, hmarks.2]
    simp [filled, template]
  · refine lt_of_le_of_lt (Nat.cast_le.2 ?_) hlen
    rw [← hshape, htemplate]
    simp only [argLength, List.map_cons, List.map_nil, List.sum_cons, List.sum_nil, List.getD_cons_zero,
      List.getD_cons_succ, Field.length_flg, hflg.1, hflg.2]
    omega

/-- **`update_db` builds the statement that it means.** -/
theorem updateDbWith_eq (hf : Fills format bound) (ht : lbrace ∉ table) (hid : lbrace ∉ fieldId)
    (hupdate : lbrace ∉ fieldUpdate) (id update : Field)
    (hlen : (((updateText table fieldId id fieldUpdate update).length + 21 : ℕ) : ℕ∞) < bound) :
    updateDbWith format table fieldId id fieldUpdate update =
      .ok (updateText table fieldId id fieldUpdate update) := by
  have hp : lbrace ∉ lit " UPDATE " ++ table ++ lit " SET " ++ fieldUpdate ++ lit " = " ++
      update.quotes := by
    simp only [List.mem_append, not_or]
    exact ⟨⟨⟨⟨⟨by decide, ht⟩, by decide⟩, hupdate⟩, by decide⟩, update.brace_notMem_quotes⟩
  have hmid : lbrace ∉ update.quotes ++ lit " WHERE " ++ fieldId ++ lit " = " ++ id.quotes := by
    simp only [List.mem_append, not_or]
    exact ⟨⟨⟨⟨update.brace_notMem_quotes, by decide⟩, hid⟩, by decide⟩, id.brace_notMem_quotes⟩
  have hend : lbrace ∉ id.quotes ++ lit "; " := by
    simp only [List.mem_append, not_or]
    exact ⟨id.brace_notMem_quotes, by decide⟩
  have hspaced : Spaced [(0, update.quotes ++ lit " WHERE " ++ fieldId ++ lit " = " ++ id.quotes),
      (1, id.quotes ++ lit "; ")] := by
    have hwhere : (lit " WHERE ").length = 7 := by decide
    have hzero : (natText 0).length = 1 := by decide
    refine ⟨?_, trivial⟩
    simp only [List.length_append, hwhere, hzero]
    omega
  have hmarkers : ∀ m ∈ [(0, update.quotes ++ lit " WHERE " ++ fieldId ++ lit " = " ++ id.quotes),
      (1, id.quotes ++ lit "; ")],
      lbrace ∉ m.2 ∧ m.1 < [update.arg, id.arg].length ∧ (m.1 : ℤ) ≤ 2 ^ 31 - 1 := by
    simp only [List.mem_cons, List.not_mem_nil, or_false, forall_eq_or_imp, forall_eq]
    exact ⟨⟨hmid, by simp, by decide⟩, hend, by simp, by decide⟩
  rw [updateDbWith, updateDbWith_first hf, ok_bind,
    hf (noFlg_of_notMem hp) hmarkers hspaced (by simp)]
  · simp [filled, updateText, Field.sqlText_eq]
  · refine lt_of_le_of_lt (Nat.cast_le.2 ?_) hlen
    have hlits : (lit " UPDATE ").length = 8 ∧ (lit " SET ").length = 5 ∧ (lit " = ").length = 3 ∧
        (lit " WHERE ").length = 7 ∧ (lit "; ").length = 2 := by decide
    have hmarks : (marker 0).length = 3 ∧ (marker 1).length = 3 := by decide
    rw [length_updateText]
    simp only [template, List.flatMap_cons, List.flatMap_nil, List.length_append, List.length_nil, hlits,
      hmarks, argLength, List.map_cons, List.map_nil, List.sum_cons, List.sum_nil, List.getD_cons_zero,
      List.getD_cons_succ]
    omega
  · refine lt_of_le_of_lt (Nat.cast_le.2 ?_) hlen
    rw [length_updateText]
    omega

/-- **`delete_db` builds the statement that it means.** -/
theorem deleteDbWith_eq (hf : Fills format bound) (ht : lbrace ∉ table) (hid : lbrace ∉ fieldId) (id : Field)
    (hlen : (((deleteText table fieldId id).length + 21 : ℕ) : ℕ∞) < bound) :
    deleteDbWith format table fieldId id = .ok (deleteText table fieldId id) := by
  have hshape : lit " DELETE FROM {0} WHERE {1} = {2}; " = template (lit " DELETE FROM ")
      [(0, lit " WHERE "), (1, lit " = "), (2, lit "; ")] := by decide +kernel
  have hmark : lit "{0}" = marker 0 := by decide
  have htemplate : (lit " DELETE FROM {0} WHERE {1} = {2}; ").length = 34 := by decide +kernel
  have hlits : (lit " DELETE FROM ").length = 13 ∧ (lit " WHERE ").length = 7 ∧ (lit " = ").length = 3 ∧
      (lit "; ").length = 2 ∧ (marker 0).length = 3 := by decide
  have htext : (deleteText table fieldId id).length = table.length + fieldId.length +
      (id.quotes.length * 2 + id.arg.length) + 25 := by
    simp only [deleteText, List.length_append, hlits, Field.length_sqlText]
    omega
  have hfirst : format (lit " DELETE FROM {0} WHERE {1} = {2}; ") [table, fieldId, id.flg (lit "{0}")] =
      .ok (template (lit " DELETE FROM " ++ table ++ lit " WHERE " ++ fieldId ++ lit " = " ++ id.quotes)
        [(0, id.quotes ++ lit "; ")]) := by
    rw [hshape, hf (by decide +kernel) (by simp; decide) (by decide) (by decide)]
    · rw [id.flg_eq, hmark]
      simp [filled, template]
    · refine lt_of_le_of_lt (Nat.cast_le.2 ?_) hlen
      rw [← hshape, htemplate, htext, hmark]
      simp only [argLength, List.map_cons, List.map_nil, List.sum_cons, List.sum_nil, List.getD_cons_zero,
        List.getD_cons_succ, Field.length_flg, hlits]
      omega
  have hp : lbrace ∉ lit " DELETE FROM " ++ table ++ lit " WHERE " ++ fieldId ++ lit " = " ++
      id.quotes := by
    simp only [List.mem_append, not_or]
    exact ⟨⟨⟨⟨⟨by decide, ht⟩, by decide⟩, hid⟩, by decide⟩, id.brace_notMem_quotes⟩
  have hend : lbrace ∉ id.quotes ++ lit "; " := by
    simp only [List.mem_append, not_or]
    exact ⟨id.brace_notMem_quotes, by decide⟩
  rw [deleteDbWith, hfirst, ok_bind, hf (noFlg_of_notMem hp) ?_ (by trivial) (by simp)]
  · simp [filled, deleteText, Field.sqlText_eq]
  · refine lt_of_le_of_lt (Nat.cast_le.2 ?_) hlen
    rw [htext]
    simp only [template, List.flatMap_cons, List.flatMap_nil, List.length_append, List.length_nil, hlits,
      argLength, List.map_cons, List.map_nil, List.sum_cons, List.sum_nil, List.getD_cons_zero]
    omega
  · simp only [List.mem_singleton, forall_eq]
    exact ⟨hend, by simp, by decide⟩

theorem updateDb_eq (ht : lbrace ∉ table) (hid : lbrace ∉ fieldId) (hupdate : lbrace ∉ fieldUpdate)
    (id update : Field) :
    updateDb table fieldId id fieldUpdate update =
      .ok (updateText table fieldId id fieldUpdate update) :=
  updateDbWith_eq fills_sformat ht hid hupdate id update (ENat.natCast_lt_top _)

theorem deleteDb_eq (ht : lbrace ∉ table) (hid : lbrace ∉ fieldId) (id : Field) :
    deleteDb table fieldId id = .ok (deleteText table fieldId id) :=
  deleteDbWith_eq fills_sformat ht hid id (ENat.natCast_lt_top _)

/-- **The keyed statements**, with positions of type `int`. -/
theorem keyed_statements (hfuel : 5 ≤ fuel) (ht : lbrace ∉ table) (hid : lbrace ∉ fieldId)
    (hupdate : lbrace ∉ fieldUpdate) (id update : Field) :
    ((updateText table fieldId id fieldUpdate update).length + 21 < 2 ^ 31 →
      updateDbWith (sformat32 fuel) table fieldId id fieldUpdate update =
        .ok (updateText table fieldId id fieldUpdate update)) ∧
    ((deleteText table fieldId id).length + 21 < 2 ^ 31 →
      deleteDbWith (sformat32 fuel) table fieldId id = .ok (deleteText table fieldId id)) :=
  ⟨fun hlen => updateDbWith_eq (fills_sformat32 hfuel) ht hid hupdate id update (Nat.cast_lt.2 hlen),
    fun hlen => deleteDbWith_eq (fills_sformat32 hfuel) ht hid id (Nat.cast_lt.2 hlen)⟩

theorem keyed_statements_marker :
    updateDbWith (sformat32 5) (lit "t") (lit "k") (.text (lit "{0}")) (lit "f") (.text (lit "{1}'")) =
        .ok (updateText (lit "t") (lit "k") (.text (lit "{0}")) (lit "f") (.text (lit "{1}'"))) ∧
      deleteDbWith (sformat32 5) (lit "t") (lit "k") (.text (lit "{0}")) =
        .ok (deleteText (lit "t") (lit "k") (.text (lit "{0}"))) :=
  have h := keyed_statements (le_refl 5) (by decide : lbrace ∉ lit "t") (by decide : lbrace ∉ lit "k")
    (by decide : lbrace ∉ lit "f") (.text (lit "{0}")) (.text (lit "{1}'"))
  ⟨h.1 (by decide +kernel), h.2 (by decide +kernel)⟩

/-- Behind a value of `2 ^ 31` bytes the search does not go on: the marker of the key stays. -/
theorem updateDb_long :
    updateDbWith (sformat32 5) (lit "t") (lit "k") (.int 1) (lit "f") (.text (List.replicate (2 ^ 31) 120)) ≠
      .ok (updateText (lit "t") (lit "k") (.int 1) (lit "f") (.text (List.replicate (2 ^ 31) 120))) := by
  have hx : (List.replicate (2 ^ 31) (120 : UInt8)).length = 2 ^ 31 := List.length_replicate
  generalize List.replicate (2 ^ 31) (120 : UInt8) = x at hx
  have hlits : (lit " UPDATE t SET f = '").length = 19 ∧ (natText 0).length = 1 ∧ (lit "t").length = 1 ∧ (lit "f").length = 1 ∧ (lit "k").length = 1 := by decide
  have hfirst : sformat32 5 (lit " UPDATE {0} SET {1} = {2} WHERE {3} = {4}; ")
      [lit "t", lit "f", (Field.text x).flg (lit "{0}"), lit "k", (Field.int 1).flg (lit "{1}")] =
      .ok (template (lit " UPDATE t SET f = '") [(0, lit "' WHERE k = "), (1, lit "; ")]) := by
    refine updateDbWith_first (fills_sformat32 le_rfl) (Nat.cast_lt.2 ?_)
    simp only [Field.quotes, hlits, List.length_cons, List.length_nil]
    norm_num
  have hround : sformatLoop32 [x, lit "1"] (4 + 1)
      ([] ++ template (lit " UPDATE t SET f = '") [(0, lit "' WHERE k = "), (1, lit "; ")]) (-1)
      ([] : Str).length = sformatLoop32 [x, lit "1"] 4
        (([] ++ lit " UPDATE t SET f = '" ++ [x, lit "1"].getD 0 []) ++
          template (lit "' WHERE k = ") [(1, lit "; ")]) (0 : ℕ)
        (narrow32 ((([] : Str).length + (lit " UPDATE t SET f = '").length + 1 + (natText 0).length : ℕ) +
          ([x, lit "1"].getD 0 []).length)) :=
    sformatLoop32_marker (-1) (by decide) (by simp) (by norm_num) (by decide +kernel)
  have hneg : narrow32 ((([] : Str).length + (lit " UPDATE t SET f = '").length + 1 + (natText 0).length : ℕ) +
      ([x, lit "1"].getD 0 []).length) < 0 := by
    rw [List.getD_cons_zero, hx, hlits.1, hlits.2.1]
    exact narrow32_neg (by norm_num)
  have hstop : updateDbWith (sformat32 5) (lit "t") (lit "k") (.int 1) (lit "f") (.text x) =
      .ok ((lit " UPDATE t SET f = '" ++ x) ++ template (lit "' WHERE k = ") [(1, lit "; ")]) := by
    rw [updateDbWith, hfirst, ok_bind]
    exact hround.trans (sformatLoop32_none (findFlg32_neg hneg _))
  have htext : updateText (lit "t") (lit "k") (.int 1) (lit "f") (.text x) =
      (lit " UPDATE t SET f = '" ++ x) ++ lit "' WHERE k = 1; " := by
    have hpre : lit " UPDATE t SET f = '" =
        lit " UPDATE " ++ lit "t" ++ lit " SET " ++ lit "f" ++ lit " = " ++ [quote] := by decide
    have hpost : lit "' WHERE k = 1; " =
        [quote] ++ lit " WHERE " ++ lit "k" ++ lit " = " ++ (Field.int 1).sqlText ++ lit "; " := by decide
    rw [hpre, hpost, updateText, Field.sqlText_eq (.text x), Field.quotes, Field.arg]
    simp only [List.append_assoc]
  rw [hstop, htext]
  intro h
  exact absurd (List.append_cancel_left (Except.ok.inj h)) (by decide)

end

/-! ## `insert_db` -/

/-- Where `e` has its first difference from `t`, it has an opening brace. -/
def Diverges (e t : Str) : Prop :=
  ∃ a b c e', e = a ++ lbrace :: e' ∧ t = a ++ c :: b ∧ c ≠ lbrace

theorem Diverges.ne {e t : Str} (h : Diverges e t) : t ≠ e := by
  obtain ⟨a, b, c, e', rfl, rfl, hc⟩ := h
  intro heq
  exact hc (List.cons.inj (List.append_cancel_left heq)).1

section
variable {e t u f p x r s : Str} {d : UInt8} {fuel : ℕ}

/-- A text that diverges does so after the next value. -/
theorem Diverges.put (hd : d ≠ lbrace) (hlen : (d :: f).length < 2 ^ 31) (hdiv : Diverges e t)
    (h : sformat32 fuel t [d :: f] = .ok u) : Diverges e u := by
  obtain ⟨a, b, c, e', rfl, rfl, hc⟩ := hdiv
  cases hs : splitFlg (a ++ c :: b) with
  | none =>
    rw [sformat32_noFlg hs] at h
    obtain rfl := Except.ok.inj h
    exact ⟨a, b, c, e', rfl, rfl, hc⟩
  | some q =>
    obtain ⟨p, x, r⟩ := q
    by_cases hpos : p.length + 1 + x.length < 2 ^ 31
    · obtain ⟨u', rfl⟩ := sformat32_single hlen hs hpos h
      have heq := splitFlg_eq hs
      rw [List.append_assoc, List.cons_append] at heq
      -- the group begins before the difference, or after it
      rcases List.append_eq_append_iff.1 heq with ⟨w, rfl, hw⟩ | ⟨w, rfl, hw⟩
      · rcases w with _ | ⟨c', w⟩
        · exact absurd (List.cons.inj hw).1 hc
        · obtain ⟨rfl, -⟩ := List.cons.inj hw
          exact ⟨a, w ++ d :: f ++ u', c, e', rfl, by simp, hc⟩
      · rcases w with _ | ⟨c', w⟩
        · exact absurd (List.cons.inj hw).1.symm hc
        · obtain ⟨rfl, -⟩ := List.cons.inj hw
          exact ⟨p, f ++ u', d, w ++ lbrace :: e', by simp, by simp, hd⟩
    · -- no group that an `int` can index
      rw [sformat32_far hs hpos] at h
      obtain rfl := Except.ok.inj h
      exact ⟨a, b, c, e', rfl, rfl, hc⟩

/-- A value that is put in where another one has a group diverges from the statement. -/
theorem diverges_of_group (hd : d ≠ lbrace) (hlen : (d :: f).length < 2 ^ 31) (hs : ¬ NoFlg s)
    (hshort : s.length < 2 ^ 31) (h : sformat32 fuel (s ++ t) [d :: f] = .ok u) : Diverges (s ++ e) u := by
  obtain ⟨⟨p, x, r⟩, hsplit⟩ := Option.ne_none_iff_exists'.1 hs
  obtain ⟨hp, hl, hr⟩ := splitFlg_spec hsplit
  have hright : splitFlg (s ++ t) = some (p, x, r ++ t) := by
    rw [splitFlg_eq hsplit, List.append_assoc, List.cons_append]
    exact splitFlg_append hp hl hr (r ++ t)
  have hpos : p.length + 1 + x.length < 2 ^ 31 := by
    rw [splitFlg_eq hsplit] at hshort
    simp only [List.length_append, List.length_cons] at hshort
    omega
  obtain ⟨u', rfl⟩ := sformat32_single hlen hright hpos h
  exact ⟨p, f ++ u', d, x ++ rbrace :: r ++ e, by rw [splitFlg_eq hsplit]; simp, by simp, hd⟩

theorem Field.sqlText_cons (v : Field) : ∃ d f, v.sqlText = d :: f ∧ d ≠ lbrace := by
  cases v with
  | int n =>
    cases hn : intText n.toInt with
    | nil =>
      unfold intText at hn
      split_ifs at hn
      exact absurd hn (natText_ne_nil _)
    | cons d f =>
      refine ⟨d, f, hn, fun hd => (brace_notMem_intText n.toInt).1 ?_⟩
      rw [hn, hd]
      exact List.mem_cons_self
  | text s => exact ⟨quote, s ++ [quote], rfl, by decide⟩

/-- The argument that a pass of `insert_db` puts in. -/
theorem insertParseSql32_cons (hfuel : 5 ≤ fuel) (sql : Str) {v : Field} (app : Bool)
    (hv : v.sqlText.length + 9 < 2 ^ 31) : ∃ d f,
      insertParseSqlWith (sformat32 fuel) sql v app = sformat32 fuel sql [d :: f] ∧ d ≠ lbrace ∧
        (d :: f).length < 2 ^ 31 := by
  obtain ⟨d, f, hcons, hd⟩ := v.sqlText_cons
  rw [insertParseSqlWith_sqlText (fills_sformat32 hfuel) sql v app (Nat.cast_lt.2 (by omega)), hcons]
  rw [hcons] at hv
  have hmarker : (marker 0).length = 3 := by decide
  cases app with
  | true =>
    refine ⟨d, f ++ 44 :: marker 0, rfl, hd, ?_⟩
    simp only [List.length_cons, List.length_append, hmarker] at hv ⊢
    omega
  | false => exact ⟨d, f, rfl, hd, by omega⟩

/-- A statement that diverges is not put right by later values. -/
theorem Diverges.insert (hfuel : 5 ≤ fuel) {args : List Field}
    (hargs : ∀ v ∈ args, v.sqlText.length + 9 < 2 ^ 31) : ∀ {t : Str}, Diverges e t →
      insertMplWith (sformat32 fuel) t args = .ok u → Diverges e u := by
  induction args with
  | nil =>
    intro t hdiv h
    obtain rfl := Except.ok.inj h
    exact hdiv
  | cons v args ih =>
    intro t hdiv h
    have hv := hargs v List.mem_cons_self
    rcases args with _ | ⟨w, args⟩
    · obtain ⟨d, f, heq, hd, hlen⟩ := insertParseSql32_cons hfuel t false hv
      rw [insertMplWith, heq] at h
      exact hdiv.put hd hlen h
    · obtain ⟨d, f, heq, hd, hlen⟩ := insertParseSql32_cons hfuel t true hv
      rw [insertMplWith, heq] at h
      obtain ⟨t', ht', h⟩ := bind_eq_ok.1 h
      exact ih (fun v hv => hargs v (List.mem_cons_of_mem _ hv)) (hdiv.put hd hlen ht') h

theorem length_sqlText_le {args : List Field} : ∀ v ∈ args, v.sqlText.length ≤ (valuesText args).length := by
  induction args with
  | nil => simp
  | cons w args ih =>
    intro v hv
    rcases args with _ | ⟨w', args⟩
    · obtain rfl := List.mem_singleton.1 hv
      exact le_rfl
    · simp only [valuesText, List.length_append, List.length_cons]
      rcases List.mem_cons.1 hv with rfl | hv
      · omega
      · have hle := ih v hv
        omega

/-- **The first group among the values spoils the statement.** -/
theorem insertMpl32_diverges (hfuel : 5 ≤ fuel) {args : List Field} : ∀ {pre : Str}, NoFlg pre →
    (pre ++ valuesText args ++ lit ");").length + 9 < 2 ^ 31 → ¬ NoFlg (pre ++ scannedText args) →
      insertMplWith (sformat32 fuel) (pre ++ marker 0 ++ lit ");") args = .ok u →
        Diverges (pre ++ valuesText args ++ lit ");") u := by
  induction args with
  | nil =>
    intro pre hpre _ hflg
    rw [scannedText, List.append_nil] at hflg
    exact absurd hpre hflg
  | cons v args ih =>
    intro pre hpre hlen hflg h
    rcases args with _ | ⟨w, args⟩
    · rw [scannedText, List.append_nil] at hflg
      exact absurd hpre hflg
    · have hnext : pre ++ (v.sqlText ++ 44 :: marker 0) ++ lit ");" =
          (pre ++ v.sqlText ++ [44]) ++ marker 0 ++ lit ");" := by simp
      have hwant : pre ++ valuesText (v :: w :: args) ++ lit ");" =
          (pre ++ v.sqlText ++ [44]) ++ valuesText (w :: args) ++ lit ");" := by simp [valuesText]
      have hscan : pre ++ scannedText (v :: w :: args) =
          (pre ++ v.sqlText ++ [44]) ++ scannedText (w :: args) := by simp [scannedText]
      have hlits : (marker 0).length = 3 ∧ (lit ");").length = 2 := by decide
      rw [hwant] at hlen
      have hlens : pre.length + v.sqlText.length + 12 < 2 ^ 31 := by
        simp only [List.length_append, List.length_singleton, hlits] at hlen
        omega
      have hargs : ∀ w' ∈ w :: args, w'.sqlText.length + 9 < 2 ^ 31 := by
        intro w' hw'
        have hle := length_sqlText_le w' hw'
        simp only [List.length_append] at hlen
        omega
      have hput : ((pre ++ (v.sqlText ++ 44 :: marker 0) ++ lit ");").length + 3 : ℕ) < 2 ^ 31 := by
        simp only [List.length_append, List.length_cons, hlits]
        omega
      rw [insertMplWith, insertParseSqlWith_eq (fills_sformat32 hfuel) hpre v true (Nat.cast_lt.2 hput),
        ok_bind, if_pos rfl, hnext] at h
      rw [hwant]
      rw [hscan] at hflg
      by_cases hv : NoFlg (pre ++ v.sqlText ++ [44])
      · exact ih hv hlen hflg h
      · have hshort : (pre ++ v.sqlText ++ [44]).length < 2 ^ 31 := by
          simp only [List.length_append, List.length_singleton]
          omega
        rw [List.append_assoc _ (marker 0)] at h
        rw [List.append_assoc _ (valuesText _)]
        rcases args with _ | ⟨w', args⟩
        · obtain ⟨d, f, hw, hd, hf⟩ := insertParseSql32_cons hfuel ((pre ++ v.sqlText ++ [44]) ++
            (marker 0 ++ lit ");")) false (hargs w List.mem_cons_self)
          rw [insertMplWith, hw] at h
          exact diverges_of_group hd hf hv hshort h
        · obtain ⟨d, f, hw, hd, hf⟩ := insertParseSql32_cons hfuel ((pre ++ v.sqlText ++ [44]) ++
            (marker 0 ++ lit ");")) true (hargs w List.mem_cons_self)
          rw [insertMplWith, hw] at h
          obtain ⟨t', ht', h⟩ := bind_eq_ok.1 h
          exact (diverges_of_group hd hf hv hshort ht').insert hfuel
            (fun v hv => hargs v (List.mem_cons_of_mem _ hv)) h

/-- **`insert_db` builds the statement that it means**, with positions of type `int`, if and
    only if no group is among the values before the last. -/
theorem insertDb_iff {table : Str} {args : List Field} (hfuel : 5 ≤ fuel) (ht : lbrace ∉ table)
    (hne : args ≠ []) (hlen : (insertText table args).length + 9 < 2 ^ 31) :
    insertDbWith (sformat32 fuel) table args = .ok (insertText table args) ↔ NoFlg (scannedText args) := by
  constructor
  · intro h
    by_contra hflg
    have hhead : (lit "INSERT INTO ").length = 12 ∧ (lit " VALUES (").length = 9 ∧
        (lit ");").length = 2 := by decide
    have hfirst : (table.length + 32 : ℕ) < 2 ^ 31 := by
      simp only [insertText, List.length_append, hhead] at hlen
      omega
    rw [insertDbWith_first (fills_sformat32 hfuel) (Nat.cast_lt.2 hfirst)] at h
    exact (insertMpl32_diverges hfuel (noFlg_of_notMem (lbrace_notMem_insertPre ht)) hlen
      (fun hpre => hflg (noFlg_of_suffix hpre)) h).ne rfl
  · intro hflg
    exact insertDbWith_eq (fills_sformat32 hfuel) ht hne hflg (Nat.cast_lt.2 hlen)

theorem insertDb_iff_texts :
    insertDbWith (sformat32 5) (lit "t") [.int 7, .text (lit "\x7d\x7b"), .text (lit "{0}")] =
        .ok (insertText (lit "t") [.int 7, .text (lit "\x7d\x7b"), .text (lit "{0}")]) ↔
      NoFlg (scannedText [.int 7, .text (lit "\x7d\x7b"), .text (lit "{0}")]) :=
  insertDb_iff le_rfl (by decide) (by simp) (by decide +kernel)

/-- A marker in a value is replaced by the next value. -/
theorem insertDb_marker :
    insertDbWith (sformat32 5) (lit "t") [.text (lit "{0}"), .int 7] =
        .ok (lit "INSERT INTO t VALUES ('7',7);") ∧
      insertText (lit "t") [.text (lit "{0}"), .int 7] = lit "INSERT INTO t VALUES ('{0}',7);" :=
  ⟨ok_of_toOption (by decide +kernel), by decide +kernel⟩

end

end SimpleChat
