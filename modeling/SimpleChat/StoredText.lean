/-
  When stored text is data.

  The values of a row stand between quotes in the statement as they are.

  * `readStr_mem`: what a literal denotes is made of its bytes;
  * `plain_of_lex_values`: values that are read as one literal each have no quotes and no
    null bytes;
  * `insertText_iff`: so the statement says what it means exactly for such values;
  * `stored_text_is_data`: the statements of `insert_history` and `insert_record`.
-/
import SimpleChat.Acknowledged
import SimpleChat.Records

namespace SimpleChat

open Lib Lib.Sql

/-- What a literal denotes is made of its bytes. -/
theorem readStr_mem : ∀ {s v r : Str}, readStr s = some (v, r) → ∀ b ∈ v, b ∈ s
  | [], _, _, h => by simp [readStr] at h
  | [c], v, r, h => by
    intro b hb
    simp only [readStr] at h
    split_ifs at h
    obtain ⟨rfl, -⟩ := Prod.mk.inj (Option.some.inj h)
    cases hb
  | c :: d :: s, v, r, h => by
    intro b hb
    simp only [readStr] at h
    split_ifs at h with hc hd
    · -- a pair of quotes
      obtain ⟨⟨u, t⟩, hu, he⟩ := Option.map_eq_some_iff.1 h
      obtain ⟨rfl, -⟩ := Prod.mk.inj he
      rcases List.mem_cons.1 hb with rfl | hb
      · rw [hc]
        exact List.mem_cons_self
      · exact List.mem_cons_of_mem c (List.mem_cons_of_mem d (readStr_mem hu b hb))
    · obtain ⟨rfl, -⟩ := Prod.mk.inj (Option.some.inj h)
      cases hb
    · obtain ⟨⟨u, t⟩, hu, he⟩ := Option.map_eq_some_iff.1 h
      obtain ⟨rfl, -⟩ := Prod.mk.inj he
      rcases List.mem_cons.1 hb with rfl | hb
      · exact List.mem_cons_self
      · exact List.mem_cons_of_mem c (readStr_mem hu b hb)

theorem zero_notMem_cText (s : Str) : (0 : UInt8) ∉ cText s := by
  intro h
  have := List.mem_takeWhile_imp h
  simp at this

/-- **A literal that is read as its text** has neither quotes nor null bytes in it. -/
theorem plain_of_lex_text {a r : Str} {d : UInt8} {ts : List Tok} (hd : d ≠ quote) (hd0 : d ≠ 0)
    (h : lex (cText (quote :: (a ++ quote :: d :: r))) = some (.str a :: ts)) : (Field.text a).Plain := by
  have hquote : ∀ s, cText (quote :: s) = quote :: cText s := fun s => rfl
  rw [hquote] at h
  cases hread : readStr (cText (a ++ quote :: d :: r)) with
  | none =>
    have hstep : lexStep (quote :: cText (a ++ quote :: d :: r)) = none := by
      rw [lexStep, if_neg (by decide), if_pos rfl, hread]
      rfl
    rw [lex_none (List.cons_ne_nil _ _) hstep] at h
    cases h
  | some q =>
    obtain ⟨v, r'⟩ := q
    rw [lex_quote hread] at h
    obtain ⟨us, -, hus⟩ := Option.map_eq_some_iff.1 h
    obtain rfl : v = a := Tok.str.inj (List.cons.inj hus).1
    -- the text was not cut off inside the literal
    have hzero : (0 : UInt8) ∉ v := fun h0 => zero_notMem_cText _ (readStr_mem hread 0 h0)
    have hne : ∀ b ∈ v, b ≠ 0 := fun b hb he => hzero (he ▸ hb)
    have hcut : cText (v ++ quote :: d :: r) = v ++ quote :: cText (d :: r) := by
      rw [cText_append hne]
      rfl
    have hhead : (cText (d :: r)).head? ≠ some quote := by
      have hcons : cText (d :: r) = d :: cText r := by
        simp [cText, hd0]
      rw [hcons, List.head?_cons]
      exact fun he => hd (Option.some.inj he)
    rw [hcut] at hread
    exact ⟨readStr_self hhead hread, hzero⟩

/-- A value that is read as it is meant. -/
theorem plain_of_lex_value {v : Field} {r : Str} {d : UInt8} {ts : List Tok} (hd : d ≠ quote) (hd0 : d ≠ 0)
    (h : lex (cText (v.sqlText ++ d :: r)) = some (valueToks v.value ++ ts)) : v.Plain := by
  cases v with
  | int n => trivial
  | text a =>
    have hshape : (Field.text a).sqlText ++ d :: r = quote :: (a ++ quote :: d :: r) := by
      simp [Field.sqlText]
    rw [hshape] at h
    exact plain_of_lex_text hd hd0 h

/-- **Values that are read as they are meant**, one by one. -/
theorem plain_of_lex_values {args : List Field} {ts : List Tok} {s : Str}
    (h : lex (cText (valuesText args ++ 41 :: s)) = some (valuesToks (args.map Field.value) ++ ts)) :
    ∀ v ∈ args, v.Plain := by
  induction args generalizing ts with
  | nil => exact fun v hv => absurd hv List.not_mem_nil
  | cons v args ih =>
    rcases args with _ | ⟨w, args⟩
    · intro u hu
      obtain rfl := List.mem_singleton.1 hu
      exact plain_of_lex_value (by decide) (by decide) h
    · have hshape : valuesText (v :: w :: args) ++ 41 :: s =
          v.sqlText ++ 44 :: (valuesText (w :: args) ++ 41 :: s) := by
        rw [valuesText, List.append_assoc, List.cons_append]
      rw [hshape] at h
      simp only [List.map_cons, valuesToks, List.append_assoc, List.cons_append] at h
      have hplain : v.Plain := plain_of_lex_value (by decide) (by decide) h
      -- the rest of the text is lexed behind the value and its comma
      have hcut : cText (v.sqlText ++ 44 :: (valuesText (w :: args) ++ 41 :: s)) =
          v.sqlText ++ ([44] ++ cText (valuesText (w :: args) ++ 41 :: s)) := by
        rw [cText_append hplain.ne_zero]
        rfl
      have hcomma : Lexes [44] [.sym 44] := lexes_of_lexN (n := 5) (by decide +kernel) (closed_singleton (.inr rfl))
      have hlex := (hplain.unquoted.lexes).append hcomma (by decide)
      rw [hcut, ← List.append_assoc, hlex] at h
      obtain ⟨us, hus, heq⟩ := Option.map_eq_some_iff.1 h
      simp only [List.append_assoc, List.cons_append, List.nil_append, List.append_cancel_left_eq,
        List.cons.injEq, true_and] at heq
      rw [heq] at hus
      intro u hu
      rcases List.mem_cons.1 hu with rfl | hu
      · exact hplain
      · have hrest : lex (cText (valuesText (w :: args) ++ 41 :: s)) =
            some (valuesToks ((w :: args).map Field.value) ++ ts) := by
          simpa using hus
        exact ih hrest u hu

/-- **The statement of a row says what it means** if and only if no text has a quote or a
    null byte. -/
theorem insertText_iff {table : Str} {args : List Field} (ht : TableWord table) (hne : args ≠ []) :
    lex (cText (insertText table args)) = some (insertToks table (args.map Field.value)) ↔
      ∀ v ∈ args, v.Plain := by
  refine ⟨fun h => ?_, lex_cText_insertText ht hne⟩
  have hinsert : Lexes (lit "INSERT INTO ") [.word (lit "insert"), .word (lit "into")] :=
    lexes_of_lexN (n := 20) (by decide +kernel) (by decide +kernel)
  have hvalues : Lexes (lit " VALUES (") [.word (lit "values"), .sym 40] :=
    lexes_of_lexN (n := 20) (by decide +kernel) (by decide +kernel)
  have hpre := (hinsert.append_before ht.lowerName.lexes).append hvalues (by decide)
  have hzero : ∀ b ∈ lit "INSERT INTO " ++ table ++ lit " VALUES (", b ≠ 0 := by
    simp only [ne_zero_append, and_assoc]
    exact ⟨by decide +kernel, ht.ne_zero, by decide +kernel⟩
  have hend : lit ");" = 41 :: lit ";" := by decide +kernel
  rw [insertText, List.append_assoc, cText_append hzero, hpre, hend] at h
  obtain ⟨us, hus, heq⟩ := Option.map_eq_some_iff.1 h
  simp only [insertToks, List.cons_append, List.nil_append, List.cons.injEq, true_and] at heq
  rw [heq] at hus
  exact plain_of_lex_values hus

/-- **Stored text is data** exactly if it has no quotes and no null bytes: the texts that
    `insert_history` and `insert_record` hand over are lexed as the statement that inserts
    the row; no brace group is among the values before the last. -/
theorem stored_text_is_data {account : Int64} (h : 0 ≤ account.toInt) :
    (∀ tup : HistoryRow, NoFlg (scannedText tup.fields) → ∃ sql, insertHistorySql account tup = .ok sql ∧
      (lex (cText sql) = some (insertToks (historyName account) (tup.fields.map Field.value)) ↔
        ∀ v ∈ tup.fields, v.Plain)) ∧
    ∀ tup : RecordRow, NoFlg (scannedText tup.fields) → ∃ sql, insertRecordSql account tup = .ok sql ∧
      (lex (cText sql) = some (insertToks (recordName account) (tup.fields.map Field.value)) ↔
        ∀ v ∈ tup.fields, v.Plain) := by
  constructor
  · intro tup hnoFlg
    have hsql := insertHistorySql_eq hnoFlg account
    exact ⟨_, hsql, insertText_iff (tableWord_historyName h) (List.cons_ne_nil _ _)⟩
  · intro tup hnoFlg
    exact ⟨_, insertRecordSql_eq hnoFlg, insertText_iff (tableWord_recordName h) (List.cons_ne_nil _ _)⟩

/-- Two texts of a friend: the one is data, the other one is not. -/
theorem stored_text_is_data_quote : ∃ sql sql',
    insertHistorySql 2 (incomingRow 7 (lit "Text") (lit "its")) = .ok sql ∧
    lex (cText sql) = some (insertToks (historyName 2)
      ((incomingRow 7 (lit "Text") (lit "its")).fields.map Field.value)) ∧
    insertHistorySql 2 (incomingRow 7 (lit "Text") (lit "it's")) = .ok sql' ∧
    lex (cText sql') ≠ some (insertToks (historyName 2)
      ((incomingRow 7 (lit "Text") (lit "it's")).fields.map Field.value)) := by
  have hdata := (stored_text_is_data (show 0 ≤ (2 : Int64).toInt by decide)).1
  obtain ⟨sql, hsql, hiff⟩ := hdata (incomingRow 7 (lit "Text") (lit "its")) (by decide +kernel)
  obtain ⟨sql', hsql', hiff'⟩ := hdata (incomingRow 7 (lit "Text") (lit "it's")) (by decide +kernel)
  have hplain : ∀ v ∈ (incomingRow 7 (lit "Text") (lit "its")).fields, v.Plain := by decide +kernel
  have hquote : ¬ ∀ v ∈ (incomingRow 7 (lit "Text") (lit "it's")).fields, v.Plain := by decide +kernel
  exact ⟨sql, sql', hsql, hiff.2 hplain, hsql', fun h => hquote (hiff'.1 h)⟩

end SimpleChat
