/-
  A fragment of SQL: statements and their effect on a database.

  * `parseStmt`: the statement that tokens spell, if it is exactly one `CREATE
    TABLE IF NOT EXISTS`, `INSERT`, `UPDATE`, `SELECT` or `DELETE` of the forms
    below, for tables whose first column is an integer primary key;
  * `runStmt`: its effect; a key that is taken and a failed `CHECK` make the
    statement fail and leave the database as it was;
  * `exec`: the call that executes a text, up to its first null byte.  Texts
    outside the fragment are executed by a parameter;
  * `insertToks`, `parse_insert`, ..: the tokens of a statement are parsed to it.
-/
import SimpleChat.Lib.SqlLex
import SimpleChat.Lib.Keyed

namespace Lib.Sql

/-- A stored value. -/
inductive Value where
  | int (n : ℤ)
  | text (s : Str)
  deriving DecidableEq, Repr

/-- The columns of the fragment: the integer primary key, integers with an
    optional range as their `CHECK`, and texts. -/
inductive Kind where
  | key
  | int (range : Option (ℤ × ℤ))
  | text
  deriving DecidableEq, Repr

inductive Stmt where
  | create (table : Str) (cols : List (Str × Kind))
  | insert (table : Str) (vals : List Value)
  | update (table col : Str) (val : Value) (idCol : Str) (id : Value)
  | select (table : Str) (cond : Option (Str × Value))
  | delete (table idCol : Str) (id : Value)
  deriving DecidableEq, Repr

/-! ## Parsing -/

/-- The keywords of the fragment that are no names. -/
def keywords : List Str :=
  [lit "create", lit "table", lit "if", lit "not", lit "exists", lit "insert", lit "into",
    lit "values", lit "update", lit "set", lit "where", lit "select", lit "from", lit "delete",
    lit "and", lit "primary", lit "check"]

/-- The given tokens come first. -/
def expect (pre ts : List Tok) : Option (List Tok) :=
  if pre <+: ts then some (ts.drop pre.length) else none

@[simp] theorem expect_append (pre ts : List Tok) : expect pre (pre ++ ts) = some ts := by
  simp [expect]

/-- A name. -/
def takeName : List Tok → Option (Str × List Tok)
  | .word w :: ts => if w ∈ keywords then none else some (w, ts)
  | _ => none

theorem takeName_word {w : Str} (hw : w ∉ keywords) (ts : List Tok) :
    takeName (.word w :: ts) = some (w, ts) := if_neg hw

/-- A value: a string, or a number of 64 bits. -/
def parseValue : List Tok → Option (Value × List Tok)
  | .num n :: r => if n < 2 ^ 63 then some (.int n, r) else none
  | .sym m :: .num n :: r => if m = 45 ∧ n ≤ 2 ^ 63 then some (.int (-n), r) else none
  | .str s :: r => some (.text s, r)
  | _ => none

theorem parseValue_length {ts r : List Tok} {v : Value} (h : parseValue ts = some (v, r)) :
    r.length < ts.length := by
  unfold parseValue at h
  split at h
  · split_ifs at h
    simp only [Option.some.injEq, Prod.mk.injEq] at h
    simp [← h.2]
  · split_ifs at h
    simp only [Option.some.injEq, Prod.mk.injEq] at h
    simp only [← h.2, List.length_cons]; omega
  · simp only [Option.some.injEq, Prod.mk.injEq] at h
    simp [← h.2]
  · cases h

/-- Values separated by commas, up to the closing parenthesis. -/
def parseValues (ts : List Tok) : Option (List Value × List Tok) :=
  match _h : parseValue ts with
  | some (v, .sym c :: r) =>
    if c = 44 then (parseValues r).map fun q => (v :: q.1, q.2)
    else if c = 41 then some ([v], r) else none
  | _ => none
termination_by ts.length
decreasing_by have := parseValue_length _h; simp only [List.length_cons] at this; omega

/-- The rest of a column definition, up to the comma or the closing parenthesis. -/
def parseKind : List Tok → Option (Kind × List Tok)
  | .word a :: .word p :: .word k :: .sym c :: r =>
    if a = lit "integer" ∧ p = lit "primary" ∧ k = lit "key" then some (.key, .sym c :: r) else none
  | .word a :: .word k :: .sym p :: .word x :: .ge :: .num lo :: .word d :: .word y :: .le :: .num hi ::
      .sym q :: r =>
    if a = lit "integer" ∧ k = lit "check" ∧ p = 40 ∧ d = lit "and" ∧ x = y ∧ q = 41 then
      some (.int (some (lo, hi)), r)
    else none
  | .word a :: .sym c :: r =>
    if a = lit "integer" then some (.int none, .sym c :: r)
    else if a = lit "text" then some (.text, .sym c :: r) else none
  | _ => none

theorem parseKind_length {ts r : List Tok} {k : Kind} (h : parseKind ts = some (k, r)) :
    r.length < ts.length := by
  unfold parseKind at h
  split at h
  · split_ifs at h
    simp only [Option.some.injEq, Prod.mk.injEq] at h
    simp only [← h.2, List.length_cons]; omega
  · split_ifs at h
    simp only [Option.some.injEq, Prod.mk.injEq] at h
    simp only [← h.2, List.length_cons]; omega
  · split_ifs at h
    all_goals
      simp only [Option.some.injEq, Prod.mk.injEq] at h
      simp [← h.2]
  · cases h

/-- Column definitions separated by commas, up to the closing parenthesis. -/
def parseCols (ts : List Tok) : Option (List (Str × Kind) × List Tok) :=
  match _h : takeName ts with
  | some (n, us) =>
    match _h' : parseKind us with
    | some (k, .sym c :: r) =>
      if c = 44 then (parseCols r).map fun q => ((n, k) :: q.1, q.2)
      else if c = 41 then some ([(n, k)], r) else none
    | _ => none
  | none => none
termination_by ts.length
decreasing_by
  have := parseKind_length _h'
  have hts : ts = .word n :: us := by
    unfold takeName at _h
    split at _h
    · split_ifs at _h
      simp only [Option.some.injEq, Prod.mk.injEq] at _h
      rw [_h.1, _h.2]
    · cases _h
  simp only [List.length_cons, hts] at this ⊢; omega

/-- Nothing but the closing semicolon. -/
def isEnd (ts : List Tok) : Bool := ts == [] || ts == [.sym 59]

/-- `name = value`, and the end. -/
def parseCond (ts : List Tok) : Option (Str × Value) := do
  let (c, ts) ← takeName ts
  let ts ← expect [.sym 61] ts
  let (v, ts) ← parseValue ts
  if isEnd ts then some (c, v) else none

def parseCreate (ts : List Tok) : Option Stmt := do
  let ts ← expect [.word (lit "table"), .word (lit "if"), .word (lit "not"), .word (lit "exists")] ts
  let (t, ts) ← takeName ts
  let ts ← expect [.sym 40] ts
  let (cols, ts) ← parseCols ts
  if isEnd ts ∧ (cols.map Prod.snd).head? = some .key ∧ .key ∉ (cols.map Prod.snd).tail then
    some (.create t cols)
  else none

def parseInsert (ts : List Tok) : Option Stmt := do
  let ts ← expect [.word (lit "into")] ts
  let (t, ts) ← takeName ts
  let ts ← expect [.word (lit "values"), .sym 40] ts
  let (vals, ts) ← parseValues ts
  if isEnd ts then some (.insert t vals) else none

def parseUpdate (ts : List Tok) : Option Stmt := do
  let (t, ts) ← takeName ts
  let ts ← expect [.word (lit "set")] ts
  let (col, ts) ← takeName ts
  let ts ← expect [.sym 61] ts
  let (v, ts) ← parseValue ts
  let ts ← expect [.word (lit "where")] ts
  let (idCol, id) ← parseCond ts
  some (.update t col v idCol id)

def parseSelect (ts : List Tok) : Option Stmt := do
  let ts ← expect [.sym 42, .word (lit "from")] ts
  let (t, ts) ← takeName ts
  if isEnd ts then some (.select t none)
  else
    let ts ← expect [.word (lit "where")] ts
    let cond ← parseCond ts
    some (.select t (some cond))

def parseDelete (ts : List Tok) : Option Stmt := do
  let ts ← expect [.word (lit "from")] ts
  let (t, ts) ← takeName ts
  let ts ← expect [.word (lit "where")] ts
  let (idCol, id) ← parseCond ts
  some (.delete t idCol id)

/-- The one statement that the tokens spell. -/
def parseStmt : List Tok → Option Stmt
  | .word w :: ts =>
    if w = lit "create" then parseCreate ts
    else if w = lit "insert" then parseInsert ts
    else if w = lit "update" then parseUpdate ts
    else if w = lit "select" then parseSelect ts
    else if w = lit "delete" then parseDelete ts
    else none
  | _ => none

/-! ## Effect -/

/-- A table: its columns, the first of them the key, and its rows in key order. -/
structure Table where
  cols : List (Str × Kind)
  rows : List (List Value)
  deriving DecidableEq, Repr

abbrev Database := Str → Option Table

/-- The key of a row. -/
def keyOf : List Value → ℤ
  | .int n :: _ => n
  | _ => 0

/-- The value meets the constraint of its column; `none` if it would have to be
    converted first. -/
def fits : Kind → Value → Option Bool
  | .key, .int _ | .int none, .int _ | .text, .text _ => some true
  | .int (some (lo, hi)), .int n => some (decide (lo ≤ n ∧ n ≤ hi))
  | _, _ => none

/-- All values of a row meet their constraints. -/
def fitsAll : List (Str × Kind) → List Value → Option Bool
  | c :: cols, v :: vals =>
    match fits c.2 v, fitsAll cols vals with
    | some b, some b' => some (b && b')
    | _, _ => none
  | [], [] => some true
  | _, _ => some false

/-- What a call reports: success, the database afterwards, and the rows selected,
    each value under the name of its column. -/
structure Result where
  ok : Bool
  db : Database
  rows : List (List (Str × Value))

/-- A statement that fails. -/
def failed (db : Database) : Result := ⟨false, db, []⟩

/-- A statement that gives a table new rows. -/
def stored (db : Database) (t : Str) (tbl : Table) (rows : List (List Value)) : Result :=
  ⟨true, Function.update db t (some { tbl with rows := rows }), []⟩

/-- The position of a column. -/
def colIdx (tbl : Table) (c : Str) : Option ℕ := (tbl.cols.map Prod.fst).findIdx? (· == c)

section
variable (db : Database)

def runInsert (t : Str) (tbl : Table) (vals : List Value) : Option Result :=
  (fitsAll tbl.cols vals).map fun ok =>
    if ok then
      match addRow keyOf vals tbl.rows with
      | some rows => stored db t tbl rows
      | none => failed db
    else failed db

/-- The row is found by the key, and another column is rewritten. -/
def runUpdate (t : Str) (tbl : Table) (col : Str) (val : Value) (idCol : Str) (id : Value) :
    Option Result :=
  match colIdx tbl idCol, colIdx tbl col, id with
  | some 0, some (i + 1), .int k =>
    (tbl.cols[i + 1]?.bind fun c => fits c.2 val).map fun ok =>
      if ok || !(tbl.rows.any fun r => keyOf r == k) then
        stored db t tbl (updateRow keyOf k (fun r => r.set (i + 1) val) tbl.rows)
      else failed db
  | _, _, _ => none

def runSelect (tbl : Table) (cond : Option (Str × Value)) : Option Result :=
  let name (r : List Value) := (tbl.cols.map Prod.fst).zip r
  match cond with
  | none => some ⟨true, db, tbl.rows.map name⟩
  | some (c, v) =>
    match colIdx tbl c with
    | some i =>
      (tbl.cols[i]?.bind fun c => fits c.2 v).map fun _ =>
        ⟨true, db, (tbl.rows.filter fun r => r[i]? == some v).map name⟩
    | none => none

/-- The row is found by the key. -/
def runDelete (t : Str) (tbl : Table) (idCol : Str) (id : Value) : Option Result :=
  match colIdx tbl idCol, id with
  | some 0, .int k => some (stored db t tbl (tbl.rows.filter fun r => keyOf r != k))
  | _, _ => none

/-- The effect of a statement; `none` outside the fragment.  A table that does
    not exist is an error. -/
def runStmt : Stmt → Option Result
  | .create t cols =>
    match db t with
    | some _ => some ⟨true, db, []⟩
    | none => some ⟨true, Function.update db t (some ⟨cols, []⟩), []⟩
  | .insert t vals =>
    match db t with
    | some tbl => runInsert db t tbl vals
    | none => some (failed db)
  | .update t col val idCol id =>
    match db t with
    | some tbl => runUpdate db t tbl col val idCol id
    | none => some (failed db)
  | .select t cond =>
    match db t with
    | some tbl => runSelect db tbl cond
    | none => some (failed db)
  | .delete t idCol id =>
    match db t with
    | some tbl => runDelete db t tbl idCol id
    | none => some (failed db)

/-- What a C string holds of a text. -/
def cText (s : Str) : Str := s.takeWhile (· != 0)

/-- `sqlite3_exec`; `other` executes the texts outside the fragment. -/
def exec (other : Str → Database → Result) (sql : Str) : Result :=
  match (lex (cText sql)).bind parseStmt with
  | some stmt => (runStmt db stmt).getD (other sql db)
  | none => other sql db

end

/-! ## The tokens of an `INSERT` -/

/-- The value is a text, or a number of 64 bits. -/
def Value.InRange : Value → Prop
  | .int n => -2 ^ 63 ≤ n ∧ n < 2 ^ 63
  | .text _ => True

def valueToks : Value → List Tok
  | .int n => intToks n
  | .text s => [.str s]

/-- Values with commas between them. -/
def valuesToks : List Value → List Tok
  | [] => []
  | [v] => valueToks v
  | v :: w :: vs => valueToks v ++ .sym 44 :: valuesToks (w :: vs)

/-- The tokens of the statement that inserts one row. -/
def insertToks (t : Str) (vals : List Value) : List Tok :=
  [.word (lit "insert"), .word (lit "into"), .word t, .word (lit "values"), .sym 40] ++
    (valuesToks vals ++ [.sym 41, .sym 59])

theorem parseValue_valueToks {v : Value} (hv : v.InRange) (r : List Tok) :
    parseValue (valueToks v ++ r) = some (v, r) := by
  cases v with
  | text s => rfl
  | int n =>
    obtain ⟨hlo, hhi⟩ := hv
    simp only [valueToks, intToks]
    split_ifs with hn
    · have habs : n.natAbs ≤ 2 ^ 63 := by omega
      simp only [List.cons_append, List.nil_append, parseValue, habs, and_self, if_true]
      rw [show -((n.natAbs : ℕ) : ℤ) = n by omega]
    · have habs : n.natAbs < 2 ^ 63 := by omega
      simp only [List.cons_append, List.nil_append, parseValue, habs, if_true]
      rw [show ((n.natAbs : ℕ) : ℤ) = n by omega]

theorem parseValues_step {ts r : List Tok} {v : Value} {c : UInt8}
    (h : parseValue ts = some (v, .sym c :: r)) :
    parseValues ts = if c = 44 then (parseValues r).map fun q => (v :: q.1, q.2)
      else if c = 41 then some ([v], r) else none := by
  rw [parseValues]
  split <;> simp_all

theorem parseValues_valuesToks {vals : List Value} (hne : vals ≠ []) (hv : ∀ v ∈ vals, v.InRange)
    (r : List Tok) : parseValues (valuesToks vals ++ .sym 41 :: r) = some (vals, r) := by
  induction vals with
  | nil => exact absurd rfl hne
  | cons v vals ih =>
    have hfirst := parseValue_valueToks (hv v (by simp))
    rcases vals with _ | ⟨w, vals⟩
    · rw [valuesToks, parseValues_step (hfirst _), if_neg (by decide), if_pos rfl]
    · rw [valuesToks, List.append_assoc, List.cons_append, parseValues_step (hfirst _), if_pos rfl,
        ih (by simp) fun u hu => hv u (List.mem_cons_of_mem v hu)]
      rfl

theorem parse_insert {t : Str} {vals : List Value} (ht : t ∉ keywords) (hne : vals ≠ [])
    (hv : ∀ v ∈ vals, v.InRange) : parseStmt (insertToks t vals) = some (.insert t vals) := by
  have hvalues := parseValues_valuesToks hne hv [.sym 59]
  have hend : isEnd [.sym 59] = true := rfl
  have hinto : expect [.word (lit "into")] (.word (lit "into") :: .word t :: .word (lit "values") ::
      .sym 40 :: (valuesToks vals ++ [.sym 41, .sym 59])) = some (.word t :: .word (lit "values") ::
        .sym 40 :: (valuesToks vals ++ [.sym 41, .sym 59])) := expect_append _ _
  have hopen : expect [.word (lit "values"), .sym 40] (.word (lit "values") :: .sym 40 ::
      (valuesToks vals ++ [.sym 41, .sym 59])) = some (valuesToks vals ++ [.sym 41, .sym 59]) :=
    expect_append _ _
  have hname : takeName (.word t :: .word (lit "values") :: .sym 40 ::
      (valuesToks vals ++ [.sym 41, .sym 59])) = some (t, .word (lit "values") :: .sym 40 ::
        (valuesToks vals ++ [.sym 41, .sym 59])) := if_neg ht
  have hinsert : lit "insert" ≠ lit "create" := by decide
  simp only [insertToks, List.cons_append, List.nil_append, parseStmt, hinsert, if_false, if_true,
    parseInsert, hinto, hname, hopen, hvalues, hend, Option.bind_eq_bind, Option.bind_some]

/-! ## The tokens of a `CREATE TABLE` -/

/-- The bounds of a `CHECK` are numbers without a sign. -/
def Kind.Unsigned : Kind → Prop
  | .int (some (lo, hi)) => 0 ≤ lo ∧ 0 ≤ hi
  | _ => True

/-- The tokens of a column definition, after the name. -/
def kindToks (n : Str) : Kind → List Tok
  | .key => [.word (lit "integer"), .word (lit "primary"), .word (lit "key")]
  | .int none => [.word (lit "integer")]
  | .int (some (lo, hi)) =>
    [.word (lit "integer"), .word (lit "check"), .sym 40, .word n, .ge, .num lo.toNat,
      .word (lit "and"), .word n, .le, .num hi.toNat, .sym 41]
  | .text => [.word (lit "text")]

def colToks (c : Str × Kind) : List Tok := .word c.1 :: kindToks c.1 c.2

/-- Column definitions with commas between them. -/
def colsToks : List (Str × Kind) → List Tok
  | [] => []
  | [c] => colToks c
  | c :: d :: cs => colToks c ++ .sym 44 :: colsToks (d :: cs)

/-- The tokens of the statement that creates a table. -/
def createToks (t : Str) (cols : List (Str × Kind)) : List Tok :=
  [.word (lit "create"), .word (lit "table"), .word (lit "if"), .word (lit "not"),
    .word (lit "exists"), .word t, .sym 40] ++ (colsToks cols ++ [.sym 41, .sym 59])

theorem parseKind_kindToks {k : Kind} (hk : k.Unsigned) (n : Str) (b : UInt8) (r : List Tok) :
    parseKind (kindToks n k ++ .sym b :: r) = some (k, .sym b :: r) := by
  cases k with
  | key => rfl
  | text => rfl
  | int range =>
    cases range with
    | none => rfl
    | some q =>
      obtain ⟨lo, hi⟩ := q
      obtain ⟨hlo, hhi⟩ := hk
      have hparse : parseKind (kindToks n (.int (some (lo, hi))) ++ .sym b :: r) =
          some (.int (some ((lo.toNat : ℤ), (hi.toNat : ℤ))), .sym b :: r) := by
        simp [kindToks, parseKind]
      rw [hparse, Int.toNat_of_nonneg hlo, Int.toNat_of_nonneg hhi]

theorem parseCols_step {ts us r : List Tok} {n : Str} {k : Kind} {c : UInt8}
    (hn : takeName ts = some (n, us)) (hk : parseKind us = some (k, .sym c :: r)) :
    parseCols ts = if c = 44 then (parseCols r).map fun q => ((n, k) :: q.1, q.2)
      else if c = 41 then some ([(n, k)], r) else none := by
  rw [parseCols]
  split
  · rename_i n' us' h
    obtain ⟨rfl, rfl⟩ : n' = n ∧ us' = us := by simpa [hn, eq_comm] using h
    split <;> simp_all
  · simp_all

theorem parseCols_colsToks {cols : List (Str × Kind)} (hne : cols ≠ [])
    (hcols : ∀ c ∈ cols, c.1 ∉ keywords ∧ c.2.Unsigned) (r : List Tok) :
    parseCols (colsToks cols ++ .sym 41 :: r) = some (cols, r) := by
  induction cols with
  | nil => exact absurd rfl hne
  | cons c cols ih =>
    obtain ⟨hc, hk⟩ := hcols c (by simp)
    rcases cols with _ | ⟨d, cols⟩
    · rw [colsToks, colToks, List.cons_append,
        parseCols_step (takeName_word hc _) (parseKind_kindToks hk c.1 41 r), if_neg (by decide), if_pos rfl]
    · rw [colsToks, colToks, List.append_assoc, List.cons_append, List.cons_append,
        parseCols_step (takeName_word hc _) (parseKind_kindToks hk c.1 44 _), if_pos rfl,
        ih (by simp) fun c hc => hcols c (List.mem_cons_of_mem _ hc)]
      rfl

/-- A column list of the fragment: the first column is the key, and the only one. -/
theorem parse_create {t n : Str} {cols : List (Str × Kind)} (ht : t ∉ keywords)
    (hcols : ∀ c ∈ (n, .key) :: cols, c.1 ∉ keywords ∧ c.2.Unsigned)
    (hkey : .key ∉ cols.map Prod.snd) :
    parseStmt (createToks t ((n, .key) :: cols)) = some (.create t ((n, .key) :: cols)) := by
  have hparse := parseCols_colsToks (by simp) hcols [.sym 59]
  have hend : isEnd [.sym 59] = true := rfl
  have htable : ∀ ts, expect [.word (lit "table"), .word (lit "if"), .word (lit "not"),
      .word (lit "exists")] (.word (lit "table") :: .word (lit "if") :: .word (lit "not") ::
        .word (lit "exists") :: ts) = some ts := fun ts => expect_append _ ts
  have hopen : ∀ ts, expect [.sym 40] (.sym 40 :: ts) = some ts := fun ts => expect_append _ ts
  simp only [createToks, List.cons_append, List.nil_append, parseStmt, if_true, parseCreate, htable,
    takeName_word ht, hopen, hparse, hend, Option.bind_eq_bind, Option.bind_some, List.map_cons,
    List.head?_cons, List.tail_cons, hkey, not_false_eq_true, and_self]

/-! ## The tokens of the other statements -/

/-- A condition, and the end of the statement. -/
def condToks (c : Str) (v : Value) : List Tok := .word c :: .sym 61 :: (valueToks v ++ [.sym 59])

theorem parseCond_condToks {c : Str} {v : Value} (hc : c ∉ keywords) (hv : v.InRange) :
    parseCond (condToks c v) = some (c, v) := by
  have hend : isEnd [.sym 59] = true := rfl
  have heq : ∀ ts, expect [.sym 61] (.sym 61 :: ts) = some ts := fun ts => expect_append _ ts
  simp only [condToks, parseCond, takeName_word hc, heq, parseValue_valueToks hv, hend, if_true,
    Option.bind_eq_bind, Option.bind_some]

/-- The tokens of the statement that rewrites a column of the row with a key. -/
def updateToks (t col : Str) (val : Value) (idCol : Str) (id : Value) : List Tok :=
  .word (lit "update") :: .word t :: .word (lit "set") :: .word col :: .sym 61 ::
    (valueToks val ++ .word (lit "where") :: condToks idCol id)

theorem parse_update {t col idCol : Str} {val id : Value} (ht : t ∉ keywords) (hcol : col ∉ keywords)
    (hid : idCol ∉ keywords) (hval : val.InRange) (hidr : id.InRange) :
    parseStmt (updateToks t col val idCol id) = some (.update t col val idCol id) := by
  have hupdate : lit "update" ≠ lit "create" ∧ lit "update" ≠ lit "insert" := by decide
  have hset : ∀ ts, expect [.word (lit "set")] (.word (lit "set") :: ts) = some ts :=
    fun ts => expect_append _ ts
  have heq : ∀ ts, expect [.sym 61] (.sym 61 :: ts) = some ts := fun ts => expect_append _ ts
  have hwhere : ∀ ts, expect [.word (lit "where")] (.word (lit "where") :: ts) = some ts :=
    fun ts => expect_append _ ts
  simp only [updateToks, parseStmt, hupdate.1, hupdate.2, if_false, if_true, parseUpdate,
    takeName_word ht, hset, takeName_word hcol, heq, parseValue_valueToks hval, hwhere,
    parseCond_condToks hid hidr, Option.bind_eq_bind, Option.bind_some]

/-- The tokens of the statement that selects a table. -/
def selectToks (t : Str) : List Tok :=
  .word (lit "select") :: .sym 42 :: .word (lit "from") :: .word t :: [.sym 59]

theorem parse_select {t : Str} (ht : t ∉ keywords) : parseStmt (selectToks t) = some (.select t none) := by
  have hend : isEnd [.sym 59] = true := rfl
  have hselect : lit "select" ≠ lit "create" ∧ lit "select" ≠ lit "insert" ∧
      lit "select" ≠ lit "update" := by decide
  have hfrom : ∀ ts, expect [.sym 42, .word (lit "from")] (.sym 42 :: .word (lit "from") :: ts) =
      some ts := fun ts => expect_append _ ts
  simp only [selectToks, parseStmt, hselect.1, hselect.2.1, hselect.2.2, if_false, if_true, parseSelect,
    hfrom, takeName_word ht, hend, Option.bind_eq_bind, Option.bind_some]

/-- The tokens of the statement that selects the rows with a value. -/
def selectWhereToks (t c : Str) (v : Value) : List Tok :=
  .word (lit "select") :: .sym 42 :: .word (lit "from") :: .word t :: .word (lit "where") :: condToks c v

theorem parse_selectWhere {t c : Str} {v : Value} (ht : t ∉ keywords) (hc : c ∉ keywords)
    (hv : v.InRange) : parseStmt (selectWhereToks t c v) = some (.select t (some (c, v))) := by
  have hend : ∀ ts, isEnd (.word (lit "where") :: ts) = false := fun ts => rfl
  have hselect : lit "select" ≠ lit "create" ∧ lit "select" ≠ lit "insert" ∧
      lit "select" ≠ lit "update" := by decide
  have hfrom : ∀ ts, expect [.sym 42, .word (lit "from")] (.sym 42 :: .word (lit "from") :: ts) =
      some ts := fun ts => expect_append _ ts
  have hwhere : ∀ ts, expect [.word (lit "where")] (.word (lit "where") :: ts) = some ts :=
    fun ts => expect_append _ ts
  simp only [selectWhereToks, parseStmt, hselect.1, hselect.2.1,
    hselect.2.2, if_false, if_true, parseSelect, hfrom, takeName_word ht, hend, hwhere,
    parseCond_condToks hc hv, Option.bind_eq_bind, Option.bind_some, Bool.false_eq_true]

/-- The tokens of the statement that deletes the row with a key. -/
def deleteToks (t c : Str) (v : Value) : List Tok :=
  .word (lit "delete") :: .word (lit "from") :: .word t :: .word (lit "where") :: condToks c v

theorem parse_delete {t c : Str} {v : Value} (ht : t ∉ keywords) (hc : c ∉ keywords) (hv : v.InRange) :
    parseStmt (deleteToks t c v) = some (.delete t c v) := by
  have hdelete : lit "delete" ≠ lit "create" ∧ lit "delete" ≠ lit "insert" ∧
      lit "delete" ≠ lit "update" ∧ lit "delete" ≠ lit "select" := by decide
  have hfrom : ∀ ts, expect [.word (lit "from")] (.word (lit "from") :: ts) = some ts :=
    fun ts => expect_append _ ts
  have hwhere : ∀ ts, expect [.word (lit "where")] (.word (lit "where") :: ts) = some ts :=
    fun ts => expect_append _ ts
  simp only [deleteToks, parseStmt, hdelete.1, hdelete.2.1,
    hdelete.2.2.1, hdelete.2.2.2, if_false, if_true, parseDelete, hfrom, takeName_word ht, hwhere,
    parseCond_condToks hc hv, Option.bind_eq_bind, Option.bind_some]

/-! ## The table of a statement -/

/-- What begins as an `INSERT` into a table can only be that. -/
theorem parse_insert_table {w : Str} {ts : List Tok} {stmt : Stmt} (hw : w ∉ keywords)
    (h : parseStmt ([.word (lit "insert"), .word (lit "into")] ++ .word w :: ts) = some stmt) :
    ∃ vals, stmt = .insert w vals := by
  have hinsert : lit "insert" ≠ lit "create" := by decide
  have hinto : expect [.word (lit "into")] (.word (lit "into") :: .word w :: ts) =
      some (.word w :: ts) := expect_append _ _
  simp only [List.cons_append, List.nil_append, parseStmt, hinsert, if_false, if_true, parseInsert,
    hinto, takeName_word hw, Option.bind_eq_bind, Option.bind_some] at h
  obtain ⟨ts', -, h⟩ := Option.bind_eq_some_iff.1 h
  obtain ⟨⟨vals, ts''⟩, -, h⟩ := Option.bind_eq_some_iff.1 h
  refine ⟨vals, ?_⟩
  simp only at h
  split_ifs at h
  exact (Option.some.inj h).symm

/-- What begins as a `SELECT` from a table can only be that. -/
theorem parse_select_table {w : Str} {ts : List Tok} {stmt : Stmt} (hw : w ∉ keywords)
    (h : parseStmt ([.word (lit "select"), .sym 42, .word (lit "from")] ++ .word w :: ts) = some stmt) :
    ∃ cond, stmt = .select w cond := by
  have hselect : lit "select" ≠ lit "create" ∧ lit "select" ≠ lit "insert" ∧
      lit "select" ≠ lit "update" := by decide
  have hfrom : expect [.sym 42, .word (lit "from")] (.sym 42 :: .word (lit "from") :: .word w :: ts) =
      some (.word w :: ts) := expect_append _ _
  simp only [List.cons_append, List.nil_append, parseStmt, hselect, if_false, if_true, parseSelect,
    hfrom, takeName_word hw, Option.bind_eq_bind, Option.bind_some] at h
  split_ifs at h
  · exact ⟨none, (Option.some.inj h).symm⟩
  · obtain ⟨ts', -, h⟩ := Option.bind_eq_some_iff.1 h
    obtain ⟨cond, -, h⟩ := Option.bind_eq_some_iff.1 h
    exact ⟨some cond, (Option.some.inj h).symm⟩

/-! ## Tables that stay -/

section
variable {other : Str → Database → Result} {db : Database} {sql : Str}

/-- The text of a statement of the fragment has its effect. -/
theorem exec_eq {toks : List Tok} {stmt : Stmt} {r : Result} (hlex : lex (cText sql) = some toks)
    (hparse : parseStmt toks = some stmt) (hrun : runStmt db stmt = some r) :
    exec db other sql = r := by
  simp only [exec, hlex, Option.bind_some, hparse, hrun, Option.getD_some]

end

end Lib.Sql
