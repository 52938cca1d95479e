/-
  File streams: `std::fstream` opened for reading or for writing.

  * `Ifstream`: the contents of the file, the read position and the state
    bits; the position stays within the contents, and the end-of-file bit is
    only set at their end (fields of the structure);
  * `Ifstream.read`: a read that gets fewer bytes than it asks for sets the
    end-of-file and fail bits, a read on a stream that is not good gets nothing;
  * `Ifstream.ReadsToEnd`: reads of one size get to the end of the file, which no
    read changes;
  * `Ofstream`: a write goes to the buffer of the stream, from where it reaches the
    file when the library sees fit, at the latest when the stream is closed;
    `contents`: the file and the buffer together, to which `write` appends.
-/
import SimpleChat.Lib.Text

namespace Lib

/-! ## Reading -/

/-- A file opened for reading.  `ioError` is the offset from which on the system
    fails to read it, if there is one. -/
structure Ifstream where
  data : Str
  ioError : Option ℕ
  pos : ℕ
  eof : Bool
  fail : Bool
  bad : Bool
  pos_le : pos ≤ data.length
  eof_pos : eof = true → pos = data.length

namespace Ifstream

/-- `fstream(filename, in | binary)` -/
def opened (data : Str) (ioError : Option ℕ) : Ifstream where
  data := data
  ioError := ioError
  pos := 0
  eof := false
  fail := false
  bad := false
  pos_le := Nat.zero_le _
  eof_pos := fun h => by cases h

def good (s : Ifstream) : Bool := !(s.eof || s.fail || s.bad)

/-- What is still to be read. -/
def rest (s : Ifstream) : Str := s.data.drop s.pos

theorem rest_length (s : Ifstream) : s.rest.length = s.data.length - s.pos := by
  simp [rest]

/-- `read(buf, n)`: the stream afterwards, and the `gcount()` bytes stored. -/
def read (s : Ifstream) (n : ℕ) : Ifstream × Str :=
  if s.good then
    if s.ioError.any (· < s.pos + n) then ({ s with bad := true }, [])
    else
      ({ s with
          pos := s.pos + (s.rest.take n).length
          eof := decide (s.rest.length < n)
          fail := decide (s.rest.length < n)
          pos_le := by
            have := s.pos_le
            simp only [List.length_take, rest_length]; omega
          eof_pos := fun h => by
            have := s.pos_le
            simp only [List.length_take, rest_length, decide_eq_true_eq] at h ⊢; omega },
        s.rest.take n)
  else ({ s with fail := true }, [])

section
variable (s : Ifstream) (n : ℕ)

@[simp] theorem read_data : (s.read n).1.data = s.data := by
  unfold read; split_ifs <;> rfl

@[simp] theorem read_ioError : (s.read n).1.ioError = s.ioError := by
  unfold read; split_ifs <;> rfl

theorem read_length : (s.read n).2.length ≤ n := by
  unfold read; split_ifs <;> simp

theorem read_pos : (s.read n).1.pos = s.pos + (s.read n).2.length := by
  unfold read; split_ifs <;> simp

/-- **A read moves bytes from the rest to what has been read.** -/
theorem read_take : (s.read n).1.data.take (s.read n).1.pos =
    s.data.take s.pos ++ (s.read n).2 := by
  unfold read
  split_ifs
  · simp
  · have hk : s.rest.take n = s.rest.take (s.rest.take n).length := by
      rw [List.take_eq_take_iff]; simp
    calc s.data.take (s.pos + (s.rest.take n).length)
        = s.data.take s.pos ++ s.rest.take (s.rest.take n).length := List.take_add
      _ = s.data.take s.pos ++ s.rest.take n := by rw [← hk]
  · simp

end

/-- A read without an I/O error sets the end-of-file bit if it gets to the end. -/
theorem read_good {s : Ifstream} {n : ℕ} (hg : s.good = true) (hio : s.ioError = none) :
    (s.read n).2 = s.rest.take n ∧ (s.read n).1.eof = decide (s.rest.length < n) ∧
      ((s.read n).1.eof = false → (s.read n).1.good = true) := by
  unfold read
  simp only [hg, hio, if_true, Option.any_none, Bool.false_eq_true, if_false, true_and]
  intro h
  simp only [good, Bool.not_eq_true', Bool.or_eq_false_iff] at hg ⊢
  exact ⟨⟨h, h⟩, hg.2⟩

/-! ### Reading to the end -/

/-- Reads of `n` bytes get to the end of the file: none of them meets an error. -/
def ReadsToEnd (s : Ifstream) (n : ℕ) : Prop :=
  s.eof = true ∨ (s.good = true ∧ ∀ e ∈ s.ioError, s.pos + (s.rest.length / n + 1) * n ≤ e)

section
variable {s : Ifstream} {n : ℕ}

theorem readsToEnd_opened {data : Str} {ioError : Option ℕ} :
    (opened data ioError).ReadsToEnd n ↔ ∀ e ∈ ioError, (data.length / n + 1) * n ≤ e := by
  constructor
  · rintro (h | ⟨-, h⟩) e he
    · cases h
    · exact (Nat.le_add_left _ _).trans (h e he)
  · intro h
    exact Or.inr ⟨rfl, fun e he => (Nat.zero_add _).le.trans (h e he)⟩

/-- The three ways in which a read of a good stream ends. -/
theorem read_cases (n : ℕ) (hg : s.good = true) :
    ((∃ e ∈ s.ioError, e < s.pos + n) ∧ (s.read n).1.eof = false ∧ (s.read n).1.good = false) ∨
    ((∀ e ∈ s.ioError, s.pos + n ≤ e) ∧ s.rest.length < n ∧ (s.read n).1.eof = true) ∨
    ((∀ e ∈ s.ioError, s.pos + n ≤ e) ∧ n ≤ s.rest.length ∧ (s.read n).1.eof = false ∧
      (s.read n).1.good = true ∧ (s.read n).1.pos = s.pos + n) := by
  have hbits := hg
  simp only [good, Bool.not_eq_true', Bool.or_eq_false_iff] at hbits
  unfold read
  rw [if_pos hg]
  split_ifs with hio
  · left
    simp only [Option.any_eq_true, decide_eq_true_eq] at hio
    obtain ⟨e, he, hlt⟩ := hio
    exact ⟨⟨e, he, hlt⟩, hbits.1.1, by simp [good]⟩
  · right
    have hpast : ∀ e ∈ s.ioError, s.pos + n ≤ e := by
      intro e he
      by_contra hlt
      exact hio ((Option.any_eq_true _ _).2 ⟨e, he, decide_eq_true (Nat.not_le.1 hlt)⟩)
    rcases Nat.lt_or_ge s.rest.length n with hshort | hfull
    · exact Or.inl ⟨hpast, hshort, decide_eq_true hshort⟩
    · refine Or.inr ⟨hpast, hfull, decide_eq_false (by omega), ?_, ?_⟩
      · simp [good, hbits.2, hfull]
      · simp [List.length_take, Nat.min_eq_left hfull]

/-- **Whether the reads get to the end is not changed by a read.** -/
theorem readsToEnd_read (hn : 0 < n) (he : s.eof = false) :
    (s.read n).1.ReadsToEnd n ↔ s.ReadsToEnd n := by
  by_cases hg : s.good = true
  · have hpos := s.pos_le
    rcases read_cases n hg with ⟨⟨e, hmem, hlt⟩, heof, hbad⟩ | ⟨hpast, hshort, heof⟩ |
      ⟨hpast, hfull, heof, hgood, hnext⟩
    · constructor
      · rintro (h | ⟨h, -⟩)
        · rw [heof] at h; cases h
        · rw [hbad] at h; cases h
      · rintro (h | ⟨-, h⟩)
        · rw [he] at h; cases h
        · have hle := h e hmem
          rw [Nat.add_mul, Nat.one_mul] at hle
          omega
    · refine iff_of_true (Or.inl heof) (Or.inr ⟨hg, fun e hmem => ?_⟩)
      rw [Nat.div_eq_of_lt hshort, Nat.zero_add, Nat.one_mul]
      exact hpast e hmem
    · -- a whole chunk: one read less is needed, from one chunk further on
      have hrest : (s.read n).1.rest.length / n + 1 = s.rest.length / n := by
        have hsub : (s.read n).1.rest.length = s.rest.length - n := by
          rw [rest_length, rest_length, read_data, hnext]; omega
        rw [hsub, Nat.div_eq_sub_div hn hfull]
      have hreach : (s.read n).1.pos + ((s.read n).1.rest.length / n + 1) * n =
          s.pos + (s.rest.length / n + 1) * n := by
        rw [hrest, hnext, Nat.add_mul _ 1, Nat.one_mul]; omega
      simp only [ReadsToEnd, heof, he, hgood, hg, read_ioError, hreach]
  · -- the failure is sticky
    have hread : (s.read n).1 = { s with fail := true } := by
      rw [read, if_neg hg]
    have hbad : (s.read n).1.good = false := by rw [hread]; simp [good]
    have heof : (s.read n).1.eof = false := by rw [hread]; exact he
    simp [ReadsToEnd, heof, he, hbad, hg]

/-- A read that does not get to the end leaves a whole chunk less. -/
theorem rest_read_lt (hn : 0 < n) (h : s.ReadsToEnd n) (he : s.eof = false)
    (he' : (s.read n).1.eof = false) : (s.read n).1.rest.length / n < s.rest.length / n := by
  have hg : s.good = true := by
    rcases h with h | h
    · rw [he] at h; cases h
    · exact h.1
  have hread := (readsToEnd_read hn he).2 h
  rcases read_cases n hg with ⟨-, -, hbad⟩ | ⟨-, -, heof⟩ | ⟨-, hfull, -, -, hnext⟩
  · rcases hread with h | ⟨h, -⟩
    · rw [he'] at h; cases h
    · rw [hbad] at h; cases h
  · rw [he'] at heof; cases heof
  · have hpos := s.pos_le
    have hsub : (s.read n).1.rest.length = s.rest.length - n := by
      rw [rest_length, rest_length, read_data, hnext]; omega
    rw [hsub, Nat.div_eq_sub_div hn hfull]
    exact Nat.lt_succ_self _

end

end Ifstream

/-! ## Writing -/

/-- Write `b` at offset `pos` of a file with contents `old`: a gap before it is
    filled with zeros, and a write of no bytes changes nothing. -/
def writeAt (old : Str) (pos : ℕ) (b : Str) : Str :=
  if b = [] then old
  else old.take pos ++ List.replicate (pos - old.length) 0 ++ b ++ old.drop (pos + b.length)

theorem writeAt_end (old b : Str) : writeAt old old.length b = old ++ b := by
  unfold writeAt
  split_ifs with hb
  · rw [hb, List.append_nil]
  · simp

/-- A file opened for writing: `pend` is what has been written to the stream and is
    still in its buffer; it belongs to offset `pos` of the file. -/
structure Ofstream where
  file : Str
  pos : ℕ
  pend : Str
  bad : Bool
  deriving DecidableEq, Repr

/-- What becomes of a write: whether it succeeds, and how many of the bytes in hand,
    the buffered ones first, reach the file meanwhile. -/
structure WriteAnswer where
  ok : Bool
  out : ℕ
  deriving DecidableEq, Repr

namespace Ofstream

/-- `fstream(filename, out | binary)`; the file it opens is emptied. -/
def opened (file : Str) : Ofstream := ⟨file, 0, [], false⟩

/-- The files after the first `n` bytes of `b` have reached the file. -/
def put (s : Ofstream) (disk : Str → Str) (b : Str) (n : ℕ) : Str → Str :=
  Function.update disk s.file (writeAt (disk s.file) s.pos (b.take n))

/-- `write(b)`: the stream and the files afterwards.  A write that fails leaves the
    buffer as it is, and no other one is tried. -/
def write (s : Ofstream) (disk : Str → Str) (b : Str) (a : WriteAnswer) : Ofstream × (Str → Str) :=
  if s.bad then (s, disk)
  else
    ({ s with
        pos := s.pos + ((s.pend ++ b).take a.out).length
        pend := if a.ok then (s.pend ++ b).drop a.out else s.pend
        bad := !a.ok },
      s.put disk (s.pend ++ b) a.out)

def good (s : Ofstream) : Bool := !s.bad

/-- `close()`: the files after it has flushed the first `n` bytes of the buffer.
    The stream is gone, and nobody asks whether all of them were flushed. -/
def close (s : Ofstream) (disk : Str → Str) (n : ℕ) : Str → Str := s.put disk s.pend n

theorem put_of_ne (s : Ofstream) (disk : Str → Str) (b : Str) (n : ℕ) {f : Str} (h : f ≠ s.file) :
    s.put disk b n f = disk f := Function.update_of_ne h _ _

/-- Nothing has been written to a stream that has just been opened. -/
@[simp] theorem close_opened (file : Str) (disk : Str → Str) (n : ℕ) :
    (opened file).close disk n = disk := by
  simp [close, put, opened, writeAt]

theorem close_of_ne (s : Ofstream) (disk : Str → Str) (n : ℕ) {f : Str} (h : f ≠ s.file) :
    s.close disk n f = disk f := s.put_of_ne disk _ n h

@[simp] theorem write_file (s : Ofstream) (disk : Str → Str) (b : Str) (a : WriteAnswer) :
    (s.write disk b a).1.file = s.file := by
  unfold write; split_ifs <;> rfl

theorem write_of_ne (s : Ofstream) (disk : Str → Str) (b : Str) (a : WriteAnswer) {f : Str}
    (h : f ≠ s.file) : (s.write disk b a).2 f = disk f := by
  unfold write
  by_cases hb : s.bad = true
  · rw [if_pos hb]
  · rw [if_neg hb]
    exact s.put_of_ne disk _ _ h

theorem write_good (s : Ofstream) (disk : Str → Str) (b : Str) (a : WriteAnswer) :
    (s.write disk b a).1.good = (s.good && a.ok) := by
  unfold write good
  cases h : s.bad <;> simp [h]

/-! ### What has been written -/

/-- What the file is to hold: its contents, followed by what is in the buffer. -/
def contents (s : Ofstream) (disk : Str → Str) : Str := disk s.file ++ s.pend

/-- The stream is good, and what is in its buffer belongs to the end of the file. -/
structure AtEnd (s : Ofstream) (disk : Str → Str) : Prop where
  pos_eq : s.pos = (disk s.file).length
  bad_eq : s.bad = false

section
variable {s : Ofstream} {disk disk' : Str → Str}

theorem atEnd_opened (file : Str) : (opened file).AtEnd (Function.update disk file []) :=
  ⟨by simp [opened], rfl⟩

theorem contents_opened (file : Str) : (opened file).contents (Function.update disk file []) = [] := by
  simp [opened, contents]

theorem AtEnd.congr (h : s.AtEnd disk) (hd : disk' s.file = disk s.file) :
    s.AtEnd disk' ∧ s.contents disk' = s.contents disk :=
  ⟨⟨by rw [hd]; exact h.pos_eq, h.bad_eq⟩, by unfold contents; rw [hd]⟩

theorem AtEnd.put (h : s.AtEnd disk) (b : Str) (n : ℕ) :
    s.put disk b n s.file = disk s.file ++ b.take n := by
  rw [Ofstream.put, Function.update_self, h.pos_eq, writeAt_end]

/-- **A write that succeeds appends to the contents**, however many bytes stay in the
    buffer. -/
theorem AtEnd.write (h : s.AtEnd disk) (b : Str) {a : WriteAnswer} (ha : a.ok = true) :
    (s.write disk b a).1.AtEnd (s.write disk b a).2 ∧
      (s.write disk b a).1.contents (s.write disk b a).2 = s.contents disk ++ b := by
  have hput := h.put (s.pend ++ b) a.out
  unfold Ofstream.write
  rw [if_neg (by simp [h.bad_eq]), if_pos ha]
  refine ⟨⟨?_, by simp [ha]⟩, ?_⟩
  · simp only [hput, List.length_append, h.pos_eq]
  · simp only [contents, hput, List.append_assoc, List.take_append_drop]

/-- **Closing leaves the contents in the file**, if the flush is carried out. -/
theorem AtEnd.close (h : s.AtEnd disk) {n : ℕ} (hn : s.pend.length ≤ n) :
    s.close disk n s.file = s.contents disk := by
  rw [Ofstream.close, h.put, List.take_of_length_le hn, contents]

end

end Ofstream

end Lib
