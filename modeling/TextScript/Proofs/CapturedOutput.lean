/-
TextScript/Proofs/CapturedOutput.lean

How captured output was cut into writes cannot be told from it.

What a capture holds is split in two: the lines that are complete, and the bytes behind the last
line end.  `LinesOf bytes lines rest` says when such a split is one of `bytes`, without saying how
it is found, and there is only one (`LinesOf.unique`).  A write cuts the open line together with
the new bytes, so the split stays one of all that was written (`LinesOf.write`), wherever the
stream was cut: next to a line end, inside of an empty line, or nowhere at all.
-/
import TextScript.Log.Captured

namespace TextScript.Log.Captured

variable {bytes more line rest rest' : List UInt8} {lines lines' : List (List UInt8)} {c : Captured}

/-! ### Lines of bytes -/

/-- `LinesOf bytes lines rest`: the bytes are these lines, each with a line end behind it, and
then `rest`, where the next line is still open. -/
structure LinesOf (bytes : List UInt8) (lines : List (List UInt8)) (rest : List UInt8) : Prop where
  whole : bytes = lines.flatMap (· ++ [lineEnd]) ++ rest
  closed : ∀ line ∈ lines, lineEnd ∉ line
  pending : lineEnd ∉ rest

theorem linesOf_nil : LinesOf [] [] [] :=
  ⟨rfl, List.forall_mem_nil _, List.not_mem_nil⟩

/-- Where no line end is, no line is complete. -/
theorem linesOf_open (h : lineEnd ∉ bytes) : LinesOf bytes [] bytes :=
  ⟨rfl, List.forall_mem_nil _, h⟩

/-- One more line in front of others. -/
theorem LinesOf.cons (h : LinesOf bytes lines rest) (hline : lineEnd ∉ line) :
    LinesOf (line ++ lineEnd :: bytes) (line :: lines) rest := by
  refine ⟨?_, List.forall_mem_cons.mpr ⟨hline, h.closed⟩, h.pending⟩
  rw [h.whole, List.flatMap_cons]
  simp

/-- Bytes behind others go on with the line that is open there. -/
theorem LinesOf.append (h : LinesOf bytes lines rest) (h' : LinesOf (rest ++ more) lines' rest') :
    LinesOf (bytes ++ more) (lines ++ lines') rest' := by
  refine ⟨?_, List.forall_mem_append.mpr ⟨h.closed, h'.closed⟩, h'.pending⟩
  rw [h.whole, List.append_assoc, h'.whole, List.flatMap_append, List.append_assoc]

/-- Two cuts of one list at its first line end are the same. -/
theorem cut_at_line_end {line' : List UInt8} (hline : lineEnd ∉ line) (hline' : lineEnd ∉ line')
    (h : line ++ lineEnd :: bytes = line' ++ lineEnd :: more) : line = line' ∧ bytes = more := by
  induction line generalizing line' with
  | nil =>
    cases line' with
    | nil => exact ⟨rfl, (List.cons.inj h).2⟩
    | cons b line' => exact absurd ((List.cons.inj h).1 ▸ List.mem_cons_self) hline'
  | cons b line ih =>
    cases line' with
    | nil => exact absurd ((List.cons.inj h).1 ▸ List.mem_cons_self) hline
    | cons b' line' =>
      obtain ⟨hb, htail⟩ := List.cons.inj h
      obtain ⟨hsame, hrest⟩ := ih (fun hmem => hline (List.mem_cons_of_mem _ hmem))
        (fun hmem => hline' (List.mem_cons_of_mem _ hmem)) htail
      exact ⟨by rw [hb, hsame], hrest⟩

/-- Bytes have their lines in one way only. -/
theorem LinesOf.unique (h : LinesOf bytes lines rest) (h' : LinesOf bytes lines' rest') :
    lines = lines' ∧ rest = rest' := by
  induction lines generalizing bytes lines' with
  | nil =>
    have hbytes : bytes = rest := h.whole
    cases lines' with
    | nil => exact ⟨rfl, hbytes.symm.trans h'.whole⟩
    | cons line lines' =>
      -- the other split has a line end, these bytes have none
      refine absurd ?_ h.pending
      rw [← hbytes, h'.whole]
      simp
  | cons line lines ih =>
    obtain ⟨hline, hclosed⟩ := List.forall_mem_cons.mp h.closed
    cases lines' with
    | nil =>
      refine absurd ?_ h'.pending
      have hbytes : bytes = rest' := h'.whole
      rw [← hbytes, h.whole]
      simp
    | cons line' lines' =>
      obtain ⟨hline', hclosed'⟩ := List.forall_mem_cons.mp h'.closed
      have hboth : line ++ lineEnd :: (lines.flatMap (· ++ [lineEnd]) ++ rest)
          = line' ++ lineEnd :: (lines'.flatMap (· ++ [lineEnd]) ++ rest') := by
        have hwhole := h.whole.symm.trans h'.whole
        simpa using hwhole
      obtain ⟨hsame, htail⟩ := cut_at_line_end hline hline' hboth
      obtain ⟨hlines, hrest⟩ := ih ⟨rfl, hclosed, h.pending⟩ ⟨htail, hclosed', h'.pending⟩
      exact ⟨by rw [hsame, hlines], hrest⟩

/-! ### Cutting -/

/-- One more byte in front of the first line. -/
theorem LinesOf.byte {b : UInt8} (h : LinesOf bytes (line :: lines) rest) (hb : b ≠ lineEnd) :
    LinesOf (b :: bytes) ((b :: line) :: lines) rest := by
  obtain ⟨hline, hclosed⟩ := List.forall_mem_cons.mp h.closed
  refine ⟨?_, List.forall_mem_cons.mpr ⟨?_, hclosed⟩, h.pending⟩
  · rw [h.whole]
    simp
  · exact List.not_mem_cons_of_ne_of_not_mem hb.symm hline

theorem cut_linesOf (bytes : List UInt8) : LinesOf bytes (cut bytes).1 (cut bytes).2 := by
  induction bytes with
  | nil => exact linesOf_nil
  | cons b bytes ih =>
    obtain ⟨lines, rest, hcut⟩ : ∃ lines rest, cut bytes = (lines, rest) := ⟨_, _, rfl⟩
    rw [hcut] at ih
    rw [cut, hcut]
    by_cases hb : b = lineEnd
    · simp only [if_pos hb]
      rw [hb]
      exact ih.cons List.not_mem_nil
    · simp only [if_neg hb]
      cases lines with
      | nil =>
        -- there is no line end behind the byte either
        have hbytes : bytes = rest := ih.whole
        rw [hbytes]
        exact linesOf_open (List.not_mem_cons_of_ne_of_not_mem (Ne.symm hb) ih.pending)
      | cons line lines => exact ih.byte hb

/-! ### Writes -/

/-- A write keeps the split one of all that was written. -/
theorem LinesOf.write (h : LinesOf bytes c.lines c.pending) (more : List UInt8) :
    LinesOf (bytes ++ more) (c.write more).lines (c.write more).pending :=
  h.append (cut_linesOf (c.pending ++ more))

/-- What is done to a capture. -/
inductive Call where
  | write (bytes : List UInt8)
  | reset

/-- A capture after one more call. -/
def call (c : Captured) : Call → Captured
  | .write bytes => c.write bytes
  | .reset => c.reset

/-- The bytes written since the last reset, after one more call. -/
def grow (bytes : List UInt8) : Call → List UInt8
  | .write more => bytes ++ more
  | .reset => []

/-- A new capture after some calls. -/
def after (calls : List Call) : Captured :=
  calls.foldl call {}

/-- All bytes that the calls have written since the last reset, or from the start. -/
def written (calls : List Call) : List UInt8 :=
  calls.foldl grow []

/-- A call keeps the split one of what was written since the last reset. -/
theorem LinesOf.call (h : LinesOf bytes c.lines c.pending) (next : Call) :
    LinesOf (grow bytes next) (c.call next).lines (c.call next).pending := by
  cases next with
  | write more => exact h.write more
  | reset => exact linesOf_nil

theorem LinesOf.calls (h : LinesOf bytes c.lines c.pending) (calls : List Call) :
    LinesOf (calls.foldl grow bytes) (calls.foldl Captured.call c).lines
      (calls.foldl Captured.call c).pending := by
  induction calls generalizing bytes c with
  | nil => exact h
  | cons next calls ih =>
    rw [List.foldl_cons, List.foldl_cons]
    exact ih (h.call next)

theorem after_linesOf (calls : List Call) :
    LinesOf (written calls) (after calls).lines (after calls).pending :=
  linesOf_nil.calls calls

/-- Captured output is all that was written since the last reset, or from the start, and its lines
are the complete lines of that, which has them in one way only.  So calls that have written the
same bytes, in whatever portions, cannot be told apart. -/
theorem captured_as_written (calls : List Call) :
    (after calls).bytes = written calls ∧
      LinesOf (written calls) (after calls).lines (after calls).pending ∧
      (∀ lines rest, LinesOf (written calls) lines rest → lines = (after calls).lines) ∧
      ∀ others : List Call, written others = written calls →
        (after others).bytes = (after calls).bytes ∧
        (after others).lines = (after calls).lines := by
  have h := after_linesOf calls
  have hbytes : ∀ calls : List Call, (after calls).bytes = written calls :=
    fun calls => (after_linesOf calls).whole.symm
  refine ⟨hbytes calls, h, fun lines rest h' => (h'.unique h).1, fun others hsame => ?_⟩
  have hother := after_linesOf others
  rw [hsame] at hother
  exact ⟨by rw [hbytes, hbytes, hsame], (hother.unique h).1⟩

/-- An empty line that is written in three portions, one of them empty, and at once after a
reset. -/
theorem captured_as_written_portions :
    let portions : List Call := [.write [97, 10], .write [], .write [10, 98]]
    let once : List Call := [.write [99], .reset, .write [97, 10, 10, 98]]
    written once = written portions ∧ (after portions).lines = [[97], []] ∧
      (after once).lines = (after portions).lines := by
  intro portions once
  have hsame : written once = written portions := by decide
  obtain ⟨-, -, -, hothers⟩ := captured_as_written portions
  exact ⟨hsame, by decide, (hothers once hsame).2⟩

end TextScript.Log.Captured
