/-
TextScript/Format/Directive.lean

The directives of a format template. A percent sign begins a directive:

* `%s`, `%10s`, `%-10s` insert the next argument, padded to a width;
* `%[ … %]` repeats its body for each member of the next argument;
* `%*[ … %]` does so with the members of each member as arguments;
* `%:[ … %]` does so with the two halves of each member as arguments.

A body ends at the first `%]`, so blocks do not nest. Anything else is copied as written: a block
without an end up to its bracket, and what looks like an insertion up to the character that spoils
it.
-/
import TextScript.Text.Basic

namespace TextScript

/-- What a block gives to its body as arguments. -/
inductive BlockMode where
  /-- The member itself. -/
  | each
  /-- The members of the member. -/
  | splat
  /-- The two halves of the member. -/
  | pairs
deriving DecidableEq, Repr

/-- One item of a template. -/
inductive Directive where
  /-- Code points copied as written. -/
  | copy (points : List Int)
  /-- The next argument, padded to a width; `left` puts the padding after it. -/
  | insert (spelling : List Int) (digits : List Int) (left : Bool)
  /-- The body, once for each member of the next argument. -/
  | block (mode : BlockMode) (spelling : List Int) (body : List Int)
deriving DecidableEq, Repr

namespace Directive

/-- The code points that have a meaning in templates. -/
def percent : Int := 0x25
/-- The asterisk. -/
def asterisk : Int := 0x2A
/-- The colon. -/
def colon : Int := 0x3A
/-- The opening bracket. -/
def openBracket : Int := 0x5B
/-- The closing bracket. -/
def closeBracket : Int := 0x5D
/-- The minus sign. -/
def minus : Int := 0x2D
/-- The letter that ends an insertion. -/
def letter : Int := 0x73

/-- Whether a code point is a decimal digit. -/
def isDigit (n : Int) : Bool :=
  0x30 ≤ n && n ≤ 0x39

/-- The number of code points before the first `%]`, if there is one. -/
def bodySize? : List Int → Option Nat
  | [] => none
  | c :: cs =>
    if c = percent ∧ cs.head? = some closeBracket then some 0
    else (bodySize? cs).map (· + 1)

/-- The block whose opening is `spelling` and whose body begins in `cs`, with its size. -/
def readBlock (mode : BlockMode) (spelling cs : List Int) : Directive × Nat :=
  match bodySize? cs with
  | none => (.copy spelling, spelling.length)
  | some n => (.block mode spelling (cs.take n), spelling.length + n + 2)

/-- The insertion that begins with `opening`, a percent sign with or without a minus sign, and
goes on in `cs`, with its size. -/
def readInsert (opening : List Int) (left : Bool) (cs : List Int) : Directive × Nat :=
  let digits := cs.takeWhile isDigit
  match cs.drop digits.length with
  | [] => (.copy (opening ++ digits), opening.length + digits.length)
  | c :: _ =>
    let spelling := opening ++ digits ++ [c]
    (if c = letter then .insert spelling digits left else .copy spelling, spelling.length)

/-- The block or the plain text that begins with a percent sign and `mark`. -/
def readMarked (mode : BlockMode) (mark : Int) (cs : List Int) : Directive × Nat :=
  match cs with
  | [] => (.copy [percent, mark], 2)
  | c :: rest =>
    if c = openBracket then readBlock mode [percent, mark, c] rest
    else (.copy [percent, mark, c], 3)

/-- The item at the start of a template that begins with `c` and goes on in `cs`, with its size. -/
def read (c : Int) (cs : List Int) : Directive × Nat :=
  if c ≠ percent then (.copy [c], 1)
  else
    match cs with
    | [] => (.copy [percent], 1)
    | d :: rest =>
      if d = asterisk then readMarked .splat d rest
      else if d = colon then readMarked .pairs d rest
      else if d = openBracket then readBlock .each [percent, d] rest
      else if d = minus then readInsert [percent, d] true rest
      else readInsert [percent] false (d :: rest)

/-! ### Sizes -/

theorem readBlock_size_pos {mode : BlockMode} {spelling cs : List Int} (h : spelling ≠ []) :
    0 < (readBlock mode spelling cs).2 := by
  have : 0 < spelling.length := List.length_pos_iff.2 h
  unfold readBlock
  split <;> simp only <;> omega

theorem readInsert_size_pos {opening cs : List Int} {left : Bool} (h : opening ≠ []) :
    0 < (readInsert opening left cs).2 := by
  have : 0 < opening.length := List.length_pos_iff.2 h
  unfold readInsert
  simp only
  split
  · simp only; omega
  · simp only [List.length_append]; omega

theorem readMarked_size_pos {mode : BlockMode} {mark : Int} {cs : List Int} :
    0 < (readMarked mode mark cs).2 := by
  unfold readMarked
  split
  · simp
  · split
    · exact readBlock_size_pos (by simp)
    · simp

/-- Every item has at least one code point. -/
theorem read_size_pos (c : Int) (cs : List Int) : 0 < (read c cs).2 := by
  unfold read
  split
  · simp
  · split
    · simp
    · repeat' split
      · exact readMarked_size_pos
      · exact readMarked_size_pos
      · exact readBlock_size_pos (by simp)
      · exact readInsert_size_pos (by simp)
      · exact readInsert_size_pos (by simp)

theorem readBlock_body {mode m : BlockMode} {spelling cs s body : List Int}
    (h : (readBlock mode spelling cs).1 = .block m s body) : body.length ≤ cs.length := by
  unfold readBlock at h
  split at h
  · simp at h
  · simp only [block.injEq] at h
    rw [← h.2.2, List.length_take]
    exact Nat.min_le_right _ _

theorem readInsert_ne_block {opening cs s body : List Int} {left : Bool} {m : BlockMode} :
    (readInsert opening left cs).1 ≠ .block m s body := by
  unfold readInsert
  simp only
  split
  · simp
  · split <;> simp

theorem readMarked_body {mode m : BlockMode} {mark : Int} {cs s body : List Int}
    (h : (readMarked mode mark cs).1 = .block m s body) : body.length ≤ cs.length := by
  unfold readMarked at h
  split at h
  · simp at h
  · split at h
    · have := readBlock_body h
      simp only [List.length_cons]
      omega
    · simp at h

/-- The body of a block is shorter than the template it stands in. -/
theorem read_body_lt {c : Int} {cs : List Int} {m : BlockMode} {s body : List Int}
    (h : (read c cs).1 = .block m s body) : body.length < (c :: cs).length := by
  unfold read at h
  split at h
  · simp at h
  · split at h
    · simp at h
    · simp only [List.length_cons]
      repeat' split at h
      · have := readMarked_body h; omega
      · have := readMarked_body h; omega
      · have := readBlock_body h; omega
      · exact absurd h readInsert_ne_block
      · exact absurd h readInsert_ne_block

end Directive

end TextScript
