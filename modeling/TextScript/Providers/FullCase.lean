/-
TextScript/Providers/FullCase.lean

One casing that an embedding program may bring: full, locale-neutral case mapping. Upper-casing
works character by character. Lower-casing follows words: a capital sigma inside a word becomes
the final form unless a cased character follows it, looking past at most thirty-one case-ignorable
characters.

Lower-casing runs over the text in stretches. A stretch takes up at most 128 bytes of the text and
writes at most what there is room for, and it begins outside of any word, so the first sigma of a
stretch is never a final one. A sigma whose form hangs on what lies beyond the stretch is left to
the next. As long as nothing changes, each stretch has a buffer of its own; from the first change
on, all write into one buffer, which grows when it is full.
-/
import TextScript.Text.Case
import TextScript.Unicode.Cased

namespace TextScript.FullCase

open Unicode

/-! ### One step -/

/-- How many case-ignorable characters may stand between a sigma and the character that decides
its form. -/
def sigmaReach : Nat := 31

/-- The number of bytes that characters take. -/
def byteCount (cs : List Char) : Nat :=
  cs.foldl (fun n c => n + c.utf8Size) 0

/-- Why a stretch ends before the text does. -/
inductive Pause where
  /-- What comes next lies beyond the stretch. -/
  | bounds
  /-- There is no room to write more. -/
  | room
deriving DecidableEq

/-- The form of a sigma inside a word, with the number of case-ignorable characters passed to find
it. There are `left` bytes left of the stretch, and room for `room` more. -/
def sigmaForm : (reach left room : Nat) → List Char → Except Pause (Char × Nat)
  | _, _, _, [] => .ok ('ς', 0)
  | 0, _, _, _ => .ok ('ς', 0)
  | reach + 1, left, room, c :: cs =>
    if left < c.utf8Size then .error .bounds
    else if !isCaseIgnorable c then .ok (if isCased c then 'σ' else 'ς', 0)
    else if room < c.utf8Size then .error .room
    else
      (sigmaForm reach (left - c.utf8Size) (room - c.utf8Size) cs).map fun (form, n) =>
        (form, n + 1)

/-- What a step of lower-casing did. -/
structure LowerStep where
  /-- How many characters were taken up besides the first. -/
  more : Nat
  written : List Char
  /-- Whether a word is open: a cased character came before, with only cased and case-ignorable ones
  since. -/
  inWord : Bool

/-- Lower-cases the character `c`, and those after it that the form of a sigma hangs on. -/
def lowerStep (inWord : Bool) (left room : Nat) (c : Char) (cs : List Char) :
    Except Pause LowerStep :=
  if left < c.utf8Size then .error .bounds
  else if inWord && c == 'Σ' then
    if room < c.utf8Size then .error .room
    else
      (sigmaForm sigmaReach (left - c.utf8Size) (room - c.utf8Size) cs).map fun (form, n) =>
        ⟨n, form :: cs.take n, true⟩
  else
    let inWord := isCased c || (inWord && isCaseIgnorable c)
    let written := if inWord then lowerFull c else [c]
    if room < byteCount written then .error .room else .ok ⟨0, written, inWord⟩

/-! ### Stretches -/

/-- How many bytes of the text a stretch takes up at most, and how large a buffer is at first. -/
def stretchSize : Nat := 128

/-- What a stretch did. -/
structure Stretch where
  /-- How many characters were taken up. -/
  taken : Nat
  written : List Char
  /-- Whether the stretch ended for want of room. -/
  full : Bool

/-- Lower-cases from the left while the stretch and the room last. -/
def stretch (inWord : Bool) (left room : Nat) : List Char → Stretch
  | [] => ⟨0, [], false⟩
  | c :: cs =>
    match lowerStep inWord left room c cs with
    | .error why => ⟨0, [], why = .room⟩
    | .ok s =>
      let next := stretch s.inWord (left - byteCount (c :: cs.take s.more))
        (room - byteCount s.written) (cs.drop s.more)
      ⟨s.more + 1 + next.taken, s.written ++ next.written, next.full⟩
termination_by cs => cs.length
decreasing_by
  simp only [List.length_drop, List.length_cons]
  omega

/-- The next size of a buffer that is full. -/
def grown (capacity : Nat) : Nat :=
  if capacity ≤ 256 then capacity * 2 else capacity + capacity / 2

/-- Lower-cases onto a buffer of which `used` bytes are written. -/
def lowerOnto (capacity used : Nat) (cs : List Char) : List Char :=
  let s := stretch false stretchSize (capacity - used) cs
  if cs.length = 0 then []
  else if s.taken = 0 then
    let s := stretch false stretchSize (grown capacity - used) cs
    -- A buffer that has grown has room for any one character.
    if s.taken = 0 then cs
    else s.written ++ lowerOnto (grown capacity) (used + byteCount s.written) (cs.drop s.taken)
  else s.written ++ lowerOnto capacity (used + byteCount s.written) (cs.drop s.taken)
termination_by cs.length
decreasing_by
  all_goals
    simp +zetaDelta only [List.length_drop] at *
    omega

/-- Lower-cases a text of `total` bytes, of which `same` came before and did not change. -/
def lowerAfter (total same : Nat) (cs : List Char) : List Char :=
  let s := stretch false stretchSize stretchSize cs
  if cs.length = 0 then []
  else if s.taken = 0 then cs
  else
    let source := cs.take s.taken
    let used := same + byteCount s.written
    if s.written = source && !s.full then s.written ++ lowerAfter total used (cs.drop s.taken)
    else
      let capacity :=
        if used ≤ stretchSize then stretchSize
        else total + byteCount s.written - byteCount source
      s.written ++ lowerOnto capacity used (cs.drop s.taken)
termination_by cs.length
decreasing_by
  simp +zetaDelta only [List.length_drop] at *
  omega

/-! ### The casing -/

/-- The casing that maps all of Unicode, some characters to several. -/
def casing : Casing where
  lower s := String.ofList (lowerAfter (byteCount s.toList) 0 s.toList)
  upper s := String.ofList (s.toList.flatMap upperFull)

end TextScript.FullCase
