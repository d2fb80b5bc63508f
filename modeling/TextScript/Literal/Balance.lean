/-
TextScript/Literal/Balance.lean

Where a text literal ends. A literal may hold interpolations `#{ … }`, the code of an
interpolation may hold braces and further literals, and so on to any depth. The scanner reads the
characters once, from the left, with a stack of what is open: a literal, or code with a number of
open braces. It stops at the quote or brace that closes the outermost one.

A depth limit of 0 means none; otherwise opening an interpolation at a greater depth stops the
scan. Depths are integers, or words for a caller who counts in these; the scan is the same.
-/
namespace TextScript

/-- Something open that the scanner is inside of. -/
inductive Enclosure where
  /-- A literal, up to its closing quote. -/
  | text
  /-- Code, up to the brace that closes all of its open braces; `inner` counts those besides
  the first. -/
  | code (inner : Nat)
deriving DecidableEq, Repr

/-- Why a scan did not reach its end. -/
inductive Unbalanced where
  | unterminatedText
  | unterminatedInterpolation
  | tooDeep
deriving DecidableEq, Repr

/-- How a scan ended: the number of characters before the closing one, or before the point where the
scan gave up. -/
inductive Scan where
  | closed (count : Nat)
  | stopped (count : Nat) (why : Unbalanced)
deriving DecidableEq, Repr

namespace Scan

/-- The same scan with `n` more characters in front. -/
def shift (n : Nat) : Scan → Scan
  | closed k => closed (k + n)
  | stopped k why => stopped (k + n) why

/-- The number of characters passed. -/
def count : Scan → Nat
  | closed k => k
  | stopped k _ => k

/-- What is said of the ways to end a scan, in the order of their numbers. -/
def outcomes : List String :=
  ["ok", "unterminated text", "unterminated interpolation", "nesting too deep"]

/-- What is said of the outcome numbered `n`. -/
def outcomeOfNumber (n : Int) : String :=
  match n with
  | .ofNat k => outcomes.getD k "unknown"
  | .negSucc _ => "unknown"

/-- What is said of a scan. -/
def outcome : Scan → String
  | closed _ => outcomeOfNumber 0
  | stopped _ .unterminatedText => outcomeOfNumber 1
  | stopped _ .unterminatedInterpolation => outcomeOfNumber 2
  | stopped _ .tooDeep => outcomeOfNumber 3

end Scan

namespace Balance

/-- What is missing when the characters run out with something still open. Only a literal that is
open alone is an unterminated literal. -/
def missing : List Enclosure → Unbalanced
  | [.text] => .unterminatedText
  | _ => .unterminatedInterpolation

section

variable {δ : Type} [Add δ] [Sub δ] [LT δ] [DecidableLT δ] [OfNat δ 0] [OfNat δ 1]

/-- Reads on with the enclosures in `stack`, the innermost first. `depth` is the number of
interpolations around the current place, and `limit` the greatest one allowed, if positive. -/
def scan (limit : δ) : (depth : δ) → (stack : List Enclosure) → List Char → Scan
  | _, stack, [] => .stopped 0 (missing stack)
  | _, [], _ :: _ => .closed 0
  | depth, .text :: outer, c :: cs =>
    if c = '\\' then
      match cs with
      | [] => .stopped 1 (missing (.text :: outer))
      | _ :: cs => (scan limit depth (.text :: outer) cs).shift 2
    else if c = '"' then
      match outer with
      | [] => .closed 0
      | _ => (scan limit depth outer cs).shift 1
    else if c = '#' then
      match cs with
      | '{' :: cs =>
        if 0 < limit ∧ limit < depth + 1 then .stopped 0 .tooDeep
        else (scan limit (depth + 1) (.code 0 :: .text :: outer) cs).shift 2
      | cs => (scan limit depth (.text :: outer) cs).shift 1
    else (scan limit depth (.text :: outer) cs).shift 1
  | depth, .code inner :: outer, c :: cs =>
    if c = '"' then (scan limit depth (.text :: .code inner :: outer) cs).shift 1
    else if c = '{' then (scan limit depth (.code (inner + 1) :: outer) cs).shift 1
    else if c = '}' then
      match inner, outer with
      | 0, [] => .closed 0
      | 0, outer => (scan limit (depth - 1) outer cs).shift 1
      | inner + 1, outer => (scan limit depth (.code inner :: outer) cs).shift 1
    else (scan limit depth (.code inner :: outer) cs).shift 1

end

/-- Scans the body of a literal, from after its opening quote. -/
def text (depth limit : Int) (cs : List Char) : Scan :=
  scan limit depth [.text] cs

/-- Scans the code of an interpolation, from after its opening brace; `depth` counts this
interpolation. -/
def code (depth limit : Int) (cs : List Char) : Scan :=
  scan limit depth [.code 0] cs

/-! ### Depths as words -/

/-- Scans the body of a literal, with a depth and a limit that are words. -/
def textAt (depth limit : Int64) (cs : List Char) : Scan :=
  scan limit depth [.text] cs

/-- Scans the code of an interpolation, with a depth and a limit that are words. -/
def codeAt (depth limit : Int64) (cs : List Char) : Scan :=
  scan limit depth [.code 0] cs

end Balance

end TextScript
