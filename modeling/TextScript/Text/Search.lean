/-
TextScript/Text/Search.lean

Occurrences of one text in another, taken leftmost first and without overlap: replacing the first or
every occurrence, and splitting around a separator.

`breakAt` finds the leftmost occurrence and returns what stands before and after it. What follows a
non-empty occurrence is shorter than the whole, so the loops below end.
-/
import TextScript.Text.Basic

namespace TextScript.Text

/-- What stands before and after the leftmost occurrence of `sub`, if there is one. -/
def breakAt (sub : List Int) : List Int → Option (List Int × List Int)
  | [] => if sub.isEmpty then some ([], []) else none
  | c :: cs =>
    if sub.isPrefixOf (c :: cs) then some ([], (c :: cs).drop sub.length)
    else (breakAt sub cs).map fun (pre, post) => (c :: pre, post)

/-- What follows a non-empty occurrence is shorter than the whole. -/
theorem breakAt_lt {sub cs pre post : List Int} (h : sub ≠ [])
    (hb : breakAt sub cs = some (pre, post)) : post.length < cs.length := by
  induction cs generalizing pre post with
  | nil => simp [breakAt, h] at hb
  | cons c cs ih =>
    unfold breakAt at hb
    split at hb
    · have hs : 0 < sub.length := List.length_pos_iff.2 h
      simp only [Option.some.injEq, Prod.mk.injEq] at hb
      rw [← hb.2, List.length_drop]
      simp only [List.length_cons]
      omega
    · obtain ⟨⟨p, q⟩, hq, he⟩ := Option.map_eq_some_iff.1 hb
      simp only [Prod.mk.injEq] at he
      have := ih hq
      rw [← he.2]
      simp only [List.length_cons]
      omega

/-- The pieces between the occurrences of a separator, empty ones included. A separator without code
points separates nothing. -/
def piecesAround (sep cs : List Int) : List (List Int) :=
  if _h : sep = [] then [cs]
  else
    match _hb : breakAt sep cs with
    | none => [cs]
    | some (pre, post) => pre :: piecesAround sep post
termination_by cs.length
decreasing_by exact breakAt_lt _h _hb

/-- The pieces between the occurrences of `sep` that hold something. -/
def splitAround (t sep : Text) : List Text :=
  ((piecesAround sep.points t.points).filter (!·.isEmpty)).map Text.mk

/-- Puts `new` in place of the first occurrence of `old`. -/
def replace (t old new : Text) : Text :=
  if old.isEmpty then t
  else
    match breakAt old.points t.points with
    | none => t
    | some (pre, post) => ⟨pre ++ new.points ++ post⟩

/-- Puts `new` in place of every occurrence of `old`. -/
def replacePoints (old new cs : List Int) : List Int :=
  if _h : old = [] then cs
  else
    match _hb : breakAt old cs with
    | none => cs
    | some (pre, post) => pre ++ new ++ replacePoints old new post
termination_by cs.length
decreasing_by exact breakAt_lt _h _hb

/-- Puts `new` in place of every occurrence of `old`. -/
def replaceAll (t old new : Text) : Text :=
  ⟨replacePoints old.points new.points t.points⟩

end TextScript.Text
