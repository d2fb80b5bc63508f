/-
TextScript/Proofs/EditDistance.lean

The edit-distance table finds the least number of edits.

Three descriptions of one number.  `Edits` counts the edits of a script, wherever in the string
each of them is made.  `editDistance` is the recursion that takes off one byte at a time from the
front.  `distance` fills a table row by row, so its entries belong to what was read so far, which
is the same recursion on the strings read backwards (`distance_eq`).

An edit moves the recursion by at most one from any third string (`Edit.editDistance_le`), so no
script is shorter than it; and the recursion itself says which edits to make
(`edits_editDistance`).
-/
import Mathlib.Order.Bounds.Defs
import TextScript.Failure.Suggestion

namespace TextScript.Suggestion

variable {as bs : List UInt8} {n : Nat}

/-- A single byte put in, taken out or put in place of another. -/
inductive Edit : List UInt8 → List UInt8 → Prop
  | insert (pre : List UInt8) (b : UInt8) (post : List UInt8) :
      Edit (pre ++ post) (pre ++ b :: post)
  | delete (pre : List UInt8) (a : UInt8) (post : List UInt8) :
      Edit (pre ++ a :: post) (pre ++ post)
  | substitute (pre : List UInt8) (a b : UInt8) (post : List UInt8) :
      Edit (pre ++ a :: post) (pre ++ b :: post)

/-- A number of edits one after another. -/
inductive Edits : Nat → List UInt8 → List UInt8 → Prop
  | done (as : List UInt8) : Edits 0 as as
  | step {n : Nat} {as bs cs : List UInt8} (first : Edit as bs) (rest : Edits n bs cs) :
      Edits (n + 1) as cs

/-- The least number of edits, by what may become of the first bytes. -/
def editDistance : List UInt8 → List UInt8 → Nat
  | [], bs => bs.length
  | a :: as, [] => (a :: as).length
  | a :: as, b :: bs =>
    min (min (editDistance as (b :: bs) + 1) (editDistance (a :: as) bs + 1))
      (editDistance as bs + if a = b then 0 else 1)
termination_by as bs => as.length + bs.length

/-! ### The table -/

@[simp] theorem editDistance_nil_left (bs : List UInt8) : editDistance [] bs = bs.length := by
  rw [editDistance]

@[simp] theorem editDistance_nil_right (as : List UInt8) : editDistance as [] = as.length := by
  cases as with
  | nil => rw [editDistance]
  | cons a as => rw [editDistance]

/-- Both begin with a byte: one of them is deleted or inserted, or the first is put in the place
of the other. -/
theorem editDistance_cons (a b : UInt8) (as bs : List UInt8) :
    editDistance (a :: as) (b :: bs) =
      min (min (editDistance as (b :: bs) + 1) (editDistance (a :: as) bs + 1))
        (editDistance as bs + if a = b then 0 else 1) := by
  rw [editDistance]

/-- The row below `ra` from the column after `rb` on, both what was read so far, the last byte
first. -/
def rowOf (ra : List UInt8) : (rb : List UInt8) → List UInt8 → List Nat
  | _, [] => []
  | rb, b :: bs => editDistance ra (b :: rb) :: rowOf ra (b :: rb) bs

/-- One row of the table: from the distances of a beginning come those of the beginning with one
more byte. -/
theorem nextRow_rowOf (a : UInt8) (ra rb bs : List UInt8) :
    nextRow a (editDistance ra rb) (editDistance (a :: ra) rb) bs (rowOf ra rb bs) =
      rowOf (a :: ra) rb bs := by
  induction bs generalizing rb with
  | nil => rfl
  | cons b bs ih =>
    rw [rowOf, rowOf, nextRow, ← editDistance_cons]
    exact congrArg (_ :: ·) (ih (b :: rb))

/-- All rows of the table, one byte of the first string after another. -/
theorem rows_rowOf (ra as bs : List UInt8) :
    rows bs as (editDistance ra [] :: rowOf ra [] bs) =
      editDistance (as.reverseAux ra) [] :: rowOf (as.reverseAux ra) [] bs := by
  induction as generalizing ra with
  | nil => rfl
  | cons a as ih =>
    have hfirst : editDistance ra [] + 1 = editDistance (a :: ra) [] := by
      rw [editDistance_nil_right, editDistance_nil_right, List.length_cons]
    rw [rows, hfirst, nextRow_rowOf, ih, List.reverseAux]

/-- The row that the table begins with counts insertions. -/
theorem rowOf_nil (rb bs : List UInt8) :
    rowOf [] rb bs = List.range' (rb.length + 1) bs.length := by
  induction bs generalizing rb with
  | nil => rfl
  | cons b bs ih =>
    rw [rowOf, ih, editDistance_nil_left, List.length_cons, List.length_cons, List.range'_succ]

/-- The last entry of a row is the distance from all of the second string. -/
theorem getLastD_rowOf (ra rb bs : List UInt8) :
    (rowOf ra rb bs).getLastD (editDistance ra rb) = editDistance ra (bs.reverseAux rb) := by
  induction bs generalizing rb with
  | nil => rfl
  | cons b bs ih =>
    rw [rowOf, List.getLastD_cons, ih, List.reverseAux]

/-- The table computes the recursion on the strings read backwards. -/
theorem distance_eq (as bs : List UInt8) : distance as bs = editDistance as.reverse bs.reverse := by
  have hstart : List.range (bs.length + 1) = editDistance [] [] :: rowOf [] [] bs := by
    rw [rowOf_nil, editDistance_nil_left, List.range_eq_range', List.range'_succ]
    rfl
  rw [distance, hstart, rows_rowOf, List.getLastD_cons, getLastD_rowOf]
  rfl

/-! ### No script is shorter -/

/-- One more byte at the front of the second string costs one edit at most. -/
theorem editDistance_cons_right_le (b : UInt8) (as bs : List UInt8) :
    editDistance as (b :: bs) ≤ editDistance as bs + 1 := by
  cases as with
  | nil => simp
  | cons a as => rw [editDistance_cons]; omega

/-- One more byte at the front of the first string costs one edit at most. -/
theorem editDistance_cons_left_le (a : UInt8) (as bs : List UInt8) :
    editDistance (a :: as) bs ≤ editDistance as bs + 1 := by
  cases bs with
  | nil => simp
  | cons b bs => rw [editDistance_cons]; omega

/-- Nor is more than one edit saved by it. -/
theorem editDistance_le_cons_left (a : UInt8) (as bs : List UInt8) :
    editDistance as bs ≤ editDistance (a :: as) bs + 1 := by
  induction bs with
  | nil => simp; omega
  | cons b bs ih =>
    have hright := editDistance_cons_right_le b as bs
    rw [editDistance_cons]
    omega

/-- Another byte at the front makes a difference of one edit at most. -/
theorem editDistance_substitute_le (a b : UInt8) (as cs : List UInt8) :
    editDistance (a :: as) cs ≤ editDistance (b :: as) cs + 1 := by
  induction cs with
  | nil => simp
  | cons c cs ih =>
    rw [editDistance_cons, editDistance_cons]
    split <;> split <;> omega

/-- A byte in front of both strings does not take them further apart. -/
theorem editDistance_cons_le_cons (a : UInt8)
    (h : ∀ cs, editDistance as cs ≤ editDistance bs cs + 1) (cs : List UInt8) :
    editDistance (a :: as) cs ≤ editDistance (a :: bs) cs + 1 := by
  induction cs with
  | nil => simpa using h []
  | cons c cs ih =>
    have hboth := h (c :: cs)
    have hrest := h cs
    rw [editDistance_cons, editDistance_cons]
    omega

/-- What makes a difference of one edit at most does so behind any beginning. -/
theorem editDistance_append_le_append (pre : List UInt8)
    (h : ∀ cs, editDistance as cs ≤ editDistance bs cs + 1) (cs : List UInt8) :
    editDistance (pre ++ as) cs ≤ editDistance (pre ++ bs) cs + 1 := by
  induction pre generalizing cs with
  | nil => exact h cs
  | cons a pre ih => exact editDistance_cons_le_cons a ih cs

/-- One edit changes the distance to any string by one at most. -/
theorem Edit.editDistance_le (h : Edit as bs) (cs : List UInt8) :
    editDistance as cs ≤ editDistance bs cs + 1 := by
  cases h with
  | insert pre b post =>
    exact editDistance_append_le_append pre (editDistance_le_cons_left b post) cs
  | delete pre a post =>
    exact editDistance_append_le_append pre (editDistance_cons_left_le a post) cs
  | substitute pre a b post =>
    exact editDistance_append_le_append pre (editDistance_substitute_le a b post) cs

theorem editDistance_self (as : List UInt8) : editDistance as as = 0 := by
  induction as with
  | nil => simp
  | cons a as ih => rw [editDistance_cons, ih, if_pos rfl]; omega

/-- No script of edits is shorter than the distance. -/
theorem Edits.editDistance_le (h : Edits n as bs) : editDistance as bs ≤ n := by
  induction h with
  | done as => exact Nat.le_of_eq (editDistance_self as)
  | step first rest ih => exact Nat.le_trans (first.editDistance_le _) (Nat.succ_le_succ ih)

/-! ### A script of that length -/

/-- An edit may be made behind one more byte. -/
theorem Edit.cons (a : UInt8) (h : Edit as bs) : Edit (a :: as) (a :: bs) := by
  cases h with
  | insert pre b post => exact .insert (a :: pre) b post
  | delete pre b post => exact .delete (a :: pre) b post
  | substitute pre b c post => exact .substitute (a :: pre) b c post

theorem Edits.cons (a : UInt8) (h : Edits n as bs) : Edits n (a :: as) (a :: bs) := by
  induction h with
  | done as => exact .done (a :: as)
  | step first rest ih => exact .step (first.cons a) ih

/-- Of two scripts the shorter one is a script. -/
theorem Edits.min {m : Nat} (h : Edits m as bs) (h' : Edits n as bs) : Edits (min m n) as bs := by
  obtain hle | hle := Nat.le_total m n
  · rwa [Nat.min_eq_left hle]
  · rwa [Nat.min_eq_right hle]

theorem edits_nil_left (bs : List UInt8) : Edits bs.length [] bs := by
  induction bs with
  | nil => exact .done []
  | cons b bs ih => exact .step (.insert [] b []) (ih.cons b)

theorem edits_nil_right (as : List UInt8) : Edits as.length as [] := by
  induction as with
  | nil => exact .done []
  | cons a as ih => exact .step (.delete [] a as) ih

/-- There is a script of as many edits as the distance. -/
theorem edits_editDistance (as bs : List UInt8) : Edits (editDistance as bs) as bs := by
  induction as, bs using editDistance.induct with
  | case1 bs => simpa using edits_nil_left bs
  | case2 a as => simpa using edits_nil_right (a :: as)
  | case3 a as b bs ihDelete ihInsert ihBoth =>
    have hdelete : Edits (editDistance as (b :: bs) + 1) (a :: as) (b :: bs) :=
      .step (.delete [] a as) ihDelete
    have hinsert : Edits (editDistance (a :: as) bs + 1) (a :: as) (b :: bs) :=
      .step (.insert [] b (a :: as)) (ihInsert.cons b)
    have hboth : Edits (editDistance as bs + if a = b then 0 else 1) (a :: as) (b :: bs) := by
      split
      · next heq => exact heq ▸ ihBoth.cons a
      · exact .step (.substitute [] a b as) (ihBoth.cons b)
    rw [editDistance_cons]
    exact (hdelete.min hinsert).min hboth

/-! ### Backwards -/

/-- An edit from the other end. -/
theorem Edit.reverse (h : Edit as bs) : Edit as.reverse bs.reverse := by
  cases h with
  | insert pre b post => simpa using Edit.insert post.reverse b pre.reverse
  | delete pre a post => simpa using Edit.delete post.reverse a pre.reverse
  | substitute pre a b post => simpa using Edit.substitute post.reverse a b pre.reverse

theorem Edits.reverse (h : Edits n as bs) : Edits n as.reverse bs.reverse := by
  induction h with
  | done as => exact .done as.reverse
  | step first rest ih => exact .step first.reverse ih

/-- The table finds the least number of edits. -/
theorem distance_isLeast (as bs : List UInt8) : IsLeast {n | Edits n as bs} (distance as bs) := by
  rw [distance_eq]
  constructor
  · have hedits := (edits_editDistance as.reverse bs.reverse).reverse
    rwa [List.reverse_reverse, List.reverse_reverse] at hedits
  · exact fun n h => Edits.editDistance_le (Edits.reverse h)

/-- Only equal strings have no distance. -/
theorem distance_eq_zero_iff : distance as bs = 0 ↔ as = bs := by
  constructor
  · intro hzero
    have hedits : Edits (distance as bs) as bs := (distance_isLeast as bs).1
    rw [hzero] at hedits
    cases hedits
    rfl
  · rintro rfl
    exact Nat.le_zero.mp ((distance_isLeast as as).2 (.done as))

end TextScript.Suggestion
