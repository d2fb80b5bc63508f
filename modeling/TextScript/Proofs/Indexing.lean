/-
TextScript/Proofs/Indexing.lean

Laws of indexing.

A range whose ends are one index selects what the index picks (`select_point`).  Ranges between
two positions that exclude their end take and drop (`select_between`), and one up to the last
member only drops (`select_from`).  The laws of slices are then laws of `List.take` and
`List.drop`.

Neither picking nor selecting looks at the members, so a text and the list of its code points are
indexed alike, and what is absent or empty in one is so in the other.
-/
import TextScript.Proofs.Ranges

namespace TextScript

namespace Range

variable {α β : Type} {xs : List α}

/-! ### Takes and drops -/

theorem pick?_eq (i : Int64) (hlen : xs.length < 2 ^ 63) :
    pick? i xs = (exactIndex i.toInt xs.length).bind fun k => xs[k.toNat]? := by
  rw [← resolveIndex_toInt i hlen]
  unfold pick?
  cases resolveIndex i (Int64.ofNat xs.length) <;> rfl

theorem select_of_none {r : Range} (hlen : xs.length < 2 ^ 63) (h : r.exactSpan xs.length = none) :
    r.select xs = [] := by
  rw [← resolve_toInt r hlen, Option.map_eq_none_iff] at h
  unfold select
  rw [h]

theorem select_of_some {r : Range} {start stop : Int} (hlen : xs.length < 2 ^ 63)
    (h : r.exactSpan xs.length = some (start, stop)) :
    r.select xs = (xs.take stop.toNat).drop start.toNat := by
  rw [← resolve_toInt r hlen, Option.map_eq_some_iff] at h
  obtain ⟨⟨first, last⟩, hres, hspan⟩ := h
  cases hspan
  unfold select
  rw [hres, List.drop_take]
  rfl

theorem exactSpan_point (i : Int64) (n : Nat) :
    (⟨i, i, false⟩ : Range).exactSpan n = (exactIndex i.toInt n).map fun k => (k, k + 1) := by
  unfold exactSpan exactIndex exactLast
  generalize endpoint i.toInt n = k
  simp only [Bool.false_eq_true, if_false]
  by_cases hin : 0 ≤ k ∧ k < n
  · rw [if_neg (by omega), if_neg (by omega), if_pos hin, Option.map_some]
    congr 2
    omega
  · rw [if_neg hin, Option.map_none]
    split
    · rfl
    · exact if_pos (by omega)

/-- A range from an index to itself selects what the index picks. -/
theorem select_point (i : Int64) (hlen : xs.length < 2 ^ 63) :
    (⟨i, i, false⟩ : Range).select xs = (pick? i xs).toList := by
  rw [pick?_eq i hlen]
  have hspan := exactSpan_point i xs.length
  cases hk : exactIndex i.toInt xs.length with
  | none =>
    rw [hk] at hspan
    rw [select_of_none hlen hspan]
    rfl
  | some k =>
    rw [hk] at hspan
    obtain ⟨-, hlow, hhigh⟩ := exactIndex_eq_some hk
    have hnext : (k + 1).toNat = k.toNat + 1 := by omega
    have hbefore : (xs.take k.toNat).length = k.toNat := by
      rw [List.length_take]
      omega
    rw [select_of_some hlen hspan, hnext, List.take_add_one, List.drop_left' hbefore,
      Option.bind_some]

/-- The span of a range that begins at a position of the sequence or at its end. -/
theorem exactSpan_from {r : Range} {n : Nat} {a : Int} (hfirst : endpoint r.first.toInt n = a)
    (ha : 0 ≤ a) : r.exactSpan n
      = if a ≤ min (r.exactLast n) (n - 1) then some (a, min (r.exactLast n) (n - 1) + 1)
        else none := by
  unfold exactSpan
  rw [hfirst]
  simp only
  by_cases hle : a ≤ min (r.exactLast n) (n - 1)
  · rw [if_neg (by omega), if_neg (by omega), if_pos hle]
  · rw [if_neg hle]
    split
    · rfl
    · exact if_pos (by omega)

theorem endpoint_nonneg {i : Int} (h : 0 ≤ i) (n : Nat) : endpoint i n = i :=
  if_neg (by omega)

/-- A range up to a position that it excludes takes up to there and drops up to its first. -/
theorem select_between {a b : Int64} (ha : 0 ≤ a.toInt) (hb : 0 ≤ b.toInt)
    (hlen : xs.length < 2 ^ 63) :
    (⟨a, b, true⟩ : Range).select xs = (xs.take b.toInt.toNat).drop a.toInt.toNat := by
  have hspan := exactSpan_from (r := ⟨a, b, true⟩) (endpoint_nonneg ha xs.length) ha
  have hlast : (⟨a, b, true⟩ : Range).exactLast xs.length = b.toInt - 1 := by
    rw [exactLast, if_pos rfl, endpoint_nonneg hb]
  rw [hlast] at hspan
  split at hspan
  · rw [select_of_some hlen hspan]
    -- an end beyond the last member takes all of them
    have hstop : (min (b.toInt - 1) (xs.length - 1) + 1).toNat = min b.toInt.toNat xs.length := by
      omega
    rw [hstop, ← List.take_take, List.take_length]
  · rw [select_of_none hlen hspan, List.drop_eq_nil_of_le]
    rw [List.length_take]
    omega

/-- A range up to the last member drops what comes before its first. -/
theorem select_from {a : Int64} (ha : 0 ≤ a.toInt) (hlen : xs.length < 2 ^ 63) :
    (⟨a, -1, false⟩ : Range).select xs = xs.drop a.toInt.toNat := by
  have hspan := exactSpan_from (r := ⟨a, -1, false⟩) (endpoint_nonneg ha xs.length) ha
  have hlast : (⟨a, -1, false⟩ : Range).exactLast xs.length = xs.length - 1 := by
    show endpoint (-1) xs.length = xs.length - 1
    rw [endpoint, if_pos (by decide)]
    omega
  rw [hlast, Int.min_self] at hspan
  split at hspan
  · rw [select_of_some hlen hspan]
    have hstop : ((xs.length : Int) - 1 + 1).toNat = xs.length := by omega
    rw [hstop, List.take_length]
  · rw [select_of_none hlen hspan, List.drop_eq_nil_of_le]
    omega

/-! ### Members do not matter -/

theorem pick?_map (f : α → β) (i : Int64) : pick? i (xs.map f) = (pick? i xs).map f := by
  unfold pick?
  rw [List.length_map]
  cases resolveIndex i (Int64.ofNat xs.length) with
  | none => rfl
  | some k => exact List.getElem?_map

theorem select_map (f : α → β) (r : Range) : r.select (xs.map f) = (r.select xs).map f := by
  unfold select
  rw [List.length_map]
  cases r.resolve (Int64.ofNat xs.length) with
  | none => rfl
  | some span => rw [List.map_take, List.map_drop]

end Range

open Range Eval

/-! ### Texts and lists of numbers -/

/-- A code point as an integer of the language. -/
def pointValue (n : Int) : Value :=
  .int (Int64.ofInt n)

/-- The list of a text's code points. -/
def Text.pointValues (t : Text) : List Value :=
  t.points.map pointValue

/-- A text is indexed by a method, whose argument is counted first. -/
theorem send_index (casing : Casing) (engine : Engine) (t : Text) (v : Value) :
    TextMethods.send casing engine t "[]" [v] = .lift (TextMethods.indexBy t v) := by
  have harity : Arity.admits "1" 1 = true := by decide +kernel
  have hsend : TextMethods.send casing engine t "[]" [v]
      = if Arity.admits "1" 1 then .lift (TextMethods.indexBy t v)
        else .fail (.make .arity (some [("Function", .text "[]"), ("Got", .number 1),
          ("Want", .text (Arity.describe "1"))])) := rfl
  rw [hsend, if_pos harity]

theorem indexBy_text_index (sv : Services) (t : Text) (i : Int64) :
    indexBy sv (.text t) (.int i) = .ok (((t.at? i).map pointValue).getD .nil) :=
  send_index sv.casing sv.formatter t (.int i)

theorem indexBy_text_range (sv : Services) (t : Text) (r : Range) :
    indexBy sv (.text t) (.range r) = .ok (.text (t.slice r)) :=
  send_index sv.casing sv.formatter t (.range r)

/-- A text and the list of its code points have the same member at an index, or none. -/
theorem indexBy_index_agree (sv : Services) (t : Text) (i : Int64) :
    indexBy sv (.list t.pointValues) (.int i) = indexBy sv (.text t) (.int i) := by
  rw [indexBy_text_index, indexBy_list_index sv rfl, Text.pointValues, pick?_map]
  rfl

/-- A range of a text has the code points of the same range of the list. -/
theorem indexBy_range_agree (sv : Services) (t : Text) (r : Range) :
    indexBy sv (.list t.pointValues) (.range r) = .ok (.list (t.slice r).pointValues) := by
  rw [indexBy_list_range sv rfl, Text.pointValues, select_map]
  rfl

variable {t : Text}

theorem slice_point (i : Int64) (ht : t.length < 2 ^ 63) :
    t.slice ⟨i, i, false⟩ = ⟨(t.at? i).toList⟩ :=
  congrArg Text.mk (select_point i ht)

/-- What lies before a position and what lies from it on are the whole text. -/
theorem slice_before_from {k : Int64} (hk : 0 ≤ k.toInt) (ht : t.length < 2 ^ 63) :
    (t.slice ⟨0, k, true⟩).append (t.slice ⟨k, -1, false⟩) = t := by
  have hzero : 0 ≤ (0 : Int64).toInt := by decide
  refine congrArg Text.mk ?_
  show (⟨0, k, true⟩ : Range).select t.points ++ (⟨k, -1, false⟩ : Range).select t.points = t.points
  rw [select_between hzero hk ht, select_from hk ht]
  exact List.take_append_drop _ _

/-- A slice of a slice is a slice. -/
theorem slice_slice {a b c d : Int64} (ha : 0 ≤ a.toInt) (hab : a.toInt ≤ b.toInt)
    (hc : 0 ≤ c.toInt) (hcd : c.toInt ≤ d.toInt) (hfit : a.toInt + d.toInt < 2 ^ 63)
    (ht : t.length < 2 ^ 63) :
    (t.slice ⟨a, b, true⟩).slice ⟨c, d, true⟩ = t.slice ⟨a + c, min (a + d) b, true⟩ := by
  have hb : 0 ≤ b.toInt := Int.le_trans ha hab
  have hd : 0 ≤ d.toInt := Int.le_trans hc hcd
  have hstart : (a + c).toInt = a.toInt + c.toInt := toInt_add_of_fits (by omega) (by omega)
  have hstop : (a + d).toInt = a.toInt + d.toInt := toInt_add_of_fits (by omega) hfit
  have hmin : (min (a + d) b).toInt = min (a.toInt + d.toInt) b.toInt := by
    show (if a + d ≤ b then a + d else b).toInt = _
    simp only [Int64.le_iff_toInt_le, hstop]
    split
    · rw [hstop]
      omega
    · omega
  have hinner : (⟨a, b, true⟩ : Range).select t.points =
      (t.points.take b.toInt.toNat).drop a.toInt.toNat :=
    select_between ha hb ht
  have hlen : ((⟨a, b, true⟩ : Range).select t.points).length < 2 ^ 63 := by
    have hle : t.points.length < 2 ^ 63 := ht
    rw [hinner, List.length_drop, List.length_take]
    omega
  refine congrArg Text.mk ?_
  show (⟨c, d, true⟩ : Range).select ((⟨a, b, true⟩ : Range).select t.points) = _
  rw [select_between hc hd hlen, hinner, select_between (by omega) (by omega) ht, hstart, hmin]
  -- both sides take up to the nearer end and drop up to the sum of the starts
  rw [List.take_drop, List.take_take, List.drop_drop]
  congr 1
  · omega
  · congr 1
    omega

/-- How points, slices and lists hang together.  A range from an index to itself has the one code
point of the index, and is empty where that is absent; two slices that meet at a position make up
the text; a slice of a slice is a slice.  A text and the list of its code points are indexed
alike: the same code point or none at an index, the same code points in a range.  The length of a
text is a word. -/
theorem indexing_laws (sv : Services) {t : Text} (ht : t.length < 2 ^ 63) :
    (∀ (i : Int64) (c : Int), t.at? i = some c ↔ t.slice ⟨i, i, false⟩ = ⟨[c]⟩) ∧
      (∀ i : Int64, t.at? i = none ↔ t.slice ⟨i, i, false⟩ = .empty) ∧
      (∀ k : Int64, 0 ≤ k → (t.slice ⟨0, k, true⟩).append (t.slice ⟨k, -1, false⟩) = t) ∧
      (∀ a b c d : Int64, 0 ≤ a → a ≤ b → 0 ≤ c → c ≤ d → a.toInt + d.toInt < 2 ^ 63 →
        (t.slice ⟨a, b, true⟩).slice ⟨c, d, true⟩ = t.slice ⟨a + c, min (a + d) b, true⟩) ∧
      (∀ i : Int64, indexBy sv (.text t) (.int i) = .ok (((t.at? i).map pointValue).getD .nil) ∧
        indexBy sv (.list t.pointValues) (.int i) = .ok (((t.at? i).map pointValue).getD .nil)) ∧
      ∀ r : Range, indexBy sv (.text t) (.range r) = .ok (.text (t.slice r)) ∧
        indexBy sv (.list t.pointValues) (.range r) = .ok (.list (t.slice r).pointValues) := by
  refine ⟨?_, ?_, ?_, ?_, ?_, ?_⟩
  · intro i c
    rw [slice_point i ht, Text.mk.injEq]
    cases t.at? i <;> simp
  · intro i
    rw [slice_point i ht, Text.empty, Text.mk.injEq, Option.toList_eq_nil_iff]
  · intro k hk
    exact slice_before_from (Int64.le_iff_toInt_le.mp hk) ht
  · intro a b c d ha hab hc hcd hfit
    rw [Int64.le_iff_toInt_le] at ha hab hc hcd
    exact slice_slice ha hab hc hcd hfit ht
  · intro i
    exact ⟨indexBy_text_index sv t i,
      (indexBy_index_agree sv t i).trans (indexBy_text_index sv t i)⟩
  · intro r
    exact ⟨indexBy_text_range sv t r, indexBy_range_agree sv t r⟩

/-- The slice of a slice that would reach beyond the first one. -/
theorem indexing_laws_slice :
    (Text.ofString "foobar").length < 2 ^ 63 ∧
      ((Text.ofString "foobar").slice ⟨1, 4, true⟩).slice ⟨1, 9, true⟩
        = (Text.ofString "foobar").slice ⟨2, 4, true⟩ ∧
      ((Text.ofString "foobar").slice ⟨2, 4, true⟩) = Text.ofString "ob" := by
  have hlen : (Text.ofString "foobar").length < 2 ^ 63 := by decide
  obtain ⟨-, -, -, hslice, -, -⟩ := indexing_laws {} hlen
  exact ⟨hlen,
    hslice 1 4 1 9 (by decide) (by decide) (by decide) (by decide) (by decide), by decide⟩

/-- At the end of a text nothing begins, and before its first character nothing ends. -/
example : (Text.ofString "abc").at? 3 = none ∧ (Text.ofString "abc").slice ⟨3, -1, false⟩ = .empty ∧
    (Text.ofString "abc").slice ⟨0, 0, true⟩ = .empty := by
  decide

end TextScript
