/-
TextScript/Proofs/Ranges.lean

Positions in words are positions in integers.

An index or an endpoint is a 64-bit word, and so is the length that a negative one is added to.  A
negative word and a length have a sum that fits (`toInt_fromEnd`), so of all the sums and
differences only one can wrap: one less than the least word, in front of an empty sequence.  What
it wraps to is then clamped to the last position, which is the one before the first, and nothing
is selected; in integers nothing is selected either (`last_clamped`).

So the words follow the rules for integers without bound, `exactIndex` and `exactSpan`, which stay
within the sequence by their own shape.
-/
import Mathlib.Algebra.Group.Int.Defs
import Mathlib.Algebra.Group.Nat.Defs
import TextScript.Eval

namespace TextScript

namespace Range

variable {α : Type}

/-! ### Integers without bound -/

/-- The position that an index or an endpoint names in a sequence of `n` members: a negative one
counts back from the end. -/
def endpoint (i : Int) (n : Nat) : Int :=
  if i < 0 then i + n else i

/-- The position of an index, if it lies in the sequence. -/
def exactIndex (i : Int) (n : Nat) : Option Int :=
  if 0 ≤ endpoint i n ∧ endpoint i n < n then some (endpoint i n) else none

/-- The last position of the range, before it is clamped. -/
def exactLast (r : Range) (n : Nat) : Int :=
  if r.exclusive then endpoint r.last.toInt n - 1 else endpoint r.last.toInt n

/-- The span of a range: nothing if the first position is still negative or lies beyond the end,
or if the last one, clamped to the sequence, comes before it. -/
def exactSpan (r : Range) (n : Nat) : Option (Int × Int) :=
  let first := endpoint r.first.toInt n
  let last := min (r.exactLast n) (n - 1)
  if first < 0 ∨ n < first then none
  else if last < first then none
  else some (first, last + 1)

theorem exactIndex_eq_some {i k : Int} {n : Nat} (h : exactIndex i n = some k) :
    k = endpoint i n ∧ 0 ≤ k ∧ k < n := by
  unfold exactIndex at h
  split at h
  · next hin =>
    cases h
    exact ⟨rfl, hin⟩
  · cases h

/-- A span lies in the sequence and is not empty. -/
theorem exactSpan_within {r : Range} {n : Nat} {start stop : Int}
    (h : r.exactSpan n = some (start, stop)) : 0 ≤ start ∧ start < stop ∧ stop ≤ n := by
  unfold exactSpan at h
  simp only at h
  split at h
  · cases h
  · split at h
    · cases h
    · cases h
      omega

/-! ### Words -/

variable {n : Nat}

/-- A sum that fits is the sum of the integers. -/
theorem toInt_add_of_fits {a b : Int64} (hlow : -2 ^ 63 ≤ a.toInt + b.toInt)
    (hhigh : a.toInt + b.toInt < 2 ^ 63) : (a + b).toInt = a.toInt + b.toInt := by
  rw [Int64.toInt_add]
  exact Int.bmod_eq_of_le (by simpa using hlow) (by simpa using hhigh)

theorem toInt_pred_of_ne {a : Int64} (h : -2 ^ 63 < a.toInt) : (a - 1).toInt = a.toInt - 1 := by
  have hhigh := a.toInt_lt
  rw [Int64.toInt_sub, Int64.toInt_one]
  exact Int.bmod_eq_of_le (by simp; omega) (by simp; omega)

/-- One less than the least word is the greatest. -/
theorem toInt_pred_of_least {a : Int64} (h : a.toInt = -2 ^ 63) : (a - 1).toInt = 2 ^ 63 - 1 := by
  rw [Int64.toInt_sub, Int64.toInt_one, h]
  decide

/-- Counting back from the end never wraps. -/
theorem toInt_fromEnd (i : Int64) (hn : n < 2 ^ 63) :
    (if i < 0 then i + Int64.ofNat n else i).toInt = endpoint i.toInt n := by
  have hlen : (Int64.ofNat n).toInt = n := Int64.toInt_ofNat_of_lt hn
  have hlow := i.le_toInt
  unfold endpoint
  simp only [Int64.lt_iff_toInt_lt, Int64.toInt_zero]
  split
  · rw [toInt_add_of_fits (by rw [hlen]; omega) (by rw [hlen]; omega), hlen]
  · rfl

theorem resolveIndex_toInt (i : Int64) (hn : n < 2 ^ 63) :
    (resolveIndex i (Int64.ofNat n)).map Int64.toInt = exactIndex i.toInt n := by
  have hend := toInt_fromEnd i hn
  have hlen : (Int64.ofNat n).toInt = n := Int64.toInt_ofNat_of_lt hn
  unfold resolveIndex exactIndex
  generalize (if i < 0 then i + Int64.ofNat n else i) = k at hend ⊢
  simp only [Bool.or_eq_true, decide_eq_true_eq, Int64.lt_iff_toInt_lt, Int64.le_iff_toInt_le,
    Int64.toInt_zero, hlen, hend]
  split
  · next hout =>
    rw [if_neg (by omega)]
    rfl
  · next hin =>
    rw [if_pos (by omega), Option.map_some, hend]

/-- The last position that is left of a range, in words. -/
def lastOf (r : Range) (n : Int64) : Int64 :=
  let last := if r.last < 0 then r.last + n else r.last
  let last := if r.exclusive then last - 1 else last
  if n - 1 < last then n - 1 else last

/-- Where the difference wraps the sequence is empty and nothing can be selected, and otherwise the
clamped word is the clamped integer. -/
theorem last_clamped (r : Range) (hn : n < 2 ^ 63) :
    (r.lastOf (Int64.ofNat n)).toInt = min (r.exactLast n) (n - 1) ∨
      n = 0 ∧ (r.lastOf (Int64.ofNat n)).toInt < 0 ∧ min (r.exactLast n) (n - 1) < 0 := by
  have hlen : (Int64.ofNat n).toInt = n := Int64.toInt_ofNat_of_lt hn
  have hend := toInt_fromEnd r.last hn
  have hpred : (Int64.ofNat n - 1).toInt = n - 1 := by
    rw [toInt_pred_of_ne (by rw [hlen]; omega), hlen]
  unfold lastOf exactLast
  generalize hlast : (if r.last < 0 then r.last + Int64.ofNat n else r.last) = last at hend
  have hclamp (k : Int64) :
      (if Int64.ofNat n - 1 < k then Int64.ofNat n - 1 else k).toInt = min k.toInt (n - 1) := by
    simp only [Int64.lt_iff_toInt_lt, hpred]
    split
    · rw [hpred]
      omega
    · omega
  simp only
  rw [hclamp]
  cases r.exclusive with
  | false => exact .inl (by rw [← hend]; simp)
  | true =>
    simp only [if_true]
    rw [← hend]
    by_cases hleast : last.toInt = -2 ^ 63
    · -- a negative endpoint is the least word only where nothing was added to it
      right
      have hlow := r.last.le_toInt
      have hzero : n = 0 := by
        unfold endpoint at hend
        split at hend <;> omega
      subst hzero
      rw [toInt_pred_of_least hleast, hleast]
      refine ⟨rfl, ?_, ?_⟩ <;> omega
    · left
      have hlow := last.le_toInt
      rw [toInt_pred_of_ne (by omega)]

theorem resolve_toInt (r : Range) (hn : n < 2 ^ 63) :
    (r.resolve (Int64.ofNat n)).map (fun s => (s.1.toInt, s.2.toInt)) = r.exactSpan n := by
  have hlen : (Int64.ofNat n).toInt = n := Int64.toInt_ofNat_of_lt hn
  have hfirst := toInt_fromEnd r.first hn
  have hlast := last_clamped r hn
  have hresolve : r.resolve (Int64.ofNat n) =
      (let first := if r.first < 0 then r.first + Int64.ofNat n else r.first
       if first < 0 || Int64.ofNat n < first then none
       else if r.lastOf (Int64.ofNat n) < first then none
       else some (first, r.lastOf (Int64.ofNat n) + 1)) := rfl
  rw [hresolve]
  unfold exactSpan
  generalize (if r.first < 0 then r.first + Int64.ofNat n else r.first) = first at hfirst ⊢
  generalize r.lastOf (Int64.ofNat n) = last at hlast ⊢
  simp only [Bool.or_eq_true, decide_eq_true_eq, Int64.lt_iff_toInt_lt, Int64.toInt_zero,
    hlen, hfirst]
  split
  · rfl
  · next hin =>
    -- the last position is that of the integers, or it wrapped and the sequence is empty
    rcases hlast with hlast | ⟨hzero, hlow, hexact⟩
    · rw [hlast]
      split
      · rfl
      · next hle =>
        have hnext : (last + 1).toInt = last.toInt + 1 := by
          rw [toInt_add_of_fits] <;> rw [Int64.toInt_one] <;> omega
        rw [Option.map_some, hnext, hfirst, hlast]
    · rw [if_pos (by omega), if_pos (by omega)]
      rfl

/-! ### What is accessed -/

/-- `Picks i xs o`: the index `i` names a member of `xs`, and `o` is that, or it names none. -/
inductive Picks (i : Int) (xs : List α) : Option α → Prop
  | member {k : Int} {x : α} : exactIndex i xs.length = some k → xs[k.toNat]? = some x →
      Picks i xs (some x)
  | absent : exactIndex i xs.length = none → Picks i xs none

/-- `Selects r xs part`: the range `r` has a span in `xs`, and `part` are its members, or it has
none. -/
inductive Selects (r : Range) (xs : List α) : List α → Prop
  | span {before part behind : List α} : xs = before ++ (part ++ behind) →
      r.exactSpan xs.length = some ((before.length : Int), (before.length : Int) + part.length) →
      Selects r xs part
  | empty : r.exactSpan xs.length = none → Selects r xs []

variable {xs : List α}

theorem pick?_picks (i : Int64) (hlen : xs.length < 2 ^ 63) : Picks i.toInt xs (pick? i xs) := by
  have hexact := resolveIndex_toInt i hlen
  unfold pick?
  cases hres : resolveIndex i (Int64.ofNat xs.length) with
  | none =>
    rw [hres] at hexact
    exact .absent hexact.symm
  | some k =>
    rw [hres, Option.map_some] at hexact
    obtain ⟨-, hlow, hhigh⟩ := exactIndex_eq_some hexact.symm
    have hin : k.toNatClampNeg < xs.length := by
      rw [← Int64.toNat_toInt]
      omega
    have hget : xs[k.toNatClampNeg]? = some xs[k.toNatClampNeg] := List.getElem?_eq_getElem hin
    dsimp only
    rw [hget]
    exact .member hexact.symm hget

/-- What stands between two places of a list. -/
theorem take_drop_between {start stop : Nat} (hle : start ≤ stop) (hin : stop ≤ xs.length) :
    ∃ before behind, xs = before ++ ((xs.drop start).take (stop - start) ++ behind) ∧
      before.length = start ∧ ((xs.drop start).take (stop - start)).length = stop - start := by
  refine ⟨xs.take start, (xs.drop start).drop (stop - start), ?_, ?_, ?_⟩
  · rw [List.take_append_drop, List.take_append_drop]
  · rw [List.length_take]
    omega
  · rw [List.length_take, List.length_drop]
    omega

theorem select_selects (r : Range) (hlen : xs.length < 2 ^ 63) : Selects r xs (r.select xs) := by
  have hexact := resolve_toInt r hlen
  unfold select
  cases hres : r.resolve (Int64.ofNat xs.length) with
  | none =>
    rw [hres] at hexact
    exact .empty hexact.symm
  | some span =>
    obtain ⟨start, stop⟩ := span
    rw [hres, Option.map_some] at hexact
    dsimp only at hexact ⊢
    obtain ⟨hlow, hlt, hhigh⟩ := exactSpan_within hexact.symm
    rw [← Int64.toNat_toInt, ← Int64.toNat_toInt]
    have hle : start.toInt.toNat ≤ stop.toInt.toNat := by omega
    have hend : stop.toInt.toNat ≤ xs.length := by omega
    obtain ⟨before, behind, hcut, hbefore, hpart⟩ := take_drop_between hle hend
    refine .span hcut (hexact.symm.trans ?_)
    rw [hbefore, hpart]
    congr 2 <;> omega

end Range

open Range

namespace Eval

variable {v : Value} {items : List Value}

theorem indexBy_list_index (sv : Services) (hv : v.unmarked = .list items) (i : Int64) :
    indexBy sv v (.int i) = .ok ((pick? i items).getD .nil) := by
  unfold indexBy
  rw [hv]

theorem indexBy_list_range (sv : Services) (hv : v.unmarked = .list items) (r : Range) :
    indexBy sv v (.range r) = .ok (.list (r.select items)) := by
  unfold indexBy
  rw [hv]

end Eval

open Eval

/-- Indexes and ranges in words give exactly what the rules for integers without bound give: the
index of a position if that lies in the sequence, and the clamped span of a range, which lies in
it and is not empty.  So whatever integers a program names, a text and a list are only accessed
where they have members, and what is absent or empty otherwise is so by those rules. -/
theorem words_resolved_exactly (r : Range) (i : Int64) {n : Nat} (hn : n < 2 ^ 63) :
    (r.resolve (Int64.ofNat n)).map (fun s => (s.1.toInt, s.2.toInt)) = r.exactSpan n ∧
      (∀ start stop, r.resolve (Int64.ofNat n) = some (start, stop) →
        0 ≤ start.toInt ∧ start.toInt < stop.toInt ∧ stop.toInt ≤ n) ∧
      (resolveIndex i (Int64.ofNat n)).map Int64.toInt = exactIndex i.toInt n ∧
      (∀ t : Text, t.length = n →
        Picks i.toInt t.points (t.at? i) ∧ Selects r t.points (t.slice r).points) ∧
      ∀ (sv : Services) (v : Value)
        (items : List Value), v.unmarked = .list items → items.length = n →
        (∃ o, Picks i.toInt items o ∧ indexBy sv v (.int i) = .ok (o.getD .nil)) ∧
          ∃ part, Selects r items part ∧ indexBy sv v (.range r) = .ok (.list part) := by
  refine ⟨resolve_toInt r hn, ?_, resolveIndex_toInt i hn, ?_, ?_⟩
  · intro start stop hres
    have hexact := resolve_toInt r hn
    rw [hres, Option.map_some] at hexact
    exact exactSpan_within hexact.symm
  · rintro t rfl
    exact ⟨pick?_picks i hn, select_selects r hn⟩
  · rintro sv v items hv rfl
    exact ⟨⟨pick? i items, pick?_picks i hn, indexBy_list_index sv hv i⟩, r.select items,
      select_selects r hn, indexBy_list_range sv hv r⟩

/-- From the last but one on, up to a position beyond the end. -/
theorem words_resolved_exactly_clamped :
    3 < 2 ^ 63 ∧ (Text.ofString "abc").length = 3 ∧
      Selects ⟨-2, 9, true⟩ (Text.ofString "abc").points [98, 99] := by
  have hlen : (Text.ofString "abc").length = 3 := by decide
  refine ⟨by decide, hlen, ?_⟩
  obtain ⟨-, -, -, htext, -⟩ := words_resolved_exactly ⟨-2, 9, true⟩ (-1) (n := 3) (by decide)
  exact (htext (Text.ofString "abc") hlen).2

/-- Before the least word in an empty sequence, where the difference wraps. -/
example : (⟨0, Int64.minValue, true⟩ : Range).resolve 0 = none ∧
    Int64.minValue - 1 = Int64.maxValue := by
  decide

end TextScript
