/-
TextScript/Proofs/Arities.lean

How many arguments a method takes, as its description says it.

Descriptions are strings, and three ways to read them are tried in turn, with every count admitted
if none applies.  Rows of digits, alone, with a minus sign between two of them or with a plus sign
at the end, are each read in one of the ways only: as an exact count, a range or a least count
(`admits_exact`, `admits_between`, `admits_least`).
-/
import Mathlib.Data.List.TakeDrop
import Mathlib.Data.List.TakeWhile
import TextScript.Method.Arity
import TextScript.Proofs.Digits

namespace TextScript.Arity

variable {d e cs : List Char} {c : Char} {a b n : Nat}

/-- A row of digits writes a number. -/
structure Writes (d : List Char) (a : Nat) : Prop where
  ne_nil : d ≠ []
  digits : ∀ c ∈ d, c.isDigit = true
  value : Nat.ofDigitChars 10 d 0 = a

theorem writes_toString (a : Nat) : Writes (toString a).toList a := by
  have hchars : (toString a).toList = Nat.toDigits 10 a := Nat.toList_repr
  rw [hchars]
  exact ⟨Nat.toDigits_ne_nil, fun c hc => Nat.isDigit_of_mem_toDigits (by decide) (by decide) hc,
    Nat.ofDigitChars_ten_toDigits⟩

/-- The characters that descriptions are written with. -/
def IsMark (c : Char) : Prop :=
  c.isDigit = true ∨ c = '-' ∨ c = '+'

theorem isBlank_mark (h : IsMark c) : Unicode.isBlank (pointOf c) = false := by
  rcases h with hdigit | rfl | rfl
  · have hbounds : '0' ≤ c ∧ c ≤ '9' := by simpa [Char.isDigit, Char.le_def] using hdigit
    have hlow : '0'.toNat ≤ c.toNat := UInt32.le_iff_toNat_le.mp hbounds.1
    have hhigh : c.toNat ≤ '9'.toNat := UInt32.le_iff_toNat_le.mp hbounds.2
    have hnone : ∀ k < '9'.toNat + 1, '0'.toNat ≤ k → Unicode.blanks.has k = false := by
      decide +kernel
    exact hnone _ (Nat.lt_succ_of_le hhigh) hlow
  · decide
  · decide

/-- There is nothing to trim. -/
theorem trimString_marks (h : ∀ c ∈ cs, IsMark c) :
    Text.trimString (String.ofList cs) = String.ofList cs := by
  have hkept : ∀ ds : List Char, (∀ c ∈ ds, IsMark c) →
      ds.dropWhile (fun c => Unicode.isBlank (pointOf c)) = ds := by
    intro ds hds
    cases ds with
    | nil => rfl
    | cons c ds =>
      rw [List.dropWhile_cons, if_neg (by simp [isBlank_mark (hds c List.mem_cons_self)])]
  rw [Text.trimString, String.toList_ofList]
  show String.ofList (((cs.dropWhile _).reverse.dropWhile _).reverse) = _
  rw [hkept cs h, hkept cs.reverse fun c hc => h c (List.mem_reverse.mp hc), List.reverse_reverse]

theorem Writes.marks (h : Writes d a) : ∀ c ∈ d, IsMark c :=
  fun c hc => .inl (h.digits c hc)

theorem Writes.not_mem (h : Writes d a) (hc : c.isDigit = false) : c ∉ d := by
  intro hmem
  rw [h.digits c hmem] at hc
  cases hc

/-! ### One numeral -/

theorem Writes.count?_eq (h : Writes d a) (hfits : a < 2 ^ 63) :
    count? (String.ofList d) = some (a : Int) := by
  obtain ⟨c, cs, rfl⟩ := List.exists_cons_of_ne_nil h.ne_nil
  have hnumber : Numeral.integer? (c :: cs) = some (a : Int) := by
    rw [integer?_unsigned (h.digits c List.mem_cons_self),
      natural?_digits h.ne_nil h.digits, h.value]
    rfl
  rw [count?, String.toList_ofList, hnumber]
  exact if_pos ((fitsWord_natCast a).mpr hfits)

/-- Digits with anything but a digit behind them write no number. -/
theorem Writes.count?_eq_none (h : Writes d a) (hc : Numeral.digit? 10 c = none) (cs : List Char) :
    count? (String.ofList (d ++ c :: cs)) = none := by
  have hdigits : (d ++ c :: cs).mapM (Numeral.digit? 10) = none := by
    rw [List.mapM_append, mapM_digit? h.digits, List.mapM_cons, hc]
    rfl
  have hnumber : Numeral.natural? 10 (d ++ c :: cs) = none := by
    rw [Numeral.natural?, hdigits]
    exact ite_self _
  -- the row begins with a digit, so there is no sign to pass over
  obtain ⟨first, rest, rfl⟩ := List.exists_cons_of_ne_nil h.ne_nil
  rw [count?, String.toList_ofList, List.cons_append,
    integer?_unsigned (h.digits first List.mem_cons_self), ← List.cons_append, hnumber]
  rfl

/-! ### The three forms of a description -/

theorem ne_minus (h : '-' ∉ d) : ∀ c ∈ d, decide (c ≠ '-') = true := by
  intro c hc
  exact decide_eq_true fun heq => h (heq ▸ hc)

theorem cutAtMinus_of_mem (h : '-' ∉ d) (cs : List Char) :
    cutAtMinus (String.ofList (d ++ '-' :: cs)) = some (String.ofList d, String.ofList cs) := by
  have hspan : (d ++ '-' :: cs).span (· ≠ '-') = (d, '-' :: cs) := by
    rw [List.span_eq_takeWhile_dropWhile, List.takeWhile_append_of_pos (ne_minus h),
      List.dropWhile_append_of_pos (ne_minus h), List.takeWhile_cons_of_neg (by decide),
      List.dropWhile_cons_of_neg (by decide), List.append_nil]
  rw [cutAtMinus, String.toList_ofList, hspan]

theorem cutAtMinus_of_not_mem (h : '-' ∉ cs) : cutAtMinus (String.ofList cs) = none := by
  have hspan : cs.span (· ≠ '-') = (cs, []) := by
    rw [List.span_eq_takeWhile_dropWhile, List.takeWhile_eq_self_iff.mpr (ne_minus h),
      List.dropWhile_eq_nil_iff.mpr (ne_minus h)]
  rw [cutAtMinus, String.toList_ofList, hspan]

theorem beforePlus_concat (cs : List Char) :
    beforePlus (String.ofList (cs ++ ['+'])) = some (String.ofList cs) := by
  rw [beforePlus, String.toList_ofList, List.reverse_concat]
  show some (String.ofList cs.reverse.reverse) = _
  rw [List.reverse_reverse]

/-- A number alone is the exact count. -/
theorem admits_exact (h : Writes d a) (hfits : a < 2 ^ 63) :
    admits (String.ofList d) n = true ↔ n = a := by
  simp only [admits, trimString_marks h.marks, h.count?_eq hfits, decide_eq_true_eq]
  omega

/-- Two numbers with a minus sign between them are the least and the greatest count. -/
theorem admits_between (h : Writes d a) (h' : Writes e b) (ha : a < 2 ^ 63) (hb : b < 2 ^ 63) :
    admits (String.ofList (d ++ '-' :: e)) n = true ↔ a ≤ n ∧ n ≤ b := by
  have hmarks : ∀ c ∈ d ++ '-' :: e, IsMark c :=
    List.forall_mem_append.mpr ⟨h.marks, List.forall_mem_cons.mpr ⟨.inr (.inl rfl), h'.marks⟩⟩
  have hrange : range? (String.ofList (d ++ '-' :: e)) = some ((a : Int), (b : Int)) := by
    rw [range?, cutAtMinus_of_mem (h.not_mem rfl), Option.bind_eq_bind, Option.bind_some]
    simp only [h.count?_eq ha, h'.count?_eq hb]
    rfl
  simp only [admits, trimString_marks hmarks, h.count?_eq_none (c := '-') rfl e, hrange,
    Bool.and_eq_true, decide_eq_true_eq]
  omega

/-- A number with a plus sign behind it is the least count. -/
theorem admits_least (h : Writes d a) (hfits : a < 2 ^ 63) :
    admits (String.ofList (d ++ ['+'])) n = true ↔ a ≤ n := by
  have hmarks : ∀ c ∈ d ++ ['+'], IsMark c :=
    List.forall_mem_append.mpr ⟨h.marks, List.forall_mem_singleton.mpr (.inr (.inr rfl))⟩
  have hnone : '-' ∉ d ++ ['+'] := by
    rw [List.mem_append, not_or]
    exact ⟨h.not_mem rfl, by decide⟩
  have hrange : range? (String.ofList (d ++ ['+'])) = none := by
    rw [range?, cutAtMinus_of_not_mem hnone]
    rfl
  have hleast : least? (String.ofList (d ++ ['+'])) = some (a : Int) := by
    rw [least?, beforePlus_concat, Option.bind_some, h.count?_eq hfits]
  simp only [admits, trimString_marks hmarks, h.count?_eq_none (c := '+') rfl [], hrange, hleast,
    decide_eq_true_eq]
  omega

end TextScript.Arity
