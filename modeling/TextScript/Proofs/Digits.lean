/-
TextScript/Proofs/Digits.lean

Decimal numerals.

A row of digits is read as the number that it writes, whatever zeros it begins with
(`natural?_digits`), and an integer is read back from its decimal text (`integer?_toString`), so
different integers have different texts.
-/
import Mathlib.Algebra.Group.Nat.Defs
import TextScript.Numeral

namespace TextScript

variable {c : Char} {cs : List Char}

/-! ### Rows of digits -/

theorem digit?_isDigit (h : c.isDigit = true) :
    Numeral.digit? 10 c = some (c.toNat - '0'.toNat) := by
  have hbounds : '0' ≤ c ∧ c ≤ '9' := by simpa [Char.isDigit, Char.le_def] using h
  have hsmall : c.toNat - '0'.toNat < 10 := by
    have hle : c.toNat ≤ '9'.toNat := UInt32.le_iff_toNat_le.mp hbounds.2
    have hnine : '9'.toNat = '0'.toNat + 9 := rfl
    omega
  simp only [Numeral.digit?, Numeral.digitValue?, if_pos hbounds, if_pos hsmall]

theorem mapM_digit? (h : ∀ c ∈ cs, c.isDigit = true) :
    cs.mapM (Numeral.digit? 10) = some (cs.map fun c => c.toNat - '0'.toNat) := by
  induction cs with
  | nil => rfl
  | cons c cs ih =>
    obtain ⟨hc, hrest⟩ := List.forall_mem_cons.mp h
    rw [List.mapM_cons, digit?_isDigit hc, ih hrest]
    rfl

/-- Digits are read as the number that they write. -/
theorem natural?_digits (hne : cs ≠ []) (hall : ∀ d ∈ cs, d.isDigit = true) :
    Numeral.natural? 10 cs = some (Nat.ofDigitChars 10 cs 0) := by
  have hfull : ¬cs.isEmpty = true := by simpa using hne
  rw [Numeral.natural?, if_neg hfull, mapM_digit? hall, Option.map_some, Numeral.value,
    List.foldl_map, Nat.ofDigitChars_eq_foldl]
  simp only [Nat.mul_comm]

theorem fitsWord_natCast (n : Nat) : Numeral.fitsWord n = true ↔ n < 2 ^ 63 := by
  have hmin : Int64.minValue.toInt = -2 ^ 63 := by decide
  have hmax : Int64.maxValue.toInt = 2 ^ 63 - 1 := by decide
  simp only [Numeral.fitsWord, Bool.and_eq_true, decide_eq_true_eq, hmin, hmax]
  omega

/-! ### Integers -/

/-- Characters that begin with a digit have no sign in front. -/
theorem integer?_unsigned (hc : c.isDigit = true) (cs : List Char) :
    Numeral.integer? (c :: cs) = (Numeral.natural? 10 (c :: cs)).map fun n => (n : Int) := by
  have hminus : c ≠ '-' := by
    rintro rfl
    cases hc
  have hplus : c ≠ '+' := by
    rintro rfl
    cases hc
  unfold Numeral.integer?
  split
  · next heq => exact absurd (List.cons.inj heq).1 hminus
  · next heq => exact absurd (List.cons.inj heq).1 hplus
  · rfl

theorem natural?_toDigits (n : Nat) : Numeral.natural? 10 (Nat.toDigits 10 n) = some n := by
  rw [natural?_digits Nat.toDigits_ne_nil fun c hc =>
    Nat.isDigit_of_mem_toDigits (by decide) (by decide) hc, Nat.ofDigitChars_ten_toDigits]

/-- An integer is read back from its decimal text. -/
theorem integer?_toString (n : Int) : Numeral.integer? (toString n).toList = some n := by
  cases n with
  | ofNat n =>
    have hchars : (toString (Int.ofNat n)).toList = Nat.toDigits 10 n := Nat.toList_repr
    have hread := natural?_toDigits n
    rw [hchars]
    obtain ⟨c, cs, hcs⟩ := List.exists_cons_of_ne_nil (Nat.toDigits_ne_nil (n := n) (b := 10))
    have hdigit : c.isDigit = true :=
      Nat.isDigit_of_mem_toDigits (by decide) (by decide) (hcs ▸ List.mem_cons_self)
    rw [hcs] at hread ⊢
    rw [integer?_unsigned hdigit, hread]
    rfl
  | negSucc n =>
    have hchars : (toString (Int.negSucc n)).toList = '-' :: Nat.toDigits 10 (n + 1) := by
      show ("-" ++ Nat.repr (n + 1)).toList = _
      rw [String.toList_append, Nat.toList_repr]
      rfl
    rw [hchars, Numeral.integer?, natural?_toDigits]
    rfl

end TextScript
