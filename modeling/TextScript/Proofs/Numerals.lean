/-
TextScript/Proofs/Numerals.lean

Decimal numerals as sources, with a minus sign in front or without.

The parser takes the word of a numeral before it looks for a sign to fold into it, so the
magnitude alone decides: with or without a sign, a numeral is read exactly if its number is below
`2 ^ 63` (`isInteger_digits_iff`, `isInteger_negated_iff`).  The negative words reach one number
further, and so of all words written in decimal the least one is not read back.
-/
import TextScript.Proofs.WrittenForm

namespace TextScript.Source

open Lexer ParseState

variable {o : ParseOptions} {d src : List Char} {toks : List Token} {n : Int} {p : Position}
variable {f : Failure}

/-- The source is accepted, as one integer literal with this value. -/
def IsInteger (o : ParseOptions) (src : List Char) (n : Int) : Prop :=
  ∃ tok value, (parse o src).toTraced.result = .ok [.int tok value] ∧ value.toInt = n

/-- What a numeral that is no word fails with. -/
def outOfRange (digits : List Char) (p : Position) : Failure :=
  .unexpected ("integer \"" ++ String.ofList digits ++ "\" (out of range)") p

/-- The source is refused for the numeral with these digits, which stands at `p`. -/
def OutOfRange (o : ParseOptions) (src digits : List Char) (p : Position) : Prop :=
  (parse o src).toTraced.result = .error (outOfRange digits p)

theorem OutOfRange.not_isInteger (h : OutOfRange o src d p) : ¬IsInteger o src n := by
  rintro ⟨tok, value, hparse, -⟩
  cases h.symm.trans hparse

/-! ### The tokens of a numeral -/

/-- The token of a row of digits. -/
def numeral (d : List Char) (p : Position) : Token :=
  { kind := .int, lit := String.ofList d, place := p }

/-- The token of a minus sign. -/
def minus (p : Position) : Token :=
  { kind := .minus, lit := "-", place := p }

theorem tokens_digits (hne : d ≠ []) (hall : ∀ c ∈ d, c.isDigit = true) (limit : Int)
    (p : Position) :
    tokens limit p d = [numeral d p, { kind := .eof, place := p.advance d }] := by
  obtain ⟨c, cs, rfl⟩ := List.exists_cons_of_ne_nil hne
  have htokens : tokens limit p (c :: cs ++ []) = _ :=
    tokens_first cs (lexeme_digits hall stops_nil) rfl nofun p
  rw [List.append_nil, tokens_nil] at htokens
  exact htokens

theorem tokens_negated (hne : d ≠ []) (hall : ∀ c ∈ d, c.isDigit = true) (limit : Int)
    (p : Position) :
    tokens limit p ('-' :: d) =
      [minus p, numeral d (p.step '-'), { kind := .eof, place := p.advance ('-' :: d) }] := by
  have htokens : tokens limit p ('-' :: d) = _ :=
    tokens_first [] (mark_minus.alone limit d) rfl mark_minus.legal p
  rw [htokens, Position.advance_cons, Position.advance_nil, tokens_digits hne hall]
  rfl

/-! ### Numerals that are read -/

theorem isInteger_digits (hne : d ≠ []) (hall : ∀ c ∈ d, c.isDigit = true)
    (hfits : Nat.ofDigitChars 10 d 0 < 2 ^ 63) : IsInteger o d (Nat.ofDigitChars 10 d 0) := by
  have hint := integer?_digits hne hall
  rw [if_pos hfits] at hint
  have hterm : Term (literals d.length o) [numeral d {}] (.int (numeral d {}) _) :=
    .primary (.int rfl hint)
  exact ⟨_, _, hterm.parse rfl (tokens_digits hne hall o.limit {}),
    Int64.toInt_ofInt_of_le (by omega) (by omega)⟩

theorem isInteger_negated (hne : d ≠ []) (hall : ∀ c ∈ d, c.isDigit = true)
    (hfits : Nat.ofDigitChars 10 d 0 < 2 ^ 63) :
    IsInteger o ('-' :: d) (-Nat.ofDigitChars 10 d 0) := by
  have hint := integer?_digits hne hall
  rw [if_pos hfits] at hint
  have hterm : Term (literals ('-' :: d).length o) [minus {}, numeral d (Position.step {} '-')] _ :=
    .negative rfl rfl hint
  refine ⟨_, _, hterm.parse rfl (tokens_negated hne hall o.limit {}), ?_⟩
  rw [← Int64.ofInt_neg]
  exact Int64.toInt_ofInt_of_le (by omega) (by omega)

/-! ### Numerals out of range -/

theorem parse_failed (htokens : tokens o.limit {} src = toks)
    (h : (ParseState.run (literals src.length o) toks).stage = .failed f) :
    (parse o src).toTraced.result = .error f := by
  rw [parse, parseAt, parseLevels_run, htokens, Parsed.toTraced, ParseState.parsed,
    failure?_eq_some_iff.mpr h]

/-- Wherever an operand may begin, a numeral whose number is no word stops the parser. -/
theorem step_outOfRange (literal : Token → Traced Expr) {s : ParseState} (hs : s.stage = .start)
    (h : integer? (String.ofList d) = none) (p : Position) :
    (s.step literal (numeral d p)).stage = .failed (outOfRange d p) := by
  rw [step_int hs rfl, beginInteger, numeral, h]
  rfl

theorem outOfRange_digits (hne : d ≠ []) (hall : ∀ c ∈ d, c.isDigit = true)
    (hlarge : ¬Nat.ofDigitChars 10 d 0 < 2 ^ 63) : OutOfRange o d d {} := by
  have hint := integer?_digits hne hall
  rw [if_neg hlarge] at hint
  have hstep := step_outOfRange (literals d.length o) (s := {}) rfl hint {}
  refine parse_failed (tokens_digits hne hall o.limit {}) ?_
  rw [ParseState.run, List.foldl_cons, foldl_of_failed hstep]
  exact hstep

/-- The sign only waits when the parser stops at the numeral. -/
theorem outOfRange_negated (hne : d ≠ []) (hall : ∀ c ∈ d, c.isDigit = true)
    (hlarge : ¬Nat.ofDigitChars 10 d 0 < 2 ^ 63) :
    OutOfRange o ('-' :: d) d (Position.step {} '-') := by
  have hint := integer?_digits hne hall
  rw [if_neg hlarge] at hint
  have hsign : step (literals ('-' :: d).length o) {} (minus {}) =
      push {} (.unary (minus {}) .negate) :=
    step_sign rfl rfl
  have hstep := step_outOfRange (literals ('-' :: d).length o)
    (s := push {} (.unary (minus {}) .negate)) rfl hint (Position.step {} '-')
  refine parse_failed (tokens_negated hne hall o.limit {}) ?_
  rw [ParseState.run, List.foldl_cons, hsign, List.foldl_cons, foldl_of_failed hstep]
  exact hstep

/-! ### Words in decimal -/

theorem isInteger_digits_iff (hne : d ≠ []) (hall : ∀ c ∈ d, c.isDigit = true) :
    IsInteger o d (Nat.ofDigitChars 10 d 0) ↔ Nat.ofDigitChars 10 d 0 ≤ 2 ^ 63 - 1 := by
  constructor
  · intro h
    by_contra hlarge
    exact (outOfRange_digits hne hall (by omega)).not_isInteger h
  · exact fun h => isInteger_digits hne hall (by omega)

theorem isInteger_negated_iff (hne : d ≠ []) (hall : ∀ c ∈ d, c.isDigit = true) :
    IsInteger o ('-' :: d) (-Nat.ofDigitChars 10 d 0) ↔ Nat.ofDigitChars 10 d 0 ≤ 2 ^ 63 - 1 := by
  constructor
  · intro h
    by_contra hlarge
    exact (outOfRange_negated hne hall (by omega)).not_isInteger h
  · exact fun h => isInteger_negated hne hall (by omega)

/-- Of all words, the least is the one that is not read back from its decimal form. -/
theorem isInteger_toString_iff (o : ParseOptions) (n : Int64) :
    IsInteger o (toString n.toInt).toList n.toInt ↔ n ≠ Int64.minValue := by
  have hdigits (k : Nat) : ∀ c ∈ Nat.toDigits 10 k, c.isDigit = true := fun c hc =>
    Nat.isDigit_of_mem_toDigits (by decide) (by decide) hc
  have hleast : Int64.minValue.toInt = -2 ^ 63 := by decide
  rw [Ne, ← Int64.toInt_inj, hleast]
  -- the digits after the sign write one more than the `k` of `negSucc k`
  rcases Int.lt_or_le n.toInt 0 with hneg | hpos
  · obtain ⟨k, hn⟩ := Int.eq_negSucc_of_lt_zero hneg
    have hmin := n.le_toInt
    have h := isInteger_negated_iff (o := o) (d := Nat.toDigits 10 (k + 1)) Nat.toDigits_ne_nil
      (hdigits (k + 1))
    have hchars : (toString (Int.negSucc k)).toList = '-' :: Nat.toDigits 10 (k + 1) := by
      rw [← Nat.toList_repr]
      exact String.toList_append
    rw [Nat.ofDigitChars_ten_toDigits] at h
    rw [hn, hchars]
    exact h.trans (by rw [Int.negSucc_eq] at hn ⊢; omega)
  · obtain ⟨k, hn⟩ := Int.eq_ofNat_of_zero_le hpos
    have hmax := n.toInt_lt
    have h := isInteger_digits_iff (o := o) (d := Nat.toDigits 10 k) Nat.toDigits_ne_nil (hdigits k)
    have hchars : (toString (k : Int)).toList = Nat.toDigits 10 k := Nat.toList_repr
    rw [Nat.ofDigitChars_ten_toDigits] at h
    rw [hn, hchars]
    exact h.trans (by omega)

/-- A row of digits is read as its number, and with a minus sign in front as the negated number,
exactly if the number is at most `2 ^ 63 - 1`; otherwise either source is refused as out of range
at the digits.  The bound is the same with the sign as without it, so the decimal form of a word
is read as the word for every word but the least. -/
theorem numeral_read_iff_magnitude_fits (o : ParseOptions) (hne : d ≠ [])
    (hall : ∀ c ∈ d, c.isDigit = true) :
    (IsInteger o d (Nat.ofDigitChars 10 d 0) ↔ Nat.ofDigitChars 10 d 0 ≤ 2 ^ 63 - 1) ∧
    (IsInteger o ('-' :: d) (-Nat.ofDigitChars 10 d 0) ↔ Nat.ofDigitChars 10 d 0 ≤ 2 ^ 63 - 1) ∧
    (2 ^ 63 ≤ Nat.ofDigitChars 10 d 0 → OutOfRange o d d ⟨1, 1⟩ ∧
      OutOfRange o ('-' :: d) d ⟨1, 2⟩) ∧
    ∀ n : Int64, IsInteger o (toString n.toInt).toList n.toInt ↔ n ≠ Int64.minValue := by
  refine ⟨isInteger_digits_iff hne hall, isInteger_negated_iff hne hall, fun hlarge => ⟨?_, ?_⟩,
    isInteger_toString_iff o⟩
  · exact outOfRange_digits hne hall (by omega)
  · exact outOfRange_negated hne hall (by omega)

/-- The digits of `2 ^ 63`: no word has this number, but one has its negation. -/
theorem numeral_read_iff_magnitude_fits_least :
    let d := "9223372036854775808".toList
    (∀ c ∈ d, c.isDigit = true) ∧ Nat.ofDigitChars 10 d 0 = 2 ^ 63 ∧
      Numeral.fitsWord (-9223372036854775808) = true ∧ OutOfRange {} ('-' :: d) d ⟨1, 2⟩ ∧
      ¬IsInteger {} ('-' :: d) (-9223372036854775808) := by
  intro d
  have hall : ∀ c ∈ d, c.isDigit = true := List.all_eq_true.mp (by decide +kernel)
  have hvalue : Nat.ofDigitChars 10 d 0 = 2 ^ 63 := by decide +kernel
  obtain ⟨-, -, hlarge, -⟩ := numeral_read_iff_magnitude_fits {} (d := d) (by decide +kernel) hall
  obtain ⟨-, hrefused⟩ := hlarge (Nat.le_of_eq hvalue.symm)
  exact ⟨hall, hvalue, by decide, hrefused, hrefused.not_isInteger⟩

end TextScript.Source
