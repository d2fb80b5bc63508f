/-
TextScript/Proofs/RoundTrip.lean

Writing a text as a literal and reading the literal as a source.

The literal of a text is safe for every stage that looks at it.  To the scanner it is a body
without blocks, so the lexer makes one token of it, whatever characters stand next to each other.
To the reader of interpolations it is therefore one segment, and to the decoder a sequence of
written points.

What comes back is the text with each number that is no scalar value replaced, since such a number
has no character: the round trip is exact precisely for texts of scalar values.
-/
import TextScript.Proofs.Quoting
import TextScript.Proofs.Sources

namespace TextScript

open Quote

/-! ### Points that have no character -/

/-- A Unicode scalar value. -/
def IsScalar (n : Int) : Prop :=
  (0 ≤ n ∧ n < 0xD800) ∨ (0xDFFF < n ∧ n ≤ 0x10FFFF)

/-- A number that stands for no character: a surrogate, or one beyond the last character. -/
def Unwritable (n : Int) : Prop :=
  (0xD800 ≤ n ∧ n ≤ 0xDFFF) ∨ 0x10FFFF < n

instance (n : Int) : Decidable (IsScalar n) := inferInstanceAs (Decidable (_ ∨ _))

instance (n : Int) : Decidable (Unwritable n) := inferInstanceAs (Decidable (_ ∨ _))

/-- The text with every surrogate and every number beyond the last character replaced. -/
def Text.writable (t : Text) : Text :=
  ⟨t.points.map fun n => if Unwritable n then 0xFFFD else n⟩

variable {n : Int} {t : Text}

theorem isValidChar_iff (k : Nat) : k.isValidChar ↔ ¬Unwritable k := by
  unfold Nat.isValidChar Unwritable
  omega

/-- Writing a point as a character and numbering that character replaces the point if need be. -/
theorem pointOf_scalarOf_eq (hn : 0 ≤ n) :
    pointOf (scalarOf n) = if Unwritable n then 0xFFFD else n := by
  obtain ⟨k, rfl⟩ := Int.eq_ofNat_of_zero_le hn
  by_cases hk : Unwritable k
  · have hno : ¬k.isValidChar := fun h => (isValidChar_iff k).mp h hk
    have hrep : scalarOf k = '\uFFFD' := if_neg hno
    rw [if_pos hk, hrep]
    rfl
  · rw [if_neg hk]
    exact pointOf_scalarOf ((isValidChar_iff k).mpr hk)

/-- A point is kept exactly if it is a scalar value; the replacement is one. -/
theorem replaced_eq_iff (hn : 0 ≤ n) : (if Unwritable n then 0xFFFD else n) = n ↔ IsScalar n := by
  unfold IsScalar
  split
  · next h =>
    unfold Unwritable at h
    omega
  · next h =>
    unfold Unwritable at h
    omega

theorem writable_eq_iff (hpos : ∀ n ∈ t.points, 0 ≤ n) :
    t.writable = t ↔ ∀ n ∈ t.points, IsScalar n := by
  obtain ⟨ns⟩ := t
  have hmap : (Text.mk ns).writable = ⟨ns⟩ ↔
      (ns.map fun n => if Unwritable n then 0xFFFD else n) = ns.map id := by
    rw [List.map_id]
    exact ⟨fun h => congrArg Text.points h, fun h => congrArg Text.mk h⟩
  rw [hmap, List.map_inj_left]
  exact forall₂_congr fun n hn => replaced_eq_iff (hpos n hn)

/-! ### The literal of a text -/

theorem decodeAt_body (hpos : ∀ n ∈ t.points, 0 ≤ n) (p : Position) :
    Escape.decodeAt p (body t.points) = .ok t.writable := by
  have hmap : (t.points.map fun n => pointOf (scalarOf n))
      = t.points.map fun n => if Unwritable n then 0xFFFD else n :=
    List.map_congr_left fun n hn => pointOf_scalarOf_eq (hpos n hn)
  rw [Escape.decodeAt, decodePoints_body hpos, hmap]
  rfl

/-- A source that is one literal without blocks is read as its text. -/
theorem parse_plain_literal {cs : List Char} (o : ParseOptions) (hb : Nested .body 0 cs)
    (hd : ∀ q, Escape.decodeAt q cs = .ok t) :
    (Source.parse o ('"' :: (cs ++ ['"']))).toTraced.result
      = .ok [.text { kind := .text, lit := String.ofList cs, place := {} } t] := by
  have htokens := hb.tokens (fits_zero o.limit 0) {} []
  rw [tokens_nil] at htokens
  -- there is no embedded code, so it does not matter who would read it
  have hread : (Source.literals ('"' :: (cs ++ ['"'])).length o
      { kind := .text, lit := String.ofList cs, place := {} }).result
      = .ok (.text { kind := .text, lit := String.ofList cs, place := {} } t) :=
    read_plain rfl hb hd
  obtain ⟨hfail, hdone⟩ := ParseState.run_literal
    { kind := .eof, place := Position.advance {} ('"' :: (cs ++ ['"'])) } rfl rfl hread
  rw [Source.parse, Source.parseAt, parseLevels_run, htokens, Parsed.toTraced, ParseState.parsed,
    hfail, hdone]

/-- Quoting is undone by the whole front end.  The literal of a text is one token and is read as
one expression, a text and no interpolation; what stands between its quotes decodes to the same
value.  That value is the text with its surrogates and its numbers beyond the last character
replaced, so it is the text itself exactly if all of its points are scalar values. -/
theorem quoted_text_read_back (o : ParseOptions) (t : Text) (hpos : ∀ n ∈ t.points, 0 ≤ n) :
    (∃ tok last : Token, tok.kind = .text ∧ last.kind = .eof ∧
      Lexer.tokens o.limit {} (quote t).toList = [tok, last] ∧
      (Source.parse o (quote t).toList).toTraced.result = .ok [.text tok t.writable]) ∧
    Escape.decode ((quote t).toList.drop 1).dropLast = .ok t.writable ∧
    (t.writable = t ↔ ∀ n ∈ t.points, IsScalar n) := by
  have hbody : Nested .body 0 (body t.points) := nested_body hpos
  have hchars : (quote t).toList = '"' :: (body t.points ++ ['"']) := by
    rw [quote, String.toList_ofList]
    rfl
  have hinner : (('"' :: (body t.points ++ ['"'])).drop 1).dropLast = body t.points := by
    rw [List.drop_one, List.tail_cons, List.dropLast_concat]
  rw [hchars, hinner]
  have htokens := hbody.tokens (fits_zero o.limit 0) {} []
  rw [tokens_nil] at htokens
  refine ⟨⟨_, _, ?_, ?_, htokens, parse_plain_literal o hbody (decodeAt_body hpos)⟩,
    decodeAt_body hpos {}, writable_eq_iff hpos⟩
  · rfl
  · rfl

/-- A hash before a brace, a quote and a control character come back; a surrogate is replaced. -/
theorem quoted_text_read_back_surrogate :
    (∀ n ∈ (Text.mk [0x23, 0x7B, 0x22, 7, 0xD800]).points, 0 ≤ n) ∧
    Escape.decode ((quote ⟨[0x23, 0x7B, 0x22, 7, 0xD800]⟩).toList.drop 1).dropLast
      = .ok ⟨[0x23, 0x7B, 0x22, 7, 0xFFFD]⟩ ∧
    (Text.mk [0x23, 0x7B, 0x22, 7, 0xD800]).writable ≠ ⟨[0x23, 0x7B, 0x22, 7, 0xD800]⟩ := by
  have hpos : ∀ n ∈ (Text.mk [0x23, 0x7B, 0x22, 7, 0xD800]).points, 0 ≤ n := by decide
  obtain ⟨-, hdecode, hsame⟩ := quoted_text_read_back {} ⟨[0x23, 0x7B, 0x22, 7, 0xD800]⟩ hpos
  refine ⟨hpos, hdecode, fun h => ?_⟩
  have hscalar : IsScalar 0xD800 := hsame.mp h 0xD800 (by decide)
  exact absurd hscalar (by decide)

end TextScript
