/-
TextScript/Proofs/Quoting.lean

What the literal of a text is read back as.

A code point is written as a plain character or as one escape, and either is read back as the scalar
value of the point, whatever follows it: `Written` says this once, and `point_written` that it holds
of every point.  Quoted bodies are then bodies without blocks (`nested_body`) that decode to their
scalar values (`decodePoints_body`).
-/
import TextScript.Literal.Escape
import TextScript.Literal.Quote
import TextScript.Proofs.Nesting

namespace TextScript

open Quote

/-! ### Points and characters -/

theorem scalarOf_pointOf (c : Char) : scalarOf (pointOf c) = c := by
  have hvalid : c.toNat.isValidChar := c.valid
  show (if c.toNat.isValidChar then Char.ofNat c.toNat else _) = c
  rw [if_pos hvalid, Char.ofNat_toNat]

theorem pointOf_scalarOf {k : Nat} (h : k.isValidChar) : pointOf (scalarOf k) = k := by
  show pointOf (if k.isValidChar then Char.ofNat k else _) = k
  rw [if_pos h, Char.ofNat, dif_pos h]
  rfl

/-- Only the replacement character is the scalar value of more than one point. -/
theorem eq_pointOf_of_scalarOf {n : Int} {c : Char} (h : scalarOf n = c) (hc : c ≠ '\uFFFD') :
    n = pointOf c := by
  cases n with
  | ofNat k =>
    by_cases hk : k.isValidChar
    · rw [← h]
      exact (pointOf_scalarOf hk).symm
    · have hrep : scalarOf (.ofNat k) = '\uFFFD' := if_neg hk
      exact absurd (h.symm.trans hrep) hc
  | negSucc k => exact absurd h.symm hc

/-! ### Written points -/

/-- How a code point is written: as a plain character, or as an escape that is read back as its
scalar value. -/
inductive Written (n : Int) : List Char → Prop
  | plain : scalarOf n ≠ '\\' → scalarOf n ≠ '"' → Written n [scalarOf n]
  | escape {c : Char} {ds : List Char} :
      (∀ d ∈ ds, d ≠ '\\' ∧ d ≠ '"' ∧ d ≠ '#') →
      (∀ rest, Escape.escape (c :: (ds ++ rest)) = .ok ⟨[pointOf (scalarOf n)], ds.length + 2⟩) →
      Written n ('\\' :: c :: ds)

theorem hexDigit_plain : ∀ d < 16,
    Numeral.hexDigit true d ≠ '\\' ∧ Numeral.hexDigit true d ≠ '"' ∧
      Numeral.hexDigit true d ≠ '#' := by
  decide

/-- The four digits of a control character are read back as its number. -/
theorem escape_control {k : Nat} (hk : k < 0x10000) (rest : List Char) :
    Escape.escape ('u' :: (Numeral.hex true 4 k ++ rest)) = .ok ⟨[(k : Int)], 6⟩ := by
  have hlead : Numeral.leading 16 4 (Numeral.hex true 4 k ++ rest)
      = [k / 16 / 16 / 16 % 16, k / 16 / 16 % 16, k / 16 % 16, k % 16] := by
    simp [Numeral.hex, Numeral.leading, Numeral.digit?_hexDigit, Nat.mod_lt]
  have hvalue :
      Numeral.value 16 [k / 16 / 16 / 16 % 16, k / 16 / 16 % 16, k / 16 % 16, k % 16] = k := by
    simp only [Numeral.value, List.foldl_cons, List.foldl_nil]
    omega
  simp only [Escape.escape, hlead, hvalue]
  rfl

theorem control_written {k : Nat} (hk : k < 0x80) : Written k (control k) := by
  refine .escape ?_ fun rest => ?_
  · intro d hd
    simp only [Numeral.hex, List.nil_append, List.cons_append, List.mem_cons, List.not_mem_nil,
      or_false] at hd
    rcases hd with rfl | rfl | rfl | rfl <;> exact hexDigit_plain _ (Nat.mod_lt _ (by decide))
  · rw [escape_control (by omega), pointOf_scalarOf (.inl (by omega))]
    rfl

/-- A hash is hidden exactly where it would begin a block. -/
theorem point_hash (rest : List Int) :
    point 0x23 rest = if rest.head? = some 0x7B then ['\\', '#'] else ['#'] := by
  cases rest with
  | nil => rfl
  | cons m ms =>
    by_cases hm : m = 0x7B
    · subst hm
      rfl
    · rw [List.head?_cons, if_neg fun h => hm (Option.some.inj h)]
      simp only [point, Int.reduceEq, if_false, if_true]
      split
      · next heq => exact absurd (List.cons.inj heq).1 hm
      · rfl

/-- Every code point is written so that it can be read back. -/
theorem point_written {n : Int} (hn : 0 ≤ n) (rest : List Int) : Written n (point n rest) := by
  -- the points with an escape of two characters
  by_cases hshort : n ∈ [0x22, 0x5C, 10, 9, 13, 12, 8]
  · simp only [List.mem_cons, List.not_mem_nil, or_false] at hshort
    rcases hshort with rfl | rfl | rfl | rfl | rfl | rfl | rfl <;>
      exact .escape (by simp) fun _ => rfl
  simp only [List.mem_cons, List.not_mem_nil, or_false, not_or] at hshort
  obtain ⟨hq, hb, h10, h9, h13, h12, h8⟩ := hshort
  by_cases hhash : n = 0x23
  · subst hhash
    rw [point_hash]
    split
    · exact .escape (by simp) fun _ => rfl
    · exact .plain (by decide) (by decide)
  -- all others are written by number if they are control characters, and plainly if not
  have hpoint : point n rest = if n < 0x20 ∨ n = 0x7F then control n else [scalarOf n] := by
    simp only [point, hq, hb, h10, h9, h13, h12, h8, hhash, if_false]
  rw [hpoint]
  split
  · obtain ⟨k, rfl⟩ := Int.eq_ofNat_of_zero_le hn
    exact control_written (by omega)
  · exact .plain (fun h => hb (eq_pointOf_of_scalarOf h (by decide)))
      (fun h => hq (eq_pointOf_of_scalarOf h (by decide)))

/-! ### Quoted bodies -/

variable {n : Int} {w tail : List Char} {p : Position}

theorem nested_of_plain {ds : List Char} (hds : ∀ d ∈ ds, d ≠ '\\' ∧ d ≠ '"' ∧ d ≠ '#')
    (ht : Nested .body 0 tail) : Nested .body 0 (ds ++ tail) := by
  induction ds with
  | nil => exact ht
  | cons d ds ih =>
    obtain ⟨hb, hq, hh⟩ := hds d List.mem_cons_self
    have hrest := ih fun e he => hds e (List.mem_cons_of_mem _ he)
    exact .bodyChar hb hq (fun hd => hh hd.1) hrest

/-- A written point may stand before a body, unless it is a bare hash that would begin a block. -/
theorem Written.nested (h : Written n w) (hsep : w = ['#'] → tail.head? ≠ some '{')
    (ht : Nested .body 0 tail) : Nested .body 0 (w ++ tail) := by
  cases h with
  | plain hb hq =>
    refine .bodyChar hb hq ?_ ht
    rintro ⟨hc, hh⟩
    exact hsep (by rw [hc]) hh
  | @escape c ds hplain _ => exact .bodyEscape c (nested_of_plain hplain ht)

/-- A written point begins with a brace only if it is one. -/
theorem Written.eq_brace (h : Written n w) (hw : (w ++ tail).head? = some '{') : n = 0x7B := by
  cases h with
  | plain => exact eq_pointOf_of_scalarOf (Option.some.inj hw) (by decide)
  | escape => cases hw

theorem Written.eq_hash (h : Written n w) (hw : w = ['#']) : n = 0x23 := by
  cases h with
  | plain => exact eq_pointOf_of_scalarOf (List.cons.inj hw).1 (by decide)
  | escape => cases hw

/-- A bare hash is never written before a brace. -/
theorem body_no_block {ns : List Int} (hn : 0 ≤ n) (hns : ∀ m ∈ ns, 0 ≤ m)
    (h : point n ns = ['#']) : (body ns).head? ≠ some '{' := by
  intro hbrace
  cases ns with
  | nil => cases hbrace
  | cons m ms =>
    obtain rfl := (point_written (hns m List.mem_cons_self) ms).eq_brace hbrace
    obtain rfl := (point_written hn _).eq_hash h
    cases h

/-- The quoted body of a text is a body without blocks. -/
theorem nested_body {ns : List Int} (hns : ∀ n ∈ ns, 0 ≤ n) : Nested .body 0 (body ns) := by
  induction ns with
  | nil => exact .bodyEnd
  | cons n ns ih =>
    have hn : 0 ≤ n := hns n List.mem_cons_self
    have hrest : ∀ m ∈ ns, 0 ≤ m := fun m hm => hns m (List.mem_cons_of_mem _ hm)
    exact (point_written hn ns).nested (body_no_block hn hrest) (ih hrest)

/-- A written point is decoded on its own. -/
theorem Written.decodePoints (h : Written n w) (p : Position) (rest : List Char) :
    Escape.decodePoints p (w ++ rest)
      = (Escape.decodePoints (p.advance w) rest).map (pointOf (scalarOf n) :: ·) := by
  cases h with
  | plain hb hq =>
    have hunit : Escape.unit (scalarOf n) rest = .ok ⟨[pointOf (scalarOf n)], 1⟩ := if_neg hb
    rw [List.singleton_append, Escape.decodePoints]
    split
    · next heq =>
      rw [hunit] at heq
      cases heq
    · next heq =>
      rw [hunit] at heq
      cases heq
      rfl
  | @escape c ds _ hread =>
    -- the escape is read the same way whatever follows it
    have hunit : Escape.unit '\\' (c :: (ds ++ rest)) = _ := hread rest
    rw [List.cons_append, List.cons_append, Escape.decodePoints]
    split
    · next heq =>
      rw [hunit] at heq
      cases heq
    · next heq =>
      rw [hunit] at heq
      cases heq
      simp

/-- Decoding the quoted body of a text gives the scalar values of its points. -/
theorem decodePoints_body {ns : List Int} (hns : ∀ n ∈ ns, 0 ≤ n) (p : Position) :
    Escape.decodePoints p (body ns) = .ok (ns.map fun n => pointOf (scalarOf n)) := by
  induction ns generalizing p with
  | nil =>
    rw [body, Escape.decodePoints]
    rfl
  | cons n ns ih =>
    have hrest : ∀ m ∈ ns, 0 ≤ m := fun m hm => hns m (List.mem_cons_of_mem _ hm)
    rw [body, (point_written (hns n List.mem_cons_self) ns).decodePoints, ih hrest]
    rfl

/-- A text of characters is what its quoted body decodes to. -/
theorem decodeAt_body_ofChars (cs : List Char) (p : Position) :
    Escape.decodeAt p (body (Text.ofChars cs).points) = .ok (Text.ofChars cs) := by
  have hns : ∀ n ∈ cs.map pointOf, 0 ≤ n := by
    intro n hn
    obtain ⟨c, -, rfl⟩ := List.mem_map.mp hn
    exact Int.natCast_nonneg _
  rw [Escape.decodeAt, Text.ofChars, decodePoints_body hns]
  simp [Except.map, scalarOf_pointOf]

end TextScript
