/-
TextScript/Proofs/Escapes.lean

The body of a literal is read unit by unit.

`IsUnit w v rest` says that in front of `rest` the characters `w` are one unit, which stands for
the code points `v`.  What follows matters twice: an octal escape goes on as long as it may, and a
carriage return takes the line feed behind it.  Each unit is what the decoder takes off at once,
and the other way round (`IsUnit.unit`, `isUnit_of_unit`), so that a whole body decodes if and
only if it is a sequence of units (`AreUnits.decodePoints`, `areUnits_of_decodePoints`).

Reading breaks off only at a backslash, since any other character is a unit of its own.  The first
backslash that begins no unit is where decoding fails, whatever stands behind it.
-/
import Mathlib.Data.List.Forall2
import Mathlib.Data.Nat.Digits.Defs
import TextScript.Proofs.Segments

namespace TextScript

namespace Escape

/-! ### Units -/

/-- The digits up to sixteen, with small letters. -/
def smallDigits : List Char :=
  ['0', '1', '2', '3', '4', '5', '6', '7', '8', '9', 'a', 'b', 'c', 'd', 'e', 'f']

/-- The digits up to sixteen, with capital letters. -/
def capitalDigits : List Char :=
  ['0', '1', '2', '3', '4', '5', '6', '7', '8', '9', 'A', 'B', 'C', 'D', 'E', 'F']

/-- `IsDigit base c d`: the character `c` is the digit `d` of a base up to sixteen, in either
case. -/
def IsDigit (base : Nat) (c : Char) (d : Nat) : Prop :=
  d < base ∧ (smallDigits[d]? = some c ∨ capitalDigits[d]? = some c)

/-- The number that digits write, the leading one first. -/
def number (base : Nat) (ds : List Nat) : Nat :=
  Nat.ofDigits base ds.reverse

/-- `Numbers base most cs ds rest`: in front of `rest` the characters `cs` are the digits `ds`, at
most `most` of them, and as many as there are. -/
def Numbers (base most : Nat) (cs : List Char) (ds : List Nat) (rest : List Char) : Prop :=
  List.Forall₂ (IsDigit base) cs ds ∧ cs.length ≤ most ∧
    (cs.length < most → ∀ c ∈ rest.head?, ∀ d, ¬IsDigit base c d)

/-- What follows a backslash in the escapes of one character, with the code point that each stands
for. -/
def named : List (Char × Int) :=
  [('b', 8), ('t', 9), ('n', 10), ('f', 12), ('r', 13), ('"', 0x22), ('#', 0x23), ('\\', 0x5C)]

/-- How many digits an octal escape may have, given its first. -/
def octalMost (first : Nat) : Nat :=
  if first ≤ 3 then 3 else 2

/-- `IsUnit w v rest`: in front of `rest` the characters `w` are one unit, which stands for the
code points `v`. -/
inductive IsUnit : List Char → List Int → List Char → Prop
  | plain {c : Char} (rest : List Char) : c ≠ '\\' → IsUnit [c] [(c.toNat : Int)] rest
  | named {c : Char} {n : Int} (rest : List Char) : (c, n) ∈ named → IsUnit ['\\', c] [n] rest
  | lineFeed (rest : List Char) : IsUnit ['\\', '\n'] [] rest
  | returnFeed (rest : List Char) : IsUnit ['\\', '\r', '\n'] [] rest
  | carriageReturn {rest : List Char} : rest.head? ≠ some '\n' → IsUnit ['\\', '\r'] [] rest
  | unicode {cs : List Char} {ds : List Nat} (rest : List Char) :
      List.Forall₂ (IsDigit 16) cs ds → cs.length = 4 →
      IsUnit ('\\' :: 'u' :: cs) [(number 16 ds : Int)] rest
  | octal {cs rest : List Char} {first : Nat} {more : List Nat} :
      Numbers 8 (octalMost first) cs (first :: more) rest →
      IsUnit ('\\' :: cs) [(number 8 (first :: more) : Int)] rest

/-- `AreUnits w v rest`: in front of `rest` the characters `w` are units, which stand for the code
points `v` together. -/
inductive AreUnits : List Char → List Int → List Char → Prop
  | nil (rest : List Char) : AreUnits [] [] rest
  | cons {w cs rest : List Char} {v ns : List Int} : IsUnit w v (cs ++ rest) → AreUnits cs ns rest →
      AreUnits (w ++ cs) (v ++ ns) rest

/-- A unit begins here. -/
def BeginsUnit (cs : List Char) : Prop :=
  ∃ w v rest, cs = w ++ rest ∧ IsUnit w v rest

/-- `BreaksOff raw pre rest`: behind `pre`, which is all units, stands a backslash that begins
none, and `rest` behind it. -/
def BreaksOff (raw pre rest : List Char) : Prop :=
  raw = pre ++ '\\' :: rest ∧ (∃ ns, AreUnits pre ns ('\\' :: rest)) ∧ ¬BeginsUnit ('\\' :: rest)

variable {c : Char} {cs w rest raw pre : List Char} {v ns : List Int} {ds : List Nat} {p : Position}
variable {base most d : Nat}

/-! ### Digits -/

theorem digit?_of_isDigit (hbase : base ≤ 16) (h : IsDigit base c d) :
    Numeral.digit? base c = some d := by
  obtain ⟨hlt, hchar⟩ := h
  have hsmall : ∀ d < 16, smallDigits[d]?.bind Numeral.digitValue? = some d := by decide
  have hcapital : ∀ d < 16, capitalDigits[d]?.bind Numeral.digitValue? = some d := by decide
  have hd : d < 16 := Nat.lt_of_lt_of_le hlt hbase
  have hvalue : Numeral.digitValue? c = some d := by
    rcases hchar with hc | hc
    · rw [← hsmall d hd, hc, Option.bind_some]
    · rw [← hcapital d hd, hc, Option.bind_some]
  rw [Numeral.digit?, hvalue]
  exact if_pos hlt

/-- Digits are among the first characters. -/
theorem toNat_lt_of_digitValue? (h : Numeral.digitValue? c = some d) : c.toNat < 128 := by
  have hle {e : Char} (he : c ≤ e) : c.toNat ≤ e.toNat := UInt32.le_iff_toNat_le.mp he
  unfold Numeral.digitValue? at h
  split at h
  · next hc => exact Nat.lt_of_le_of_lt (hle hc.2) (by decide)
  · split at h
    · next hc => exact Nat.lt_of_le_of_lt (hle hc.2) (by decide)
    · split at h
      · next hc => exact Nat.lt_of_le_of_lt (hle hc.2) (by decide)
      · cases h

theorem isDigit_of_digit? (h : Numeral.digit? base c = some d) : IsDigit base c d := by
  have hall : ∀ n < 128, ∀ d ∈ Numeral.digitValue? (Char.ofNat n),
      smallDigits[d]? = some (Char.ofNat n) ∨ capitalDigits[d]? = some (Char.ofNat n) := by decide
  unfold Numeral.digit? at h
  split at h
  · next e hvalue =>
    split at h
    · next hlt =>
      cases h
      have hc := hall c.toNat (toNat_lt_of_digitValue? hvalue) d
      rw [Char.ofNat_toNat] at hc
      exact ⟨hlt, hc hvalue⟩
    · cases h
  · cases h

/-- The digits at the start, and what follows them. -/
theorem numbers_leading (hbase : base ≤ 16) (most : Nat) (cs : List Char) :
    Numbers base most (cs.take (Numeral.leading base most cs).length) (Numeral.leading base most cs)
      (cs.drop (Numeral.leading base most cs).length) := by
  fun_induction Numeral.leading base most cs with
  | case1 most c cs v hv ih =>
    obtain ⟨hdigits, hle, hstop⟩ := ih
    rw [List.length_cons, List.take_succ_cons, List.drop_succ_cons]
    refine ⟨.cons (isDigit_of_digit? hv) hdigits, Nat.succ_le_succ hle, fun hlt => ?_⟩
    exact hstop (Nat.lt_of_succ_lt_succ hlt)
  | case2 most c cs hnone =>
    refine ⟨.nil, Nat.zero_le _, fun _ e he d hd => ?_⟩
    cases he
    rw [digit?_of_isDigit hbase hd] at hnone
    cases hnone
  | case3 most cs hend =>
    refine ⟨.nil, Nat.zero_le _, fun hlt e he => ?_⟩
    -- either there is no character left, or none may be taken
    cases cs with
    | nil => cases he
    | cons c cs =>
      obtain ⟨k, rfl⟩ : ∃ k, most = k + 1 := ⟨most - 1, by simp at hlt; omega⟩
      exact absurd rfl (hend k c cs rfl)

theorem Numbers.leading (hbase : base ≤ 16) (h : Numbers base most w ds rest) :
    Numeral.leading base most (w ++ rest) = ds := by
  obtain ⟨hdigits, hle, hstop⟩ := h
  induction hdigits generalizing most with
  | nil =>
    cases rest with
    | nil => cases most <;> rfl
    | cons c rest =>
      cases most with
      | zero => rfl
      | succ most =>
        rw [List.nil_append, Numeral.leading]
        cases hdigit : Numeral.digit? base c with
        | none => rfl
        | some d => exact absurd (isDigit_of_digit? hdigit) (hstop (Nat.succ_pos _) c rfl d)
  | @cons c d w ds hc _ ih =>
    obtain ⟨most, rfl⟩ : ∃ k, most = k + 1 := ⟨most - 1, by simp at hle; omega⟩
    rw [List.cons_append, Numeral.leading, digit?_of_isDigit hbase hc]
    refine congrArg (d :: ·) (ih (Nat.le_of_succ_le_succ hle) fun hlt => hstop ?_)
    exact Nat.succ_lt_succ hlt

theorem value_eq_number (base : Nat) (ds : List Nat) : Numeral.value base ds = number base ds := by
  rw [number, Nat.ofDigits_eq_foldr, List.foldr_reverse, Numeral.value]
  simp only [Nat.cast_id, Nat.mul_comm, Nat.add_comm]

theorem digits_lt (h : List.Forall₂ (IsDigit base) w ds) : ∀ d ∈ ds, d < base := by
  induction h with
  | nil => exact List.forall_mem_nil _
  | cons hd _ ih => exact List.forall_mem_cons.mpr ⟨hd.1, ih⟩

theorem number_cons (base d : Nat) (ds : List Nat) :
    number base (d :: ds) = number base ds + base ^ ds.length * d := by
  rw [number, List.reverse_cons, Nat.ofDigits_append, Nat.ofDigits_singleton, List.length_reverse]
  rfl

/-- An octal escape fits a byte: it has three digits only if the first is small. -/
theorem Numbers.octal_le {first : Nat} {more : List Nat}
    (h : Numbers 8 (octalMost first) w (first :: more) rest) : number 8 (first :: more) ≤ 255 := by
  obtain ⟨hdigits, hle, -⟩ := h
  obtain ⟨hfirst, hmore⟩ := List.forall_mem_cons.mp (digits_lt hdigits)
  have hbelow : number 8 more < 8 ^ more.length :=
    Nat.ofDigits_lt_base_pow_length' (by simpa using hmore) |>.trans_eq
      (by rw [List.length_reverse])
  rw [hdigits.length_eq, List.length_cons, octalMost] at hle
  rw [number_cons]
  split at hle
  · have hpow : 8 ^ more.length ≤ 8 ^ 2 := Nat.pow_le_pow_right (by decide) (by omega)
    have hscaled : 8 ^ more.length * first ≤ 8 ^ 2 * 3 := Nat.mul_le_mul hpow (by assumption)
    omega
  · have hpow : 8 ^ more.length ≤ 8 ^ 1 := Nat.pow_le_pow_right (by decide) (by omega)
    have hscaled : 8 ^ more.length * first ≤ 8 ^ 1 * 7 := Nat.mul_le_mul hpow (by omega)
    omega

/-! ### One unit -/

/-- Octal digits have no letters, and so no case. -/
theorem IsDigit.octal (h : IsDigit 8 c d) : smallDigits[d]? = some c := by
  obtain ⟨hlt, hchar⟩ := h
  have hcase : ∀ d < 8, capitalDigits[d]? = smallDigits[d]? := by decide
  rcases hchar with hc | hc
  · exact hc
  · rwa [hcase d hlt] at hc

theorem octalReach_eq (h : IsDigit 8 c d) : octalReach c = octalMost d := by
  have hall : ∀ d < 8, smallDigits[d]?.map octalReach = some (octalMost d) := by decide
  have hreach := hall d h.1
  rwa [h.octal, Option.map_some, Option.some.injEq] at hreach

/-- An octal digit begins none of the other escapes. -/
theorem escape_octal {first : Nat} {more : List Nat} (h : IsDigit 8 c first)
    (hread : Numeral.leading 8 (octalMost first) (c :: cs) = first :: more) :
    escape (c :: cs) = .ok ⟨[(number 8 (first :: more) : Int)], more.length + 2⟩ := by
  rw [← octalReach_eq h] at hread
  have hc : c ∈ ['0', '1', '2', '3', '4', '5', '6', '7'] := by
    have hget := h.octal
    rw [← List.getElem?_take_of_lt h.1] at hget
    exact List.mem_of_getElem? hget
  have hescape : escape (c :: cs) = (if (Numeral.leading 8 (octalReach c) (c :: cs)).isEmpty
      then .error (.unknown (some c))
      else .ok ⟨[(Numeral.value 8 (Numeral.leading 8 (octalReach c) (c :: cs)) : Int)],
        (Numeral.leading 8 (octalReach c) (c :: cs)).length + 1⟩) := by
    simp only [List.mem_cons, List.not_mem_nil, or_false] at hc
    rcases hc with rfl | rfl | rfl | rfl | rfl | rfl | rfl | rfl <;> rfl
  rw [hescape, hread, value_eq_number]
  rfl

/-- The decoder takes a unit off at once. -/
theorem IsUnit.unit (h : IsUnit w v rest) :
    ∃ c tail, w = c :: tail ∧ Escape.unit c (tail ++ rest) = .ok ⟨v, w.length⟩ := by
  cases h with
  | @plain c rest hc => exact ⟨c, [], rfl, if_neg hc⟩
  | @named c n rest hmem =>
    refine ⟨'\\', [c], rfl, ?_⟩
    simp only [Escape.named, List.mem_cons, Prod.mk.injEq, List.not_mem_nil, or_false] at hmem
    rcases hmem with ⟨rfl, rfl⟩ | ⟨rfl, rfl⟩ | ⟨rfl, rfl⟩ | ⟨rfl, rfl⟩ | ⟨rfl, rfl⟩ | ⟨rfl, rfl⟩ |
      ⟨rfl, rfl⟩ | ⟨rfl, rfl⟩ <;> rfl
  | lineFeed rest => exact ⟨'\\', ['\n'], rfl, rfl⟩
  | returnFeed rest => exact ⟨'\\', ['\r', '\n'], rfl, rfl⟩
  | carriageReturn hrest =>
    refine ⟨'\\', ['\r'], rfl, ?_⟩
    show escape ('\r' :: rest) = _
    unfold escape
    simp only
    -- a line feed behind it would belong to the unit
    split
    · exact absurd rfl hrest
    · rfl
  | @unicode cs ds rest hdigits hlen =>
    refine ⟨'\\', 'u' :: cs, rfl, ?_⟩
    have hnumbers : Numbers 16 4 cs ds rest := ⟨hdigits, Nat.le_of_eq hlen, fun hlt => by omega⟩
    have hread := hnumbers.leading (by decide)
    have hcount : ds.length = 4 := hdigits.length_eq.symm.trans hlen
    show escape ('u' :: (cs ++ rest)) = _
    unfold escape
    simp only [hread]
    rw [if_pos hcount, value_eq_number, List.length_cons, List.length_cons, hlen]
  | @octal cs rest first more hnumbers =>
    refine ⟨'\\', cs, rfl, ?_⟩
    have hread := hnumbers.leading (by decide)
    obtain ⟨hdigits, -, -⟩ := hnumbers
    cases hdigits with
    | @cons c _ cs _ hfirst hmore =>
      rw [List.cons_append] at hread
      show escape (c :: (cs ++ rest)) = _
      rw [escape_octal hfirst hread, List.length_cons, List.length_cons, hmore.length_eq]

theorem isUnit_of_escape {u : Glyph} (h : escape cs = .ok u) :
    IsUnit (('\\' :: cs).take u.size) u.value (('\\' :: cs).drop u.size) := by
  revert h
  fun_cases escape cs
  case case10 cs =>
    rintro ⟨⟩
    exact .lineFeed cs
  case case11 cs =>
    rintro ⟨⟩
    exact .returnFeed cs
  case case12 cs hfeed =>
    rintro ⟨⟩
    refine .carriageReturn fun hhead => ?_
    obtain ⟨tail, htail⟩ := List.head?_eq_some_iff.mp hhead
    exact hfeed tail htail
  case case13 cs ds hlen =>
    rintro ⟨⟩
    obtain ⟨hdigits, -, -⟩ := numbers_leading (show 16 ≤ 16 by decide) 4 cs
    rw [value_eq_number]
    refine .unicode (cs.drop 4) ?_ ?_
    · rwa [hlen] at hdigits
    · have hcount := hdigits.length_eq
      rwa [hlen] at hcount
  case case16 cs c hb ht hn hf hr hq hh hs hl hc hu ds hsome =>
    rintro ⟨⟩
    obtain ⟨first, more, hds⟩ : ∃ first more, ds = first :: more := by
      cases hds : ds with
      | nil => exact absurd (by rw [hds]; rfl) hsome
      | cons first more => exact ⟨first, more, rfl⟩
    have hnumbers := numbers_leading (show 8 ≤ 16 by decide) (octalReach c) (c :: cs)
    rw [show Numeral.leading 8 (octalReach c) (c :: cs) = ds from rfl, hds] at hnumbers
    have hfirst : IsDigit 8 c first := by
      obtain ⟨hdigits, -, -⟩ := hnumbers
      rw [List.length_cons, List.take_succ_cons] at hdigits
      exact (List.forall₂_cons.mp hdigits).1
    rw [value_eq_number, hds]
    rw [octalReach_eq hfirst] at hnumbers
    exact .octal hnumbers
  case case1 | case14 | case15 => rintro ⟨⟩
  -- the other escapes have one character behind the backslash and stand for one code point
  all_goals
    rintro ⟨⟩
    exact .named _ (by decide)

/-- What the decoder takes off at once is a unit. -/
theorem isUnit_of_unit {u : Glyph} (h : Escape.unit c cs = .ok u) :
    IsUnit ((c :: cs).take u.size) u.value ((c :: cs).drop u.size) := by
  unfold Escape.unit at h
  split at h
  · next hc =>
    subst hc
    exact isUnit_of_escape h
  · next hc =>
    cases h
    exact .plain cs hc

/-! ### All units -/

/-- A unit at the front is decoded on its own. -/
theorem IsUnit.decodePoints (h : IsUnit w v rest) (p : Position) :
    Escape.decodePoints p (w ++ rest) = (Escape.decodePoints (p.advance w) rest).map (v ++ ·) := by
  obtain ⟨c, tail, rfl, hunit⟩ := h.unit
  rw [List.cons_append, Escape.decodePoints]
  split
  · next heq =>
    rw [hunit] at heq
    cases heq
  · next heq =>
    rw [hunit] at heq
    cases heq
    dsimp only
    rw [← List.cons_append, List.take_left, List.drop_left]

/-- Units at the front are decoded on their own. -/
theorem AreUnits.decodePoints (h : AreUnits w v rest) (p : Position) :
    Escape.decodePoints p (w ++ rest) = (Escape.decodePoints (p.advance w) rest).map (v ++ ·) := by
  induction h generalizing p with
  | nil rest =>
    rw [List.nil_append, Position.advance_nil]
    cases Escape.decodePoints p rest <;> rfl
  | @cons w cs rest v ns hunit _ ih =>
    rw [List.append_assoc, hunit.decodePoints, ih, Position.advance_append]
    cases Escape.decodePoints ((p.advance w).advance cs) rest with
    | error f => rfl
    | ok more => exact congrArg Except.ok (List.append_assoc v ns more).symm

/-- What is decoded is all units. -/
theorem areUnits_of_decodePoints (h : Escape.decodePoints p cs = .ok v) : AreUnits cs v [] := by
  fun_induction Escape.decodePoints p cs generalizing v with
  | case1 =>
    cases h
    exact .nil []
  | case2 => cases h
  | case3 p c rest u hu ih =>
    obtain ⟨ns, hns, rfl⟩ := map_eq_ok.mp h
    have hunit := isUnit_of_unit hu
    have hwhole := AreUnits.cons (by rwa [List.append_nil]) (ih hns)
    rwa [List.take_append_drop] at hwhole

theorem areUnits_iff : AreUnits raw ns [] ↔ Escape.decodePoints p raw = .ok ns := by
  constructor
  · intro h
    have hdecode := h.decodePoints p
    rw [List.append_nil, Escape.decodePoints] at hdecode
    rw [hdecode]
    exact congrArg Except.ok (List.append_nil ns)
  · exact areUnits_of_decodePoints

/-! ### Where reading breaks off -/

theorem beginsUnit_iff : BeginsUnit (c :: cs) ↔ ∃ u, Escape.unit c cs = .ok u := by
  constructor
  · rintro ⟨w, v, rest, hcut, hunit⟩
    obtain ⟨d, tail, rfl, hread⟩ := hunit.unit
    rw [List.cons_append] at hcut
    obtain ⟨rfl, rfl⟩ := List.cons.inj hcut
    exact ⟨_, hread⟩
  · rintro ⟨u, hu⟩
    exact ⟨_, _, _, (List.take_append_drop u.size (c :: cs)).symm, isUnit_of_unit hu⟩

/-- Decoding that fails breaks off. -/
theorem breaksOff_of_decodePoints {f : Failure} (h : Escape.decodePoints p cs = .error f) :
    ∃ pre rest, BreaksOff cs pre rest := by
  fun_induction Escape.decodePoints p cs with
  | case1 => cases h
  | case2 p c rest fault hunit =>
    have hc : c = '\\' := by
      unfold Escape.unit at hunit
      split at hunit
      · assumption
      · cases hunit
    subst hc
    refine ⟨[], rest, rfl, ⟨[], .nil _⟩, fun hbegins => ?_⟩
    obtain ⟨u, hu⟩ := beginsUnit_iff.mp hbegins
    rw [hunit] at hu
    cases hu
  | case3 p c rest u hu ih =>
    obtain ⟨pre, after, hcut, ⟨ns, hns⟩, hbad⟩ := ih (map_eq_error.mp h)
    have hunit := isUnit_of_unit hu
    rw [hcut] at hunit
    refine ⟨(c :: rest).take u.size ++ pre, after, ?_, ⟨_, .cons hunit hns⟩, hbad⟩
    rw [List.append_assoc, ← hcut, List.take_append_drop]

/-- The cause goes by the character behind the backslash. -/
theorem escape_fault {fault : Fault} (h : escape cs = .error fault) :
    (∃ digits, fault = .shortUnicode digits ∧ cs.head? = some 'u') ∨
      ∃ e, fault = .unknown e ∧ cs.head? ≠ some 'u' := by
  revert h
  fun_cases escape cs
  case case1 =>
    rintro ⟨⟩
    exact .inr ⟨_, rfl, by simp⟩
  case case14 =>
    rintro ⟨⟩
    exact .inl ⟨_, rfl, rfl⟩
  case case15 hu _ _ =>
    rintro ⟨⟩
    exact .inr ⟨_, rfl, fun hhead => hu (Option.some.inj hhead)⟩
  all_goals rintro ⟨⟩

/-- Where reading breaks off, decoding fails at the backslash. -/
theorem BreaksOff.decodePoints (h : BreaksOff raw pre rest) (p : Position) :
    ∃ fault, escape rest = .error fault ∧
      Escape.decodePoints p raw = .error (fault.failure (p.advance pre)) := by
  obtain ⟨rfl, ⟨ns, hns⟩, hbad⟩ := h
  rw [hns.decodePoints p, Escape.decodePoints]
  split
  · next fault heq => exact ⟨fault, heq, rfl⟩
  · next u heq => exact absurd (beginsUnit_iff.mpr ⟨u, heq⟩) hbad

end Escape

open Escape

/-- A body decodes exactly if it is a sequence of units, to what they stand for together; a unit
of octal digits stands for a byte.  Otherwise reading breaks off at the first backslash that
begins no unit, and decoding gives no text but a failure at the place of that backslash: a
malformed Unicode escape if a `u` follows and an unknown escape if not, and to be tested for as an
unknown escape in both cases. -/
theorem body_decoded_by_units (p : Position) (raw : List Char) :
    (∀ t : Text, decodeAt p raw = .ok t ↔ AreUnits raw t.points []) ∧
      ((¬∃ ns, AreUnits raw ns []) ↔ ∃ pre rest, BreaksOff raw pre rest) ∧
      (∀ pre rest, BreaksOff raw pre rest → ∃ f r, decodeAt p raw = .error f ∧ f.report? = some r ∧
        r.place = p.advance pre ∧
        r.code = (if rest.head? = some 'u' then .malformedUnicodeEscape else .unknownEscape) ∧
        f.hasCode .unknownEscape = true) ∧
      ∀ first more cs rest, Numbers 8 (octalMost first) cs (first :: more) rest →
        number 8 (first :: more) ≤ 255 := by
  refine ⟨?_, ?_, ?_, fun _ _ _ _ h => h.octal_le⟩
  · rintro ⟨ns⟩
    rw [areUnits_iff (p := p), decodeAt, map_eq_ok]
    constructor
    · rintro ⟨ms, hms, ⟨⟩⟩
      exact hms
    · intro h
      exact ⟨ns, h, rfl⟩
  · constructor
    · intro hno
      cases hdecode : Escape.decodePoints p raw with
      | ok ns => exact absurd ⟨ns, areUnits_of_decodePoints hdecode⟩ hno
      | error f => exact breaksOff_of_decodePoints hdecode
    · rintro ⟨pre, rest, hbreak⟩ ⟨ns, hns⟩
      obtain ⟨fault, -, hfails⟩ := hbreak.decodePoints p
      rw [areUnits_iff.mp hns] at hfails
      cases hfails
  · intro pre rest hbreak
    obtain ⟨fault, hescape, hfails⟩ := hbreak.decodePoints p
    refine ⟨fault.failure (p.advance pre), ?_⟩
    have hat : decodeAt p raw = .error (fault.failure (p.advance pre)) := map_eq_error.mpr hfails
    rcases escape_fault hescape with ⟨digits, rfl, hhead⟩ | ⟨e, rfl, hhead⟩
    · exact ⟨_, hat, rfl, rfl, by rw [if_pos hhead]; rfl, rfl⟩
    · exact ⟨_, hat, rfl, rfl, by rw [if_neg hhead]; rfl, rfl⟩

/-- Behind an escaped line end and an escaped quote, on the second line, a capital letter begins
no escape. -/
theorem body_decoded_by_units_capital :
    let raw := "a\\\n\\\"\\N".toList
    BreaksOff raw "a\\\n\\\"".toList ['N'] ∧
      ∃ f r, decodeAt {} raw = .error f ∧ f.report? = some r ∧ r.place = ⟨2, 3⟩ ∧
        r.code = .unknownEscape ∧ f.hasCode .unknownEscape = true := by
  intro raw
  have hunits : AreUnits "a\\\n\\\"".toList [97, 34] ['\\', 'N'] :=
    .cons (.plain _ (by decide)) (.cons (.lineFeed _) (.cons (.named _ (by decide)) (.nil _)))
  have hnone : ¬BeginsUnit ['\\', 'N'] := by
    rw [beginsUnit_iff]
    rintro ⟨u, hu⟩
    cases hu
  have hbreak : BreaksOff raw "a\\\n\\\"".toList ['N'] := ⟨rfl, ⟨_, hunits⟩, hnone⟩
  obtain ⟨-, -, hfails, -⟩ := body_decoded_by_units {} raw
  exact ⟨hbreak, hfails _ _ hbreak⟩

/-- Digits right behind escapes, and a line end of two characters: the octal escapes take three
digits and two, the Unicode escape takes four. -/
example : decodeAt {} "\\1234\\778\\u00e9f\\\r\n\\\\n".toList
    = .ok ⟨[83, 52, 63, 56, 233, 102, 92, 110]⟩ := by
  decide +kernel

end TextScript
