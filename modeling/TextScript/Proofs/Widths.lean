/-
TextScript/Proofs/Widths.lean

The width of an insertion is counted up to a bound.

A run of digits may write any number, but no width beyond a bound is accepted, so a width is
counted only until it is past the bound and then left as it is.  What one turn of the counting
keeps is a number of at most ten times the bound and nine (`Counts.turn`), far below the greatest
64-bit word: in words, which wrap, no product and no sum of it ever does (`counts_foldl`).

What is counted is the number that the digits write or, like that number, past the bound.  Nothing
but the comparison with the bound depends on a width past it, so an insertion comes to what it
would come to with the exact number (`insert_width_exact`).
-/
import Mathlib.Data.Nat.Digits.Defs
import TextScript.Proofs.Arguments
import TextScript.Proofs.Ranges

namespace TextScript

open Directive

variable {digits : List Int} {d : Int} {bound n : Nat} {w : Int64}

/-! ### The number that digits write -/

/-- Of the digits of a number, the last one counts once, the one before it ten times, and so on. -/
theorem decimal_eq_ofDigits (digits : List Int) :
    decimal digits = Nat.ofDigits 10 (digits.reverse.map fun d => (d - 0x30).toNat) := by
  rw [decimal, Numeral.value, Nat.ofDigits_eq_foldr, List.map_reverse, List.foldr_reverse]
  refine congrArg (List.foldl · 0 _) ?_
  funext v d
  simp only [Nat.cast_id]
  omega

theorem toNat_digit (h : isDigit d = true) :
    ((d - 0x30).toNat : Int) = d - 0x30 ∧ (d - 0x30).toNat ≤ 9 := by
  simp only [isDigit, Bool.and_eq_true, decide_eq_true_eq] at h
  omega

namespace Engine

variable {e : Engine} {args : List Value} {used : Nat} {o : Output} {v : Value} {t : Text}

/-! ### Counting in words -/

/-- One turn of the counting of a width, in 64-bit words. -/
def widthTurn (bound w : Int64) (d : Int) : Int64 :=
  if w ≤ bound then w * 10 + .ofInt (d - 0x30) else w

/-- The number that a run of digits writes, counted up to a bound in 64-bit words. -/
def wordWidth (bound : Int64) (digits : List Int) : Int64 :=
  digits.foldl (widthTurn bound) 0

/-- The product and the sum of a turn are those of the integers. -/
structure ExactTurn (w : Int64) (d : Int) : Prop where
  product : (w * 10).toInt = w.toInt * 10
  sum : (w * 10 + .ofInt (d - 0x30)).toInt = w.toInt * 10 + (d - 0x30)

/-- `Counts bound w n`: the word `w` is the number `n`, which has been counted up to the bound. -/
structure Counts (bound : Nat) (w : Int64) (n : Nat) : Prop where
  eq : w.toInt = n
  le : n ≤ bound * 10 + 9

/-- A product that fits is the product of the integers. -/
theorem toInt_mul_of_fits {a b : Int64} (hlow : -2 ^ 63 ≤ a.toInt * b.toInt)
    (hhigh : a.toInt * b.toInt < 2 ^ 63) : (a * b).toInt = a.toInt * b.toInt := by
  rw [Int64.toInt_mul]
  exact Int.bmod_eq_of_le (by simpa using hlow) (by simpa using hhigh)

theorem exactTurn (hbound : bound ≤ maxWidth) (hd : isDigit d = true) (hw : w.toInt = n)
    (hn : n ≤ bound) : ExactTurn w d := by
  have hmax : maxWidth = 1048576 := rfl
  obtain ⟨hdigit, hnine⟩ := toNat_digit hd
  have hten : (10 : Int64).toInt = 10 := rfl
  have hword : (Int64.ofInt (d - 0x30)).toInt = d - 0x30 :=
    Int64.toInt_ofInt_of_le (by omega) (by omega)
  have hproduct : (w * 10).toInt = w.toInt * 10 :=
    toInt_mul_of_fits (by rw [hw, hten]; omega) (by rw [hw, hten]; omega)
  refine ⟨hproduct, ?_⟩
  rw [Range.toInt_add_of_fits (by rw [hproduct, hword]; omega) (by rw [hproduct, hword]; omega),
    hproduct, hword]

/-- A turn counts on, or is past the bound. -/
theorem Counts.turn (hbound : bound ≤ maxWidth) (hd : isDigit d = true) (h : Counts bound w n) :
    Counts bound (widthTurn (.ofNat bound) w d)
      (if n ≤ bound then n * 10 + (d - 0x30).toNat else n) := by
  have hmax : maxWidth = 1048576 := rfl
  have hlimit : (Int64.ofNat bound).toInt = bound := Int64.toInt_ofNat_of_lt (by omega)
  have hle : w ≤ .ofNat bound ↔ n ≤ bound := by
    rw [Int64.le_iff_toInt_le, hlimit, h.eq]
    omega
  obtain ⟨hdigit, hnine⟩ := toNat_digit hd
  unfold widthTurn
  by_cases hn : n ≤ bound
  · rw [if_pos (hle.mpr hn), if_pos hn]
    refine ⟨?_, by omega⟩
    rw [(exactTurn hbound hd h.eq hn).sum, h.eq]
    push_cast
    omega
  · rw [if_neg (mt hle.mp hn), if_neg hn]
    exact h

/-- All the turns count what is counted without words. -/
theorem counts_foldl (hbound : bound ≤ maxWidth) (hdigits : ∀ d ∈ digits, isDigit d = true)
    (h : Counts bound w n) :
    Counts bound (digits.foldl (widthTurn (.ofNat bound)) w)
      (digits.foldl (fun n d => if n ≤ bound then n * 10 + (d - 0x30).toNat else n) n) := by
  induction digits generalizing w n with
  | nil => exact h
  | cons d ds ih =>
    obtain ⟨hd, hds⟩ := List.forall_mem_cons.mp hdigits
    exact ih hds (h.turn hbound hd)

theorem counts_widthOf (hbound : bound ≤ maxWidth) (hdigits : ∀ d ∈ digits, isDigit d = true) :
    Counts bound (wordWidth (.ofNat bound) digits) (widthOf bound digits) :=
  counts_foldl hbound hdigits ⟨rfl, Nat.zero_le _⟩

/-- In whatever turn a product and a sum are made, they are exact. -/
theorem exactTurn_of_append (hbound : bound ≤ maxWidth) {front back : List Int}
    (hdigits : ∀ d' ∈ front ++ d :: back, isDigit d' = true)
    (hle : wordWidth (.ofNat bound) front ≤ .ofNat bound) :
    ExactTurn (wordWidth (.ofNat bound) front) d := by
  have hmax : maxWidth = 1048576 := rfl
  have hfront : ∀ d' ∈ front, isDigit d' = true := fun d' h => hdigits d' (List.mem_append_left _ h)
  have hcounts := counts_widthOf hbound hfront
  have hd : isDigit d = true := hdigits d (by simp)
  rw [Int64.le_iff_toInt_le, hcounts.eq, Int64.toInt_ofNat_of_lt (by omega)] at hle
  exact exactTurn hbound hd hcounts.eq (by omega)

/-! ### What a width decides -/

theorem widthLimit_le (e : Engine) : e.widthLimit ≤ maxWidth := by
  unfold widthLimit
  split <;> omega

theorem widthLimit_eq (e : Engine) :
    (e.widthLimit : Int) = if 0 < e.maxOutput then min e.maxOutput (2 ^ 20) else 2 ^ 20 := by
  have hmax : maxWidth = 2 ^ 20 := rfl
  unfold widthLimit
  split <;> omega

/-- An insertion comes to what it would come to with the exact number. -/
theorem insert_width_exact (v : Value) (digits : List Int) (left : Bool) (o : Output) :
    e.insert v (widthOf e.widthLimit digits) left o = e.insert v (decimal digits) left o := by
  rcases widthOf_cases e.widthLimit digits with heq | ⟨hcounted, hexact⟩
  · rw [heq]
  · -- past the bound in either case, so that only the text of the value is asked for
    simp only [insert, if_pos hcounted, if_pos hexact]

/-- An insertion of a value with a text, by its exact width. -/
theorem insert_decided (ht : e.caps.textOf v = .ok t) (digits : List Int) (left : Bool)
    (o : Output) :
    e.insert v (widthOf e.widthLimit digits) left o =
      if e.widthLimit < decimal digits then .error (tooLarge e.widthLimit)
      else if e.exceeds (o.out.length + max (decimal digits) t.length) then
        .error (tooLarge e.maxOutput)
      else .ok { o with out := o.out.write (padded t (decimal digits) left) } := by
  rw [insert_width_exact]
  by_cases hwide : e.widthLimit < decimal digits
  · rw [insert_wide ht hwide, if_pos hwide]
  · rw [insert_field ht (Nat.le_of_not_lt hwide), if_neg hwide]

/-- An accepted width leaves room for itself. -/
theorem not_exceeds_width (h : n ≤ e.widthLimit) : e.exceeds n = false := by
  unfold widthLimit at h
  simp only [exceeds, Bool.and_eq_false_iff, decide_eq_false_iff_not]
  split at h <;> omega

/-- Of a text that fits by itself and stands first, only the width is refused. -/
theorem insert_first_refused_iff (ht : e.caps.textOf v = .ok t) (hfits : e.exceeds t.length = false)
    (digits : List Int) (left : Bool) :
    (∃ f, e.insert v (widthOf e.widthLimit digits) left {} = .error f ∧
      reportedAs .outputTooLarge f) ↔
      e.widthLimit < decimal digits := by
  rw [insert_decided ht]
  constructor
  · rintro ⟨f, hfails, -⟩
    by_contra hnarrow
    have hwidth := not_exceeds_width (Nat.le_of_not_lt hnarrow)
    have hboth : e.exceeds (({} : Output).out.length + max (decimal digits) t.length) = false := by
      have hempty : ({} : Output).out.length = 0 := rfl
      rw [hempty, Nat.zero_add]
      rcases Nat.le_total (decimal digits) t.length with hle | hle
      · rw [Nat.max_eq_right hle, hfits]
      · rw [Nat.max_eq_left hle, hwidth]
    rw [if_neg hnarrow, hboth] at hfails
    cases hfails
  · intro hwide
    exact ⟨_, if_pos hwide, rfl⟩

/-- A template that begins with an insertion, by the exact width of it. -/
theorem render_insertion (hdigits : ∀ d ∈ digits, isDigit d = true) (left : Bool) (rest : List Int)
    (hfits : e.exceeds o.out.length = false) (hgiven : args[used]? = some v)
    (ht : e.caps.textOf v = .ok t) :
    e.render (flag left ++ (digits ++ letter :: rest)) args used o =
      if e.widthLimit < decimal digits then .error (tooLarge e.widthLimit)
      else if e.exceeds (o.out.length + max (decimal digits) t.length) then
        .error (tooLarge e.maxOutput)
      else e.render rest args (used + 1)
        { out := o.out.write (padded t (decimal digits) left)
          directives := o.directives + 1 } := by
  rw [render_taker (.insert left hdigits) rfl, checkSize_fits hfits]
  show (nextArg args used _).bind _ = _
  rw [nextArg_some hgiven]
  show (e.insert v _ left _).bind _ = _
  rw [insert_decided ht]
  split
  · rfl
  · show (if _ then _ else _ : Except Failure Output).bind _ = _
    split <;> rfl

/-! ### Widths -/

/-- Counting a width up to a bound decides what exact arithmetic decides.  The bound is that of
the output, if there is one, but two to the twentieth at most.  Up to it the width counted is the
number that the digits write, and beyond it the width is past it too and a word still; in words,
no product and no sum that is made on the way wraps.  So an insertion comes to what it comes to
with the exact number, in any rendering: it is refused for its width exactly if that is beyond the
bound, and otherwise only if its field does not fit the output.  With nothing put out before and a
text that fits, the width alone decides. -/
theorem width_decided_exactly (e : Engine) (digits : List Int)
    (hdigits : ∀ d ∈ digits, isDigit d = true) :
    let bound := e.widthLimit
    let exact := decimal digits
    ((bound : Int) = if 0 < e.maxOutput then min e.maxOutput (2 ^ 20) else 2 ^ 20) ∧
    exact = Nat.ofDigits 10 (digits.reverse.map fun d => (d - 0x30).toNat) ∧
    (exact ≤ bound → widthOf bound digits = exact) ∧
    (bound < exact → bound < widthOf bound digits ∧ widthOf bound digits < 2 ^ 63) ∧
    (wordWidth (.ofNat bound) digits).toInt = widthOf bound digits ∧
    (∀ front d back, digits = front ++ d :: back → wordWidth (.ofNat bound) front ≤ .ofNat bound →
      ExactTurn (wordWidth (.ofNat bound) front) d) ∧
    (∀ v left o, e.insert v (widthOf bound digits) left o = e.insert v exact left o) ∧
    (∀ v t left, e.caps.textOf v = .ok t → e.exceeds t.length = false →
      ((∃ f, e.insert v (widthOf bound digits) left {} = .error f ∧ reportedAs .outputTooLarge f) ↔
        bound < exact)) ∧
    ∀ left rest args used o v t, e.exceeds o.out.length = false → args[used]? = some v →
      e.caps.textOf v = .ok t →
      e.render (flag left ++ (digits ++ letter :: rest)) args used o =
        if bound < exact then .error (tooLarge bound)
        else if e.exceeds (o.out.length + max exact t.length) then .error (tooLarge e.maxOutput)
        else e.render rest args (used + 1)
          { out := o.out.write (padded t exact left), directives := o.directives + 1 } := by
  intro bound exact
  have hmax : maxWidth = 1048576 := rfl
  have hbound : bound ≤ maxWidth := widthLimit_le e
  have hcounts := counts_widthOf hbound hdigits
  refine ⟨widthLimit_eq e, decimal_eq_ofDigits digits, widthOf_eq,
    fun hwide => ⟨lt_widthOf hwide, ?_⟩, hcounts.eq, ?_,
    fun v left o => insert_width_exact v digits left o, ?_, ?_⟩
  · have hle := hcounts.le
    omega
  · rintro front d back rfl hle
    exact exactTurn_of_append hbound hdigits hle
  · intro v t left ht hfits
    exact insert_first_refused_iff ht hfits digits left
  · intro left rest args used o v t hfits hgiven ht
    exact render_insertion hdigits left rest hfits hgiven ht

/-- Twenty nines under a bound of one thousand, and a three with a zero before it. -/
theorem width_decided_exactly_long :
    let e : Engine := ⟨.native, 1000⟩
    let v : Value := .text ⟨[0x78]⟩
    let long : List Int := List.replicate 20 0x39
    (∀ d ∈ long, isDigit d = true) ∧
      (∃ f, e.insert v (widthOf e.widthLimit long) false {} = .error f ∧
        reportedAs .outputTooLarge f) ∧
      (e.format ⟨[0x25, 0x2D, 0x30, 0x33, 0x73]⟩ [v]).result = .ok ⟨[0x78, 0x20, 0x20]⟩ := by
  intro e v long
  have hlong : ∀ d ∈ long, isDigit d = true := by decide
  have hthree : ∀ d ∈ [0x30, 0x33], isDigit d = true := by decide
  obtain ⟨-, -, -, -, -, -, -, hrefused, -⟩ := width_decided_exactly e long hlong
  obtain ⟨-, -, -, -, -, -, -, -, hrender⟩ := width_decided_exactly e [0x30, 0x33] hthree
  have hfirst : e.render [0x25, 0x2D, 0x30, 0x33, 0x73] [v] 0 {} = _ :=
    hrender true [] [v] 0 {} v _ rfl rfl rfl
  refine ⟨hlong, (hrefused v ⟨[0x78]⟩ false rfl rfl).mpr (by decide), ?_⟩
  rw [format_result, hfirst, render_nil]
  rfl

end Engine

end TextScript
