/-
TextScript/Proofs/Levels.lean

How often a source is read inside of itself.

A literal asks its reader of code only about codes that are strictly shorter than its body, so two
readers that agree on those are the same to it (`read_congr`).  A body is no longer than its source.
Hence as many levels as a source has characters are as good as any more (`parseLevels_enough`), and
reading a source is reading its tokens, with the same reading for every code in it (`parseAt_run`).
-/
import TextScript.Proofs.Unplaced

namespace TextScript

open Interpolation Lexer

variable {r₁ r₂ : Option CodeReader} {tok : Token} {limit : Int} {p : Position} {cs src : List Char}
variable {o : ParseOptions} {m₁ m₂ n : Nat}

/-! ### Literals -/

/-- Two readers make the same of every code with fewer than `n` characters. -/
def AgreeBelow (n : Nat) (r₁ r₂ : Option CodeReader) (tok : Token) : Prop :=
  ∀ code : List Char, code.length < n → ∀ q,
    readCode r₁ tok (String.ofList code) q = readCode r₂ tok (String.ofList code) q

theorem AgreeBelow.of_readers {f₁ f₂ : CodeReader}
    (h : ∀ code : List Char, code.length < n → ∀ q,
      f₁ (String.ofList code) q = f₂ (String.ofList code) q) :
    AgreeBelow n (some f₁) (some f₂) tok := by
  intro code hcode q
  simp only [readCode, h code hcode q]

theorem readParts_congr (h : AgreeBelow n r₁ r₂ tok) (hn : cs.length ≤ n) :
    readParts r₁ limit tok p cs = readParts r₂ limit tok p cs := by
  induction cs using body_induction limit generalizing p with
  | last seg hsize => rw [readParts_segment hsize, readParts_segment hsize]
  | stuck seg rest k why hsize hscan =>
    rw [readParts_stuck hsize hscan, readParts_stuck hsize hscan]
  | block seg code rest hsize hscan ih =>
    simp only [List.length_append, List.length_cons] at hn
    rw [readParts_closed hsize hscan, readParts_closed hsize hscan, h code (by omega)]
    simp only [ih (Nat.le_trans (by omega) hn)]

/-- A literal asks its reader only about codes that are shorter than its body. -/
theorem read_congr (h : AgreeBelow tok.lit.toList.length r₁ r₂ tok) :
    Interpolation.read r₁ limit tok = Interpolation.read r₂ limit tok := by
  rw [Interpolation.read, readParts_congr h (Nat.le_refl _)]
  rfl

/-! ### Sources -/

namespace ParseState

variable {literal literal' : Token → Traced Expr} {s : ParseState}

theorem step_congr (h : literal tok = literal' tok) : s.step literal tok = s.step literal' tok := by
  unfold step begin beginText
  rw [h]

/-- A run depends on what the literals among its tokens stand for, and on no others. -/
theorem foldl_congr {toks : List Token} (h : ∀ tok ∈ toks, literal tok = literal' tok) :
    toks.foldl (step literal) s = toks.foldl (step literal') s := by
  induction toks generalizing s with
  | nil => rfl
  | cons tok toks ih =>
    rw [List.foldl_cons, List.foldl_cons, step_congr (h tok List.mem_cons_self)]
    exact ih fun t hmem => h t (List.mem_cons_of_mem _ hmem)

end ParseState

theorem parseLevels_congr (h : ∀ tok, tok.lit.toList.length ≤ src.length →
      Source.literals m₁ o tok = Source.literals m₂ o tok) :
    Source.parseLevels m₁ o p src = Source.parseLevels m₂ o p src := by
  rw [parseLevels_run, parseLevels_run, ParseState.run, ParseState.run]
  exact congrArg _ (ParseState.foldl_congr fun tok hmem => h tok (lit_length_le hmem))

/-- A literal is read the same at all levels that are enough for it. -/
theorem literals_enough (h₁ : tok.lit.toList.length ≤ m₁) (h₂ : tok.lit.toList.length ≤ m₂) :
    Source.literals m₁ o tok = Source.literals m₂ o tok := by
  unfold Source.literals
  induction m₁ generalizing m₂ o tok with
  | zero =>
    exact read_congr fun code hcode => absurd (Nat.lt_of_lt_of_le hcode h₁) (Nat.not_lt_zero _)
  | succ m₁ ih =>
    cases m₂ with
    | zero =>
      exact read_congr fun code hcode => absurd (Nat.lt_of_lt_of_le hcode h₂) (Nat.not_lt_zero _)
    | succ m₂ =>
      rcases o.embedded with - | reader
      · refine read_congr (.of_readers fun code hcode q => ?_)
        -- the code is a source for the level below
        rw [String.toList_ofList]
        refine congrArg (Parsed.single q) (parseLevels_congr fun t hlen => ?_)
        exact ih (by omega) (by omega)
      · rfl

/-- As many levels as a source has characters are as good as any more. -/
theorem parseLevels_enough (h₁ : src.length ≤ m₁) (h₂ : src.length ≤ m₂) :
    Source.parseLevels m₁ o p src = Source.parseLevels m₂ o p src :=
  parseLevels_congr fun _ hlen => literals_enough (Nat.le_trans hlen h₁) (Nat.le_trans hlen h₂)

/-- Reading a source is reading its tokens, with the same reading for every code in it. -/
theorem parseAt_run (ho : o.embedded = none) (p : Position) (src : List Char) :
    Source.parseAt o p src =
      (ParseState.run (Interpolation.read (some (Source.reader o.inner)) o.limit)
        (tokens o.limit p src)).parsed := by
  rw [Source.parseAt, parseLevels_eq ho, ParseState.run, ParseState.run]
  refine congrArg _ (ParseState.foldl_congr fun tok hmem => read_congr ?_)
  have hlen := lit_length_le hmem
  cases hsrc : src.length with
  | zero => exact fun code hcode => absurd hcode (by omega)
  | succ levels =>
    refine .of_readers fun code hcode q => ?_
    rw [Source.reader, Source.parseExpression, String.toList_ofList, Source.parseAt]
    exact congrArg (Parsed.single q) (parseLevels_enough (by omega) (Nat.le_refl _))

end TextScript
