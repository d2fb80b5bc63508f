/-
TextScript/Proofs/Joining.lean

Two sources with a line end between them.

A line end stops everything that the lexer may be in the middle of: blanks and comments end in
front of it (`Gap.line_end`), and no legal lexeme goes on with it.  Only a literal without an end
would take it in, and only a backslash would make it a blank, but a source with such a token is
refused.  So the tokens of a source that is accepted stay as they are in front of a line end, and
what is behind it is cut as a source of its own (`tokens_join`).

To the parser the line end is then what the end of input was: it completes the expression at hand
and leaves nothing open.  The second source is parsed as if it were alone (`run_join`).
-/
import TextScript.Proofs.Listing
import TextScript.Proofs.Lookahead
import TextScript.Proofs.Unplaced

namespace TextScript

open Lexer

variable {limit : Int} {p : Position} {src gap : List Char}

/-! ### Tokens -/

/-- A gap that ends a source may also end its line. -/
theorem Gap.line_end (h : Gap gap []) (rest : List Char) : Gap gap ('\n' :: rest) := by
  generalize hr : ([] : List Char) = r at h
  induction h with
  | none => exact .none _
  | blank hc _ ih => exact .blank hc (ih hr)
  | continued _ ih => exact .continued (ih hr)
  | comment hline _ => exact .comment hline (.inr ⟨rest, rfl⟩)

namespace Lexer

/-- The token of a line end. -/
def newline (p : Position) : Token :=
  { kind := .terminator, lit := "\n", place := p }

theorem tokens_newline (p : Position) (rest : List Char) :
    tokens limit p ('\n' :: rest) = newline p :: tokens limit (p.step '\n') rest := by
  have hdrop : ('\n' :: rest).drop (blankSize false ('\n' :: rest)) = '\n' :: rest := by
    rw [blankSize_newline, List.drop_zero]
  rw [tokens_next hdrop, blankSize_newline]
  rfl

/-- Behind a source without illegal tokens, a line end is a token, and what follows is cut as a
source of its own. -/
theorem tokens_join (h : ∀ tok ∈ tokens limit p src, tok.kind ≠ .illegal) (rest : List Char) :
    ∃ init last, tokens limit p src = init ++ [last] ∧ last.kind = .eof ∧
      tokens limit p (src ++ '\n' :: rest)
        = init ++ newline (p.advance src) :: tokens limit ((p.advance src).step '\n') rest := by
  induction src using lexeme_induction limit generalizing p with
  | done gap hgap =>
    refine ⟨[], _, tokens_gap_end hgap p, rfl, ?_⟩
    rw [tokens_gap (hgap.line_end rest), tokens_newline, List.nil_append]
  | next gap c tail r hblank hsize ih =>
    rw [tokens_lexeme hblank hsize] at h ⊢
    obtain ⟨init, last, htokens, hlast, hjoined⟩ :=
      ih fun tok hmem => h tok (List.mem_cons_of_mem _ hmem)
    refine ⟨_ :: init, last, congrArg (_ :: ·) htokens, hlast, ?_⟩
    rw [List.append_assoc, List.cons_append, List.append_assoc,
      tokens_lexeme_replaced hblank hsize (h _ List.mem_cons_self)
        ((replaces_newline [] rest).append r),
      hjoined, advance_lexeme, List.cons_append]

end Lexer

/-! ### One program behind another -/

namespace ParseState

variable {literal : Token → Traced Expr} {s : ParseState} {tok last : Token} {stack : List Frame}
variable {e : Expr}

/-- An expression that is completed has no bracket open. -/
theorem no_bracket_of_reduce {c : Expr} (h : reduce Strength.lowest stack c = ([], e)) :
    stack.any Frame.isBracket = false := by
  induction stack generalizing c with
  | nil => rfl
  | cons f rest ih =>
    cases f with
    | unary tok op =>
      rw [reduce, if_pos (by decide)] at h
      exact ih h
    | binary tok left op =>
      rw [reduce, if_pos op.lowest_le_rightStrength] at h
      exact ih h
    | group => cases h
    | index => cases h
    | list => cases h
    | args => cases h

/-- Where the input may end, a terminator does what its end would do. -/
theorem step_terminator (hlast : last.kind = .eof) (hok : ¬(s.step literal last).HasFailed)
    (hk : tok.kind = .terminator) : s.step literal tok = s.step literal last := by
  have hend : tok.kind = .terminator ∨ tok.kind = .eof := .inl hk
  rcases (step_moves hok).at_end hlast with ⟨hstage, hstack, hstep⟩ | ⟨c, e, hheld, hred, hstep⟩
  · have hin : s.inBrackets = false := by rw [inBrackets, hstack, List.any_nil]
    have hbegin : s.begin literal tok = s := by
      unfold begin
      rw [hk, hstack]
      exact if_pos (.inl rfl)
    rw [hstep]
    unfold step
    rw [hstage, hin, Bool.and_false]
    exact hbegin
  · have hin : s.inBrackets = false := no_bracket_of_reduce hred
    rw [hstep, step_extend hheld (by rw [hin, Bool.and_false]) (by simp [hk]),
      extend_eq_finish (by rw [hk]; rfl) (by simp [hk]) (by simp [hk])]
    simp only [finish, hred]
    exact if_pos hend

/-- What is behind a line end is parsed as if it were alone. -/
theorem run_join {init : List Token} (hlast : last.kind = .eof)
    (hok : ¬(run literal (init ++ [last])).HasFailed) (hk : tok.kind = .terminator)
    (toks : List Token) :
    run literal (init ++ tok :: toks)
      = (run literal toks).after (run literal (init ++ [last])).done
          (run literal (init ++ [last])).events := by
  obtain ⟨hstage, hstack⟩ := run_ended hlast hok
  -- a terminator completes what the end of the source would have completed
  have hjoin : run literal (init ++ [tok]) = run literal (init ++ [last]) := by
    rw [run_concat] at hok ⊢
    rw [run_concat]
    exact step_terminator hlast hok hk
  have hstart : ∀ s : ParseState, s.stage = .start → s.stack = [] →
      s = ({} : ParseState).after s.done s.events := by
    rintro ⟨stack, stage, done, events⟩ rfl rfl
    simp [after]
  calc run literal (init ++ tok :: toks)
      = toks.foldl (step literal) (run literal (init ++ [tok])) := by
        rw [run, run, ← List.foldl_append, List.append_assoc, List.singleton_append]
    _ = toks.foldl (step literal) (({} : ParseState).after (run literal (init ++ [last])).done
          (run literal (init ++ [last])).events) := by
        rw [hjoin, ← hstart _ hstage hstack]
    _ = _ := foldl_after _ _ toks {}

end ParseState

/-! ### One source behind another -/

variable {o : ParseOptions} {src₁ src₂ : List Char} {prog₁ prog₂ : Program}

/-- Two sources that are accepted are accepted with a line end between them, and give the
expressions of the first and then those of the second. -/
theorem parse_join (ho : o.Placeless)
    (h₁ : (Source.parse o src₁).toTraced.result = .ok prog₁)
    (h₂ : (Source.parse o src₂).toTraced.result = .ok prog₂) :
    (Source.parse o (src₁ ++ '\n' :: src₂)).outcome =
      some ((prog₁ ++ prog₂).map Expr.unplaced) := by
  obtain ⟨levels, hlevels⟩ : ∃ levels, levels = (src₁ ++ '\n' :: src₂).length := ⟨_, rfl⟩
  have hlen₁ : src₁.length ≤ levels := by simp [hlevels]
  have hlen₂ : src₂.length ≤ levels := by simp [hlevels]; omega
  -- either source alone comes to the same with the levels of both
  have hout₁ : (Source.parseLevels levels o {} src₁).outcome = some (prog₁.map Expr.unplaced) := by
    rw [← parseLevels_alike ho {} {} (Nat.le_refl _) hlen₁]
    exact Traced.outcome_of_ok h₁
  have hout₂ : ∀ q, (Source.parseLevels levels o q src₂).outcome =
      some (prog₂.map Expr.unplaced) := by
    intro q
    rw [← parseLevels_alike ho {} q (Nat.le_refl _) hlen₂]
    exact Traced.outcome_of_ok h₂
  simp only [parseLevels_run, outcome_eq_some_iff] at hout₁ hout₂
  obtain ⟨hok₁, hdone₁⟩ := hout₁
  obtain ⟨init, last, htokens, hlast, hjoined⟩ := tokens_join (ParseState.legal_of_run hok₁) src₂
  obtain ⟨hok₂, hdone₂⟩ := hout₂ ((Position.advance {} src₁).step '\n')
  rw [htokens] at hok₁ hdone₁
  rw [Source.parse, Source.parseAt, ← hlevels, parseLevels_run, outcome_eq_some_iff, hjoined,
    ParseState.run_join hlast hok₁ rfl]
  refine ⟨hok₂, ?_⟩
  rw [List.map_append, ← hdone₁, ← hdone₂, ← List.map_append]
  rfl

end TextScript
