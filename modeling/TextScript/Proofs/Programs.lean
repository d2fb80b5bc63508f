/-
TextScript/Proofs/Programs.lean

How reading a program can fail.

One token raises a failure in one of four ways: it carries a fault, it stands where it cannot, or
it is a literal whose reader fails, with a described failure or a plain one.  What holds of a
token step by step (`step_raises`, `step_fatal`) gives what a run can fail with (`run_raises`) and
what it cannot get past (`run_fatal`).  Reading a source level by level is then the same statement
about the readers of embedded code.
-/
import TextScript.Program.Parser

namespace TextScript.ParseState

/-! ### What a token can raise -/

/-- `Raises literal tok f`: reading the token `tok` may fail with `f`. -/
inductive Raises (literal : Token → Traced Expr) (tok : Token) : Failure → Prop
  | fault {f : Failure} : tok.fault = some f → Raises literal tok f
  | unexpected (what : String) (place : Position) : Raises literal tok (.unexpected what place)
  | literal {f : Failure} : tok.kind = .text → (literal tok).result = .error f →
      Raises literal tok f
  | plain (m : String) : Raises literal tok
      (.wrapped { code := .unexpectedToken, cls := .parse, message := m, place := tok.place }
        (.plain m))

variable {literal : Token → Traced Expr} {s : ParseState} {tok : Token} {f : Failure} {e : Expr}

/-- A rejected token fails with its fault, or as unexpected. -/
theorem reject_raises (more : String) (h : (s.reject tok more).stage = .failed f) :
    Raises literal tok f := by
  unfold reject at h
  split at h
  · next hf =>
    cases h
    exact .fault hf
  · cases h
    exact .unexpected _ _

/-- Closing a bracket never fails. -/
theorem close_stage (last : Option Expr) (h : (s.close last).stage = .failed f) :
    s.stage = .failed f := by
  unfold close at h
  split at h <;> first | cases h | exact h

theorem beginInteger_raises (h : (s.beginInteger tok).stage = .failed f) :
    Raises literal tok f := by
  unfold beginInteger at h
  split at h
  · cases h
    exact .unexpected _ _
  · split at h <;> cases h

theorem beginText_raises (hk : tok.kind = .text) (h : (s.beginText literal tok).stage = .failed f) :
    Raises literal tok f := by
  unfold beginText at h
  simp only at h
  split at h
  · cases h
  · cases h
    exact .plain _
  · next hf =>
    cases h
    exact .literal hk hf

theorem begin_raises (h : (s.begin literal tok).stage = .failed f) :
    s.stage = .failed f ∨ Raises literal tok f := by
  unfold begin at h
  -- only numbers, literals and whatever is no operand can fail
  split at h
  · cases h
  · exact .inr (beginInteger_raises h)
  · next hk => exact .inr (beginText_raises hk h)
  · cases h
  · cases h
  · cases h
  · cases h
  · split at h
    · split at h
      · exact .inl h
      · exact .inr (reject_raises _ h)
    · split at h
      · exact .inl (close_stage none h)
      · exact .inr (reject_raises _ h)

theorem finish_raises (h : (s.finish e tok).stage = .failed f) :
    s.stage = .failed f ∨ Raises literal tok f := by
  unfold finish at h
  simp only at h
  split at h
  · split at h
    · cases h
    · exact .inr (reject_raises _ h)
  · split at h
    · cases h
    · split at h
      · exact .inl (by simpa using close_stage _ h)
      · exact .inr (reject_raises _ h)
  · split at h
    · cases h
    · split at h
      · exact .inl (by simpa using close_stage _ h)
      · exact .inr (reject_raises _ h)
  · split at h
    · exact .inl (by simpa using close_stage _ h)
    · exact .inr (reject_raises _ h)

theorem extend_raises (h : (s.extend e tok).stage = .failed f) :
    s.stage = .failed f ∨ Raises literal tok f := by
  unfold extend at h
  split at h
  · simp only at h
    split at h
    · cases h
      exact .inr (.unexpected _ _)
    · cases h
  · split at h
    · cases h
    · cases h
    · exact finish_raises h

/-- A step fails only if the parser had failed before, or with what its token raises. -/
theorem step_raises (h : (s.step literal tok).stage = .failed f) :
    s.stage = .failed f ∨ Raises literal tok f := by
  unfold step at h
  split at h
  · exact .inl h
  · split at h
    · exact .inl h
    · split at h
      · exact begin_raises h
      · split at h
        · cases h
        · exact extend_raises h
      · exact extend_raises h
      · exact .inl h

theorem foldl_raises (toks : List Token) (s : ParseState)
    (h : (toks.foldl (step literal) s).stage = .failed f) :
    s.stage = .failed f ∨ ∃ tok ∈ toks, Raises literal tok f := by
  induction toks generalizing s with
  | nil => exact .inl h
  | cons t ts ih =>
    -- the run fails in its first step or in a later one
    rcases ih (s.step literal t) h with hstep | ⟨tok, hmem, hraise⟩
    · rcases step_raises hstep with hs | hraise
      · exact .inl hs
      · exact .inr ⟨t, List.mem_cons_self, hraise⟩
    · exact .inr ⟨tok, List.mem_cons_of_mem _ hmem, hraise⟩

theorem failure?_eq_some_iff : s.failure? = some f ↔ s.stage = .failed f := by
  unfold failure?
  split <;> simp_all

/-- A run fails only with what one of its tokens raises. -/
theorem run_raises {toks : List Token} (h : (run literal toks).failure? = some f) :
    ∃ tok ∈ toks, Raises literal tok f := by
  rcases foldl_raises toks {} (failure?_eq_some_iff.mp h) with hs | hraise
  · cases hs
  · exact hraise

/-! ### What a run cannot get past -/

/-- `Fatal literal tok`: no parser gets past the token `tok`. -/
def Fatal (literal : Token → Traced Expr) (tok : Token) : Prop :=
  tok.kind = .illegal ∨ tok.kind = .text ∧ ∃ f, (literal tok).result = .error f

theorem Fatal.kind (h : Fatal literal tok) : tok.kind = .illegal ∨ tok.kind = .text :=
  h.imp_right And.left

/-- The state has failed. -/
def HasFailed (s : ParseState) : Prop := ∃ f, s.stage = .failed f

theorem reject_failed (more : String) : (s.reject tok more).HasFailed := by
  unfold reject
  split <;> exact ⟨_, rfl⟩

theorem kind_ne (hk : tok.kind = .illegal ∨ tok.kind = .text) {kind : TokenKind}
    (hi : kind ≠ .illegal) (ht : kind ≠ .text) : tok.kind ≠ kind := by
  rcases hk with hk | hk <;> rw [hk]
  · exact hi.symm
  · exact ht.symm

/-- Neither a literal nor an illegal token ends a bracket. -/
theorem kind_ne_closer (hk : tok.kind = .illegal ∨ tok.kind = .text) (top : Frame) :
    tok.kind ≠ top.closer := by
  cases top <;> exact kind_ne hk (by simp [Frame.closer]) (by simp [Frame.closer])

/-- The state was left by rejecting the token. -/
def Rejects (s : ParseState) (tok : Token) : Prop := ∃ s' more, s = reject s' tok more

theorem Rejects.failed (h : s.Rejects tok) : s.HasFailed := by
  obtain ⟨s', more, rfl⟩ := h
  exact reject_failed more

/-- A token with a fault is rejected with it. -/
theorem Rejects.fault (h : s.Rejects tok) (hf : tok.fault = some f) : s.stage = .failed f := by
  obtain ⟨s', more, rfl⟩ := h
  unfold reject
  rw [hf]
  rfl

theorem begin_illegal (hk : tok.kind = .illegal) : (s.begin literal tok).Rejects tok := by
  have hne := kind_ne_closer (.inl hk)
  unfold begin
  simp only [hk] at hne ⊢
  -- at the top an illegal token ends nothing, and no bracket ends with one
  split
  · rw [if_neg (by simp)]
    exact ⟨_, _, rfl⟩
  · next top _ _ =>
    rw [if_neg fun h => hne top h.2]
    exact ⟨_, _, rfl⟩

theorem begin_failed (h : Fatal literal tok) : (s.begin literal tok).HasFailed := by
  rcases h with hk | ⟨hk, f, hf⟩
  · exact (begin_illegal hk).failed
  · unfold begin
    simp only [hk, beginText, hf]
    split
    · next h => cases h
    · exact ⟨_, rfl⟩
    · exact ⟨_, rfl⟩

theorem finish_rejects (hk : tok.kind = .illegal ∨ tok.kind = .text) :
    (s.finish e tok).Rejects tok := by
  -- whatever is open, another kind of token ends it
  unfold finish
  simp only
  split
  · have hend : ¬(tok.kind = .terminator ∨ tok.kind = .eof) := fun h =>
      h.elim (kind_ne hk (by decide) (by decide)) (kind_ne hk (by decide) (by decide))
    rw [if_neg hend]
    exact ⟨_, _, rfl⟩
  · rw [if_neg (kind_ne hk (by decide) (by decide)), if_neg (kind_ne hk (by decide) (by decide))]
    exact ⟨_, _, rfl⟩
  · rw [if_neg (kind_ne hk (by decide) (by decide)), if_neg (kind_ne hk (by decide) (by decide))]
    exact ⟨_, _, rfl⟩
  · rw [if_neg (kind_ne_closer hk _)]
    exact ⟨_, _, rfl⟩

theorem extend_rejects (hk : tok.kind = .illegal ∨ tok.kind = .text) :
    (s.extend e tok).Rejects tok := by
  -- neither kind is an operator, a name or a bracket, so the operand is finished
  unfold extend
  rcases hk with hk | hk <;> simp only [hk, TokenKind.binaryOp?]
  · exact finish_rejects (.inl hk)
  · exact finish_rejects (.inr hk)

/-- A literal or an illegal token is read where an operand may begin, and is rejected elsewhere. -/
theorem step_cases (hk : tok.kind = .illegal ∨ tok.kind = .text) :
    s.HasFailed ∧ s.step literal tok = s ∨
      s.stage = .start ∧ s.step literal tok = s.begin literal tok ∨
      (s.step literal tok).Rejects tok := by
  have hnl : tok.isNewline = false := by
    simp [Token.isNewline, kind_ne hk (by decide : TokenKind.terminator ≠ .illegal) (by decide)]
  unfold step
  split
  · next f hf => exact .inl ⟨⟨f, hf⟩, rfl⟩
  · simp only [hnl, Bool.false_and, Bool.false_eq_true, if_false]
    split
    · next hs => exact .inr (.inl ⟨hs, rfl⟩)
    · rw [if_neg (kind_ne hk (by decide) (by decide))]
      exact .inr (.inr (extend_rejects hk))
    · exact .inr (.inr (extend_rejects hk))
    · next f hf => exact .inl ⟨⟨f, hf⟩, rfl⟩

/-- A fatal token makes every state fail. -/
theorem step_fatal (h : Fatal literal tok) : (s.step literal tok).HasFailed := by
  rcases step_cases (s := s) h.kind with ⟨hs, heq⟩ | ⟨-, heq⟩ | hrej
  · rw [heq]
    exact hs
  · rw [heq]
    exact begin_failed h
  · exact hrej.failed

/-- A failed parser stays as it is. -/
theorem foldl_of_failed (h : s.stage = .failed f) (toks : List Token) :
    toks.foldl (step literal) s = s := by
  induction toks with
  | nil => rfl
  | cons tok toks ih =>
    have hstep : s.step literal tok = s := by
      unfold step
      rw [h]
    rw [List.foldl_cons, hstep, ih]

/-- A run over a fatal token fails. -/
theorem run_fatal {toks : List Token} (hmem : tok ∈ toks) (h : Fatal literal tok) :
    ∃ f, (run literal toks).failure? = some f := by
  obtain ⟨before, after, rfl⟩ := List.append_of_mem hmem
  obtain ⟨f, hf⟩ := step_fatal (s := before.foldl (step literal) {}) h
  refine ⟨f, failure?_eq_some_iff.mpr ?_⟩
  rw [run, List.foldl_append, List.foldl_cons, foldl_of_failed hf]
  exact hf

/-- A run that does not fail has come across no illegal token. -/
theorem legal_of_run {toks : List Token} (hok : ¬(run literal toks).HasFailed) :
    ∀ tok ∈ toks, tok.kind ≠ .illegal := by
  intro tok hmem hk
  obtain ⟨f, hf⟩ : ∃ f, (run literal toks).failure? = some f := run_fatal hmem (.inl hk)
  exact hok ⟨f, failure?_eq_some_iff.mp hf⟩

/-! ### Runs over one literal -/

/-- What the first token fails with is what the run fails with. -/
theorem run_first_failed {toks : List Token} (h : (step literal {} tok).stage = .failed f) :
    (run literal (tok :: toks)).failure? = some f := by
  rw [failure?_eq_some_iff, run, List.foldl_cons, foldl_of_failed h]
  exact h

theorem run_illegal {toks : List Token} (hk : tok.kind = .illegal) (hf : tok.fault = some f) :
    (run literal (tok :: toks)).failure? = some f := by
  refine run_first_failed ?_
  simp [step, begin, reject, fail, hk, hf, Token.isNewline]

theorem run_literal_failed {toks : List Token} {report : Report} (hk : tok.kind = .text)
    (hf : (literal tok).result = .error (.coded report)) :
    (run literal (tok :: toks)).failure? = some (.coded report) := by
  refine run_first_failed ?_
  simp [step, begin, beginText, fail, hk, hf, Token.isNewline]

/-- A program that is one literal. -/
theorem run_literal (last : Token) (hlast : last.kind = .eof) (hk : tok.kind = .text)
    (he : (literal tok).result = .ok e) :
    (run literal [tok, last]).failure? = none ∧ (run literal [tok, last]).done = [e] := by
  simp [run, step, begin, beginText, operand, extend, finish, reduce, failure?, hk, he, hlast,
    Token.isNewline, TokenKind.binaryOp?]

end TextScript.ParseState
