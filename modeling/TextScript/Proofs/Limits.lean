/-
TextScript/Proofs/Limits.lean

A tighter limit refuses more and changes nothing else.

Two ways of reading the same source, one with a tighter limit than the other, go on in step until
the first one stops as nested too deep.  So the statement is the same at every stage, from the
scanner up to whole programs: the tighter reading is too deep, or it is the looser one.  The order
is that of partial results, with `TooDeep` at the bottom, and each stage only has to be monotone
in it.
-/
import TextScript.Proofs.Sources

namespace TextScript

open Lexer Interpolation

variable {limit loose : Int} {p : Position} {src cs : List Char} {c : Char} {tok : Token}

/-! ### Readings that are too deep -/

theorem tooDeepAt_hasCode (limit : Int) (p : Position) :
    (tooDeepAt limit p).hasCode .nestingTooDeep = true := by
  rw [tooDeepAt, Failure.hasCode_makeAt]
  rfl

/-- A computation that fails as nested too deep. -/
def Traced.TooDeep {α : Type} (x : Traced α) : Prop :=
  ∃ f, x.result = .error f ∧ f.hasCode .nestingTooDeep = true

/-- A parser that has failed as nested too deep. -/
def ParseState.TooDeep (s : ParseState) : Prop :=
  ∃ f, s.stage = .failed f ∧ f.hasCode .nestingTooDeep = true

/-- A source that was refused as nested too deep. -/
def Parsed.TooDeep (parsed : Parsed) : Prop :=
  ∃ f, parsed.failure = some f ∧ f.hasCode .nestingTooDeep = true

namespace Traced

variable {α β : Type} {x y : Traced α} {f g : α → Traced β}

theorem andThen_tooDeep (h : x.TooDeep) : (x.andThen f).TooDeep := by
  obtain ⟨e, he, hcode⟩ := h
  refine ⟨e, ?_, hcode⟩
  rw [result_andThen, he]
  rfl

/-- One computation after another is too deep as soon as a part of it is. -/
theorem andThen_agree (h : x.TooDeep ∨ x = y) (hf : ∀ a, (f a).TooDeep ∨ f a = g a) :
    (x.andThen f).TooDeep ∨ x.andThen f = y.andThen g := by
  rcases h with h | rfl
  · exact .inl (andThen_tooDeep h)
  unfold andThen
  rcases hx : x.result with e | a
  · exact .inr rfl
  · rcases hf a with ⟨e, he, hcode⟩ | hfa
    · exact .inl ⟨e, he, hcode⟩
    · exact .inr (by simp only [hfa])

end Traced

/-! ### Tokens -/

/-- Only the lexeme of a literal depends on the limit. -/
theorem lexeme_limit (hc : c ≠ '"') : lexeme limit c cs = lexeme loose c cs := by
  unfold lexeme
  split <;> first | rfl | exact absurd rfl hc

/-- Only the fault of a literal that is too deep depends on the limit. -/
theorem token_limit {lx : Lexeme} (h : lx.unbalanced ≠ some .tooDeep) (span : List Char) :
    token limit lx span p = token loose lx span p := by
  unfold token faultOf
  split <;> first | rfl | contradiction

/-- With a tighter limit a lexeme is too deep or the same. -/
theorem lexeme_agree (h : Looser loose limit) (c : Char) (cs : List Char) :
    (∃ size, lexeme limit c cs = ⟨.illegal, size, some .tooDeep⟩) ∨
      lexeme limit c cs = lexeme loose c cs ∧ (lexeme limit c cs).unbalanced ≠ some .tooDeep := by
  by_cases hc : c = '"'
  · subst hc
    simp only [lexeme_quote, textLexeme]
    rcases scan_limitedTo h 0 [.text] cs with ⟨n, hn⟩ | heq
    · rw [Balance.text, hn]
      exact .inl ⟨_, rfl⟩
    · rw [Balance.text, Balance.text, ← heq]
      split
      · exact .inr ⟨rfl, by simp⟩
      · next why _ =>
        by_cases hwhy : why = .tooDeep
        · exact .inl ⟨_, by rw [hwhy]⟩
        · exact .inr ⟨rfl, by simpa using hwhy⟩
  · exact .inr ⟨lexeme_limit hc, by simp [(lexeme_of_ne_quote hc).2]⟩

/-- Tokens that are the same up to one that is too deep. -/
inductive SameUpTo (limit : Int) : List Token → List Token → Prop
  | nil : SameUpTo limit [] []
  | tooDeep {tok : Token} (toks toks' : List Token) :
      tok.kind = .illegal → tok.fault = some (tooDeepAt limit tok.place) →
      SameUpTo limit (tok :: toks) toks'
  | next {toks toks' : List Token} (tok : Token) :
      SameUpTo limit toks toks' → SameUpTo limit (tok :: toks) (tok :: toks')

theorem tokens_sameUpTo (h : Looser loose limit) (p : Position) (src : List Char) :
    SameUpTo limit (tokens limit p src) (tokens loose p src) := by
  induction src using source_induction limit generalizing p with
  | done src hs =>
    rw [tokens_end hs, tokens_end hs]
    exact .next _ .nil
  | next src c cs hs ih =>
    rw [tokens_next hs, tokens_next hs]
    rcases lexeme_agree h c cs with ⟨size, hdeep⟩ | ⟨hsame, hnot⟩
    · rw [hdeep]
      exact .tooDeep _ _ rfl rfl
    · rw [← hsame, ← token_limit hnot]
      exact .next _ (ih _)

/-! ### Literals -/

variable {r₁ r₂ : Option CodeReader}

/-- Two readers of embedded code, the first of which may refuse more as too deep. -/
def ReadersAgree (r₁ r₂ : Option CodeReader) : Prop :=
  ∀ tok code q, (readCode r₁ tok code q).TooDeep ∨ readCode r₁ tok code q = readCode r₂ tok code q

theorem readersAgree_refl (r : Option CodeReader) : ReadersAgree r r := fun _ _ _ => .inr rfl

theorem unbalanced_limit {why : Unbalanced} (h : why ≠ .tooDeep) :
    unbalanced limit tok why = unbalanced loose tok why := by
  cases why with
  | tooDeep => exact absurd rfl h
  | unterminatedText => rfl
  | unterminatedInterpolation => rfl

theorem readParts_agree (h : Looser loose limit) (hr : ReadersAgree r₁ r₂) (tok : Token)
    (p : Position) (cs : List Char) :
    (readParts r₁ limit tok p cs).TooDeep ∨
      readParts r₁ limit tok p cs = readParts r₂ loose tok p cs := by
  induction cs using body_induction loose generalizing p with
  | last seg hsize =>
    rw [readParts_segment hsize, readParts_segment hsize]
    exact .inr rfl
  | stuck seg rest n why hsize hscan =>
    rw [readParts_stuck hsize hscan]
    -- the tighter limit stops the scan of the code too, with the same complaint or as too deep
    rcases scan_limitedTo h 1 [.code 0] rest with ⟨m, hm⟩ | heq
    · rw [readParts_stuck hsize hm]
      exact Traced.andThen_agree (.inr rfl) fun v =>
        .inl ⟨_, rfl, tooDeepAt_hasCode limit tok.place⟩
    · rw [readParts_stuck hsize (heq.trans hscan)]
      refine Traced.andThen_agree (.inr rfl) fun v => ?_
      by_cases hwhy : why = .tooDeep
      · subst hwhy
        exact .inl ⟨_, rfl, tooDeepAt_hasCode limit tok.place⟩
      · rw [unbalanced_limit hwhy]
        exact .inr rfl
  | block seg code rest hsize hscan ih =>
    rw [readParts_closed hsize hscan]
    rcases scan_limitedTo h 1 [.code 0] (code ++ '}' :: rest) with ⟨m, hm⟩ | heq
    · rw [readParts_stuck hsize hm]
      exact Traced.andThen_agree (.inr rfl) fun v =>
        .inl ⟨_, rfl, tooDeepAt_hasCode limit tok.place⟩
    · -- the code of the block is the same, and is read by either reader
      rw [readParts_closed hsize (heq.trans hscan)]
      refine Traced.andThen_agree (.inr rfl) fun v => ?_
      refine Traced.andThen_agree (hr _ _ _) fun e => ?_
      exact Traced.andThen_agree (ih _) fun parts => .inr rfl

theorem read_agree (h : Looser loose limit) (hr : ReadersAgree r₁ r₂) (tok : Token) :
    (Interpolation.read r₁ limit tok).TooDeep ∨
      Interpolation.read r₁ limit tok = Interpolation.read r₂ loose tok := by
  unfold Interpolation.read
  exact Traced.andThen_agree (readParts_agree h hr tok _ _) fun parts => .inr rfl

/-! ### Programs -/

namespace ParseState

variable {l₁ l₂ : Token → Traced Expr} {s : ParseState} {toks toks' : List Token}

theorem beginText_agree (h : (l₁ tok).TooDeep ∨ l₁ tok = l₂ tok) (s : ParseState) :
    (s.beginText l₁ tok).TooDeep ∨ s.beginText l₁ tok = s.beginText l₂ tok := by
  unfold beginText
  rcases h with ⟨f, hf, hcode⟩ | heq
  · left
    simp only [hf]
    cases f with
    | plain m => cases hcode
    | coded r => exact ⟨_, rfl, hcode⟩
    | wrapped r cause => exact ⟨_, rfl, hcode⟩
  · rw [heq]
    exact .inr rfl

/-- Only a literal is read differently. -/
theorem step_agree (h : (l₁ tok).TooDeep ∨ l₁ tok = l₂ tok) (s : ParseState) :
    (s.step l₁ tok).TooDeep ∨ s.step l₁ tok = s.step l₂ tok := by
  unfold step
  split
  · exact .inr rfl
  · split
    · exact .inr rfl
    · split
      · unfold begin
        split
        case h_3 => exact beginText_agree h s
        all_goals exact .inr rfl
      all_goals exact .inr rfl

theorem foldl_tooDeep (h : s.TooDeep) (toks : List Token) : (toks.foldl (step l₁) s).TooDeep := by
  obtain ⟨f, hf, hcode⟩ := h
  rw [foldl_of_failed hf]
  exact ⟨f, hf, hcode⟩

/-- A token that is too deep stops the parser, unless it has failed before. -/
theorem step_tooDeep (hk : tok.kind = .illegal)
    (hf : tok.fault = some (tooDeepAt limit tok.place)) :
    s.HasFailed ∨ (s.step l₁ tok).TooDeep := by
  rcases step_cases (s := s) (.inl hk) with ⟨hs, -⟩ | ⟨-, heq⟩ | hrej
  · exact .inl hs
  · rw [heq]
    exact .inr ⟨_, (begin_illegal hk).fault hf, tooDeepAt_hasCode _ _⟩
  · exact .inr ⟨_, hrej.fault hf, tooDeepAt_hasCode _ _⟩

/-- Two runs over tokens that are the same up to one that is too deep. -/
theorem foldl_agree (h : ∀ tok, (l₁ tok).TooDeep ∨ l₁ tok = l₂ tok) (hs : SameUpTo limit toks toks')
    (s : ParseState) :
    (toks.foldl (step l₁) s).TooDeep ∨ toks.foldl (step l₁) s = toks'.foldl (step l₂) s := by
  induction hs generalizing s with
  | nil => exact .inr rfl
  | tooDeep toks toks' hk hf =>
    -- a parser that has failed before stays where it is, in both runs
    rcases step_tooDeep (s := s) hk hf with ⟨f, hfailed⟩ | hdeep
    · right
      rw [foldl_of_failed hfailed, foldl_of_failed hfailed]
    · exact .inl (foldl_tooDeep hdeep toks)
  | next tok _ ih =>
    rw [List.foldl_cons, List.foldl_cons]
    rcases step_agree (h tok) s with hdeep | heq
    · exact .inl (foldl_tooDeep hdeep _)
    · rw [← heq]
      exact ih _

end ParseState

/-! ### Sources -/

theorem parsed_agree (h : Looser loose limit) (hr : ReadersAgree r₁ r₂) (p : Position)
    (src : List Char) :
    (ParseState.run (Interpolation.read r₁ limit) (tokens limit p src)).parsed.TooDeep ∨
      (ParseState.run (Interpolation.read r₁ limit) (tokens limit p src)).parsed =
        (ParseState.run (Interpolation.read r₂ loose) (tokens loose p src)).parsed := by
  rcases ParseState.foldl_agree (read_agree h hr) (tokens_sameUpTo h p src) {} with
    ⟨f, hf, hcode⟩ | heq
  · exact .inl ⟨f, ParseState.failure?_eq_some_iff.mpr hf, hcode⟩
  · exact .inr (congrArg ParseState.parsed heq)

theorem single_agree {x y : Parsed} (h : x.TooDeep ∨ x = y) (p : Position) :
    (x.single p).TooDeep ∨ x.single p = y.single p := by
  rcases h with ⟨f, hf, hcode⟩ | rfl
  · refine .inl (Traced.andThen_tooDeep ⟨f, ?_, hcode⟩)
    rw [Parsed.toTraced, hf]
  · exact .inr rfl

theorem readersAgree_some {r₁ r₂ : CodeReader}
    (h : ∀ code q, (r₁ code q).TooDeep ∨ r₁ code q = r₂ code q) :
    ReadersAgree (some r₁) (some r₂) := by
  intro tok code q
  unfold readCode
  split
  · exact .inr rfl
  · exact Traced.andThen_agree (.inr rfl) fun _ => h code q

/-- The options that remove the limit, and remove it again for embedded code, for some levels. -/
def Source.unbounded : Nat → ParseOptions
  | 0 => { maxDepth := -1 }
  | levels + 1 =>
    { maxDepth := -1
      embedded := some fun code place =>
        (parseLevels levels (unbounded levels) place code.toList).single place }

theorem unbounded_limit (levels : Nat) : (Source.unbounded levels).limit = 0 := by
  cases levels <;> rfl

/-- Whatever the limit, a source is refused as too deep or read as without any limit. -/
theorem parseLevels_agree {o : ParseOptions} (ho : o.embedded = none) (levels : Nat) (p : Position)
    (src : List Char) :
    (Source.parseLevels levels o p src).TooDeep ∨
      Source.parseLevels levels o p src =
        Source.parseLevels levels (Source.unbounded levels) p src := by
  have hloose : Looser (Source.unbounded levels).limit o.limit := by
    rw [unbounded_limit]
    exact looser_unlimited _
  induction levels generalizing o p src with
  | zero =>
    rw [parseLevels_eq ho, parseLevels_eq rfl]
    exact parsed_agree hloose (readersAgree_refl none) p src
  | succ levels ih =>
    -- the readers of embedded code agree by induction, with the limit that is handed on
    rw [parseLevels_eq ho, parseLevels_embedded rfl]
    refine parsed_agree hloose (readersAgree_some fun code q => single_agree ?_ q) p src
    refine ih (o := o.inner) ho q code.toList ?_
    rw [unbounded_limit]
    exact looser_unlimited _

theorem fault_unlimited {f : Failure} (hmem : tok ∈ tokens 0 p src) (hf : tok.fault = some f) :
    f.hasCode .nestingTooDeep = false := by
  rcases mem_tokens hmem with ⟨q, rfl⟩ | ⟨pre, c, cs, q, rfl, rfl⟩
  · cases hf
  by_cases hc : c = '"'
  · -- a literal is refused for what its scan says, and a scan without a limit never says too deep
    subst hc
    rw [lexeme_quote, textLexeme] at hf
    rcases hscan : Balance.text 0 0 cs with n | ⟨n, why⟩
    · rw [hscan] at hf
      cases hf
    · rw [hscan] at hf
      cases why with
      | tooDeep => exact absurd hscan (text_unlimited_ne_tooDeep cs n)
      | unterminatedText =>
        cases hf
        rw [Failure.hasCode_makeAt]
        rfl
      | unterminatedInterpolation =>
        cases hf
        rw [Failure.hasCode_makeAt]
        rfl
  · obtain ⟨what, place, rfl⟩ := faultOf_balanced (lexeme_of_ne_quote hc).2 hf
    exact Failure.unexpected_hasCode Code.nestingTooDeep_mem what place

/-- Without a limit only the reader of embedded code can refuse a source as too deep. -/
theorem unlimited_not_tooDeep {reader : Option CodeReader}
    (hr : ∀ read, reader = some read → ∀ code q, ¬(read code q).TooDeep) :
    ¬(ParseState.run (Interpolation.read reader 0) (tokens 0 p src)).parsed.TooDeep := by
  rintro ⟨f, hf, hcode⟩
  obtain ⟨tok, hmem, hraise⟩ := ParseState.run_raises hf
  rcases raises_hasCode Code.nestingTooDeep_mem hcode hmem hraise with
    hfault | ⟨-, -, -, inner, read, q, -, -, -, hsome, hread⟩
  · rw [fault_unlimited hmem hfault] at hcode
    cases hcode
  · exact hr read hsome _ q ⟨f, hread, hcode⟩

/-- Without a limit at any level nothing is refused as too deep. -/
theorem unbounded_not_tooDeep (levels : Nat) (p : Position) (src : List Char) :
    ¬(Source.parseLevels levels (Source.unbounded levels) p src).TooDeep := by
  induction levels generalizing p src with
  | zero =>
    rw [parseLevels_eq rfl]
    refine unlimited_not_tooDeep fun read hsome => ?_
    cases hsome
  | succ levels ih =>
    rw [parseLevels_embedded rfl]
    refine unlimited_not_tooDeep fun read hsome code q hdeep => ?_
    cases hsome
    obtain ⟨f, hf, hcode⟩ := hdeep
    exact ih q code.toList ⟨f, single_hasCode Code.nestingTooDeep_mem hcode hf, hcode⟩

end TextScript
