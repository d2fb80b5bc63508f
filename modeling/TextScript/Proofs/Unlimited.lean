/-
TextScript/Proofs/Unlimited.lean

What comes of removing the nesting limit.

A negative setting removes the limit for the literals of the source itself.  For the code inside
of them the setting handed on is 0, which selects the default limit, so the bound comes back one
level down: interpolations may nest 65 deep and no deeper.

The exact condition is `Meets`, and without comments it is a literal that nests more than 65 deep.
Wrapping a quoted text again and again shows both sides of the bound: up to 65 times the source is
read and evaluates to the text, and from then on it is refused.
-/
import TextScript.Eval
import TextScript.Proofs.Limits
import TextScript.Proofs.Quoting

namespace TextScript

open Lexer

variable {o : ParseOptions} {levels n k : Nat} {p : Position} {body src : List Char} {t : Text}

/-! ### Wrapped literals -/

/-- A source wrapped `n` times as the only interpolation of a literal. -/
def wrap : Nat → List Char → List Char
  | 0, src => src
  | n + 1, src => '"' :: '#' :: '{' :: (wrap n src ++ ['}', '"'])

/-- The body of a literal that was wrapped. -/
def wrapBody (body : List Char) : Nat → List Char
  | 0 => body
  | n + 1 => '#' :: '{' :: (('"' :: (wrapBody body n ++ ['"'])) ++ ['}'])

theorem wrap_literal (body : List Char) (n : Nat) :
    wrap n ('"' :: (body ++ ['"'])) = '"' :: (wrapBody body n ++ ['"']) := by
  induction n with
  | zero => rfl
  | succ n ih =>
    rw [wrap, ih, wrapBody]
    simp

/-- Each wrapping nests one level deeper. -/
theorem nested_wrapBody (h : Nested .body 0 body) (n : Nat) : Nested .body n (wrapBody body n) := by
  induction n with
  | zero => exact h
  | succ n ih => simpa [wrapBody] using Nested.bodyBlock ih.literal_code .bodyEnd

/-! ### Sources that stand for a text -/

/-- The expression evaluates to a text, in every state and without changing it. -/
def Denotes (e : Expr) (t : Text) : Prop :=
  ∀ (sv : Services) (st : EvalState), sv.caps = .native → Eval.eval sv e st = (.ok (.text t), st)

theorem denotes_text (tok : Token) (t : Text) : Denotes (.text tok t) t := by
  intro sv st _
  rw [Eval.eval]
  rfl

/-- Empty segments around an expression add nothing. -/
theorem Denotes.concat {e : Expr} (h : Denotes e t) (tok : Token) :
    Denotes (.concat tok [.text tok .empty, e, .text tok .empty]) t := by
  intro sv st hcaps
  have hparts : Eval.evalAll sv [.text tok .empty, e, .text tok .empty] st
      = (.ok [.text .empty, .text t, .text .empty], st) := by
    simp only [Eval.evalAll, bind, Action.andThen, pure, h sv st hcaps,
      denotes_text tok .empty sv st hcaps]
  have hjoin : sv.caps.concatenate [.text .empty, .text t, .text .empty] = .ok t := by
    rw [hcaps]
    exact congrArg Except.ok (by simp [Text.concat, Text.empty])
  simp only [Eval.eval, bind, Action.andThen, hparts, Action.placedAt, Eval.concatenate,
    Action.lift, hjoin, Except.map]

theorem Denotes.evalProgram {e : Expr} (h : Denotes e t) {sv : Services} (hcaps : sv.caps = .native)
    (st : EvalState) : Eval.evalProgram sv [e] st = (.ok (.text t), st) := by
  simp only [Eval.evalProgram, Eval.evalFrom, Eval.reporting, bind, Action.andThen, h sv st hcaps]
  rfl

/-- The source is read as one expression, wherever it begins, and that evaluates to the text. -/
def Yields (levels : Nat) (o : ParseOptions) (src : List Char) (t : Text) : Prop :=
  ∀ p, ∃ e, (Source.parseLevels levels o p src).failure = none ∧
    (Source.parseLevels levels o p src).program = [e] ∧ Denotes e t

/-- A literal that is read as an expression for the text, whatever its place. -/
theorem yields_literal (ho : o.embedded = none) (hb : Nested .body k body) (hfit : Fits o.limit 0 k)
    (hread : ∀ q, ∃ e, (Interpolation.read (Source.levelReader levels o) o.limit
      { kind := .text, lit := String.ofList body, place := q }).result = .ok e ∧ Denotes e t) :
    Yields levels o ('"' :: (body ++ ['"'])) t := by
  intro p
  obtain ⟨e, he, hden⟩ := hread p
  have htokens := hb.tokens hfit p []
  rw [tokens_nil] at htokens
  obtain ⟨hfail, hdone⟩ :=
    ParseState.run_literal { kind := .eof, place := p.advance ('"' :: (body ++ ['"'])) } rfl rfl he
  refine ⟨e, ?_, ?_, hden⟩
  · rw [parseLevels_failure ho, htokens, hfail]
  · rw [parseLevels_eq ho, htokens]
    exact hdone

/-- One more wrapping is read if it fits, and changes nothing about the text. -/
theorem Yields.wrapBody_succ (h : Yields levels o.inner ('"' :: (wrapBody body n ++ ['"'])) t)
    (ho : o.embedded = none) (hb : Nested .body 0 body) (hfit : Fits o.limit 0 (n + 1)) :
    Yields (levels + 1) o ('"' :: (wrapBody body (n + 1) ++ ['"'])) t := by
  refine yields_literal ho (nested_wrapBody hb (n + 1)) hfit fun q => ?_
  have hcode := (nested_wrapBody hb n).literal_code
  let tok : Token := { kind := .text, lit := String.ofList (wrapBody body (n + 1)), place := q }
  obtain ⟨e, hfail, hprog, hden⟩ := h (tok.place.next.advance ['#', '{'])
  refine ⟨_, ?_, hden.concat tok⟩
  rw [read_block _ tok rfl hcode (fits_block.mp hfit), Source.levelReader,
    readCode_some (isBlankString_of_quote List.mem_cons_self)]
  simp only [String.toList_ofList, single_of_program hfail hprog]
  rfl

/-- Wrappings within a limit that stays in force are read. -/
theorem yields_wrapBody (hb : Nested .body 0 body) (hd : ∀ q, Escape.decodeAt q body = .ok t)
    (ho : o.embedded = none) (hpos : 0 ≤ o.maxDepth) (hfit : Fits o.limit 0 n) (hn : n ≤ levels) :
    Yields levels o ('"' :: (wrapBody body n ++ ['"'])) t := by
  induction n generalizing o levels with
  | zero =>
    exact yields_literal ho hb hfit fun q => ⟨_, read_plain rfl hb hd, denotes_text _ t⟩
  | succ n ih =>
    obtain ⟨levels, rfl⟩ : ∃ l, levels = l + 1 := ⟨levels - 1, by omega⟩
    have hfit' : Fits o.inner.limit 0 n := by
      rw [ParseOptions.inner_limit hpos]
      exact hfit.mono (Nat.le_succ n)
    have hinner : Yields levels o.inner ('"' :: (wrapBody body n ++ ['"'])) t :=
      ih ho (ParseOptions.inner_nonneg o) hfit' (by omega)
    exact hinner.wrapBody_succ ho hb hfit

/-! ### Beyond the bound -/

/-- A literal beyond the limit is refused at its quote. -/
theorem parseLevels_literal_tooDeep (ho : o.embedded = none) (hb : Nested .body k body)
    (hfit : ¬Fits o.limit 0 k) (p : Position) :
    (Source.parseLevels levels o p ('"' :: (body ++ ['"']))).failure
      = some (tooDeepAt o.limit p) := by
  obtain ⟨lit, toks, htokens⟩ := hb.tokens_tooDeep hfit p []
  rw [parseLevels_failure ho, htokens]
  exact ParseState.run_illegal rfl rfl

/-- A wrapped literal is refused if what is wrapped is refused as embedded code. -/
theorem wrapBody_tooDeep (ho : o.embedded = none) (hb : Nested .body 0 body)
    (hfit : Fits o.limit 0 (n + 1)) (hinner : ¬Fits o.inner.limit 0 n) :
    (Source.parseLevels (levels + 1) o p ('"' :: (wrapBody body (n + 1) ++ ['"']))).TooDeep := by
  have hcode := (nested_wrapBody hb n).literal_code
  let tok : Token := { kind := .text, lit := String.ofList (wrapBody body (n + 1)), place := p }
  let q : Position := tok.place.next.advance ['#', '{']
  have ho' : o.inner.embedded = none := ho
  have hfail : (Source.parseLevels levels o.inner q ('"' :: (wrapBody body n ++ ['"']))).failure
      = some (tooDeepAt o.inner.limit q) :=
    parseLevels_literal_tooDeep ho' (nested_wrapBody hb n) hinner q
  obtain ⟨report, hreport⟩ : ∃ report, tooDeepAt o.inner.limit q = .coded report := ⟨_, rfl⟩
  have hread : (Interpolation.read (Source.levelReader (levels + 1) o) o.limit tok).result
      = .error (.coded report) := by
    rw [read_block _ tok rfl hcode (fits_block.mp hfit), Source.levelReader,
      readCode_some (isBlankString_of_quote List.mem_cons_self)]
    simp only [String.toList_ofList, ← hreport]
    exact bind_eq_error.mpr (.inl (single_of_failure hfail))
  refine ⟨.coded report, ?_, by rw [← hreport]; exact tooDeepAt_hasCode _ q⟩
  rw [parseLevels_failure ho, (nested_wrapBody hb (n + 1)).tokens hfit p []]
  exact ParseState.run_literal_failed rfl hread

/-- Without comments, the bound that comes back is met exactly by a literal that nests more than 65
deep. -/
theorem meets_unlimited_iff (hneg : o.maxDepth < 0) (hsemi : ';' ∉ src) :
    Meets .nestingTooDeep o src ↔
      ∃ tok ∈ tokens 0 {} src, tok.kind = .text ∧ ∃ k, 65 < k ∧ Nested .body k tok.lit.toList := by
  have hlimit : o.limit = 0 := ParseOptions.limit_of_neg hneg
  have hinner : o.inner.limit = 64 := ParseOptions.inner_limit_of_neg hneg
  constructor
  · intro h
    cases h with
    | here hmem hfault hf =>
      rw [hlimit] at hmem
      rw [fault_unlimited hmem hfault] at hf
      cases hf
    | @inside _ p _ tok k segs codes inner hmem hk hsplit hcodes hmeets =>
      rw [hlimit] at hmem
      obtain ⟨tok', hmem', hkind, hlit⟩ := mem_tokens_moved hmem {}
      refine ⟨tok', hmem', hkind.trans hk, k, ?_, hlit ▸ hsplit.nested⟩
      -- at 65 or less the code nests at most 64 deep, and meets nothing
      refine Nat.lt_of_not_le fun hle => ?_
      obtain ⟨⟨i, hi, hlt⟩, hsub⟩ := hsplit.code_nested hcodes
      have hsemi' : ';' ∉ inner := fun hc => hsemi (mem_tokens_chars hmem hk (hsub _ hc))
      have hfit : Fits o.inner.limit 0 i := by
        rw [hinner]
        exact .inr (.inr (by omega))
      exact (hi.lexable rfl).not_meets hsemi' (ParseOptions.inner_nonneg o) hfit
        Code.nestingTooDeep_mem hmeets
  · rintro ⟨tok, hmem, hk, k, hlt, hnested⟩
    obtain ⟨j, rfl⟩ : ∃ j, k = j + 1 := ⟨k - 1, by omega⟩
    obtain ⟨segs, codes, hsplit⟩ := hnested.split rfl
    obtain ⟨inner, hcodes, hj⟩ := hsplit.exists_deepest
    have hsub := (hsplit.code_nested hcodes).2
    have hsemi' : ';' ∉ inner := fun hc => hsemi (mem_tokens_chars hmem hk (hsub _ hc))
    have hfit : ¬Fits o.inner.limit 0 j := by
      rw [hinner]
      unfold Fits
      omega
    obtain ⟨tok', hmem', -, hfault⟩ := (hj.lexable rfl).exists_tooDeep hsemi' hfit {}
    rw [← hlimit] at hmem
    exact .inside hmem hk hsplit hcodes (.here hmem' hfault (tooDeepAt_hasCode _ _))

/-! ### The bound that comes back -/

/-- A source that would be read without any limit, but meets the bound, is refused for it. -/
theorem Meets.parse_tooDeep (h : Meets .nestingTooDeep o src) (ho : o.embedded = none)
    (hok : (Source.parse (Source.unbounded src.length) src).failure = none) :
    (Source.parse o src).TooDeep := by
  rcases parseLevels_agree ho src.length {} src with hdeep | heq
  · exact hdeep
  · obtain ⟨f, hf⟩ := h.parseLevels_fails Code.nestingTooDeep_mem ho src.length {}
    rw [heq] at hf
    exact absurd (hf.symm.trans hok) (by simp)

theorem quoted_wrap (cs : List Char) (n : Nat) :
    wrap n (Quote.quoted (.ofChars cs))
      = '"' :: (wrapBody (Quote.body (Text.ofChars cs).points) n ++ ['"']) :=
  wrap_literal _ n

theorem le_length_wrap (n : Nat) (src : List Char) : n ≤ (wrap n src).length := by
  induction n with
  | zero => exact Nat.zero_le _
  | succ n ih =>
    simp only [wrap, List.length_cons, List.length_append]
    omega

theorem nested_quoted (cs : List Char) : Nested .body 0 (Quote.body (Text.ofChars cs).points) := by
  refine nested_body fun n hn => ?_
  obtain ⟨c, -, rfl⟩ := List.mem_map.mp hn
  exact Int.natCast_nonneg _

/-- Up to 65 wrappings of a quoted text are read. -/
theorem yields_wrap (ho : o.embedded = none) (hneg : o.maxDepth < 0) (hn : n ≤ 65)
    (cs : List Char) :
    Yields (wrap n (Quote.quoted (.ofChars cs))).length o (wrap n (Quote.quoted (.ofChars cs)))
      (.ofChars cs) := by
  have hlen := le_length_wrap n (Quote.quoted (.ofChars cs))
  have hfit : ∀ k, Fits o.limit 0 k := by
    intro k
    rw [ParseOptions.limit_of_neg hneg]
    exact fits_unlimited 0 k
  rw [quoted_wrap] at hlen ⊢
  -- the outermost literal is read without a limit, the ones inside with the default one
  cases n with
  | zero =>
    refine yields_literal ho (nested_quoted cs) (hfit 0) fun q => ?_
    exact ⟨_, read_plain rfl (nested_quoted cs) (decodeAt_body_ofChars cs), denotes_text _ _⟩
  | succ n =>
    generalize ('"' :: (wrapBody (Quote.body (Text.ofChars cs).points) (n + 1) ++ ['"'])).length
      = levels at hlen
    obtain ⟨levels, rfl⟩ : ∃ l, levels = l + 1 := ⟨levels - 1, by omega⟩
    have ho' : o.inner.embedded = none := ho
    have hinner : Fits o.inner.limit 0 n := by
      rw [ParseOptions.inner_limit_of_neg hneg, defaultMaxDepth]
      exact .inr (.inr (by omega))
    have hyields := yields_wrapBody (nested_quoted cs) (decodeAt_body_ofChars cs) ho'
      (ParseOptions.inner_nonneg o) hinner (by omega : n ≤ levels)
    exact hyields.wrapBody_succ ho (nested_quoted cs) (hfit _)

/-- More than 65 wrappings are refused. -/
theorem wrap_tooDeep (ho : o.embedded = none) (hneg : o.maxDepth < 0) (hn : 65 < n)
    (cs : List Char) : (Source.parse o (wrap n (Quote.quoted (.ofChars cs)))).TooDeep := by
  have hlen := le_length_wrap n (Quote.quoted (.ofChars cs))
  rw [Source.parse, Source.parseAt]
  rw [quoted_wrap] at hlen ⊢
  generalize ('"' :: (wrapBody (Quote.body (Text.ofChars cs).points) n ++ ['"'])).length
    = levels at hlen
  obtain ⟨levels, rfl⟩ : ∃ l, levels = l + 1 := ⟨levels - 1, by omega⟩
  obtain ⟨n, rfl⟩ : ∃ m, n = m + 1 := ⟨n - 1, by omega⟩
  refine wrapBody_tooDeep ho (nested_quoted cs) ?_ ?_
  · rw [ParseOptions.limit_of_neg hneg]
    exact fits_unlimited 0 _
  · rw [ParseOptions.inner_limit_of_neg hneg, defaultMaxDepth]
    unfold Fits
    omega

/-- A negative setting removes the limit only for the literals of the source itself.  Every source
is read as without any limit or refused as too deep.  One that could be read is refused exactly if
it meets the default limit in embedded code; without comments, that is a literal whose
interpolations nest more than 65 deep.  So a quoted text can be wrapped 65 times, and then
evaluates to itself, but no more. -/
theorem removed_limit_comes_back (ho : o.embedded = none) (hneg : o.maxDepth < 0) :
    (∀ src,
      ¬(Source.parse (Source.unbounded src.length) src).TooDeep ∧
      ((Source.parse o src).TooDeep ∨
        Source.parse o src = Source.parse (Source.unbounded src.length) src) ∧
      ((Source.parse o src).TooDeep → Meets .nestingTooDeep o src) ∧
      ((Source.parse (Source.unbounded src.length) src).failure = none →
        Meets .nestingTooDeep o src → (Source.parse o src).TooDeep) ∧
      (';' ∉ src → (Meets .nestingTooDeep o src ↔
        ∃ tok ∈ tokens 0 {} src, tok.kind = .text ∧ ∃ k, 65 < k ∧ Nested .body k tok.lit.toList))) ∧
    ∀ n cs,
      (n ≤ 65 → ∃ e,
        (Source.parse o (wrap n (Quote.quoted (.ofChars cs)))).toTraced.result = .ok [e] ∧
        ∀ sv st, sv.caps = .native → Eval.evalProgram sv [e] st = (.ok (.text (.ofChars cs)), st)) ∧
      (65 < n → (Source.parse o (wrap n (Quote.quoted (.ofChars cs)))).TooDeep) := by
  refine ⟨fun src => ⟨unbounded_not_tooDeep _ _ _, parseLevels_agree ho _ _ _, ?_, ?_, ?_⟩,
    fun n cs => ⟨fun hn => ?_, fun hn => wrap_tooDeep ho hneg hn cs⟩⟩
  · rintro ⟨f, hf, hcode⟩
    exact parseLevels_meets Code.nestingTooDeep_mem hcode ho hf
  · exact fun hok hmeets => hmeets.parse_tooDeep ho hok
  · exact fun hsemi => meets_unlimited_iff hneg hsemi
  · obtain ⟨e, hfail, hprog, hden⟩ := yields_wrap ho hneg hn cs {}
    refine ⟨e, ?_, fun sv st hcaps => hden.evalProgram hcaps st⟩
    rw [Source.parse, Source.parseAt, Parsed.toTraced, hfail, hprog]

/-- The bound is reached. -/
theorem removed_limit_comes_back_at :
    (Source.parse { maxDepth := -1 } (wrap 66 (Quote.quoted (.ofChars ['x'])))).TooDeep :=
  ((removed_limit_comes_back rfl (by decide)).2 66 ['x']).2 (by decide)

end TextScript
