/-
TextScript/Proofs/Sources.lean

When a source is refused for its literals.

A source is read level by level: its literals hold code, and code is a source again, read with the
options for embedded code.  `Meets code o src` follows this recursion down to a token that carries a
fault.  With one of the causes of the scanner, reading fails only if it meets such a token
(`parseLevels_meets`), and if it meets one then it fails (`Meets.parseLevels_fails`).

Sources without comments are easier: what their tokens are is settled by the grammar of literals, so
whether a fault is met is a matter of how deep they nest.
-/
import TextScript.Program.Source
import TextScript.Proofs.Literals
import TextScript.Proofs.Programs
import TextScript.Proofs.Tokens

namespace TextScript

open Lexer

/-! ### Causes -/

/-- The causes for which the scanner of literals refuses a source. -/
def Code.ofBalance : List Code :=
  [.unterminatedInterpolation, .unterminatedText, .nestingTooDeep]

theorem Code.eq_of_mem_ofBalance {code : Code} (h : code ∈ Code.ofBalance) :
    code = .unterminatedInterpolation ∨ code = .unterminatedText ∨ code = .nestingTooDeep := by
  simpa [Code.ofBalance] using h

theorem Code.nestingTooDeep_mem : Code.nestingTooDeep ∈ Code.ofBalance := by
  simp [Code.ofBalance]

namespace Failure

variable {code : Code}

theorem hasCode_makeAt (cause : Code) (p : Position) (data : Option Data) :
    (makeAt cause p data).hasCode code = (make cause data).hasCode code := by
  unfold makeAt moveTo
  cases make cause data <;> rfl

theorem unexpected_hasCode (hc : code ∈ Code.ofBalance) (what : String) (p : Position) :
    (unexpected what p).hasCode code = false := by
  rw [unexpected, hasCode_makeAt]
  rcases Code.eq_of_mem_ofBalance hc with rfl | rfl | rfl <;> rfl

theorem escape_hasCode (hc : code ∈ Code.ofBalance) (fault : Escape.Fault) (p : Position) :
    (fault.failure p).hasCode code = false := by
  cases fault <;> rw [Escape.Fault.failure, hasCode_makeAt] <;>
    rcases Code.eq_of_mem_ofBalance hc with rfl | rfl | rfl <;> rfl

end Failure

theorem decodeAt_hasCode {code : Code} {p : Position} {cs : List Char} {f : Failure}
    (hc : code ∈ Code.ofBalance) (h : Escape.decodeAt p cs = .error f) :
    f.hasCode code = false := by
  obtain ⟨fault, q, rfl⟩ := decodeAt_error h
  exact Failure.escape_hasCode hc fault q

/-! ### Options for embedded code -/

namespace ParseOptions

variable {o : ParseOptions}

theorem inner_maxDepth (o : ParseOptions) : o.inner.maxDepth = o.limit := rfl

theorem limit_nonneg (o : ParseOptions) : 0 ≤ o.limit := by
  unfold limit defaultMaxDepth
  split
  · decide
  · split <;> omega

theorem inner_nonneg (o : ParseOptions) : 0 ≤ o.inner.maxDepth := limit_nonneg o

/-- A limit that is in force stays in force. -/
theorem inner_limit (h : 0 ≤ o.maxDepth) : o.inner.limit = o.limit := by
  have hpos : 0 < o.limit := by
    unfold limit defaultMaxDepth
    split
    · decide
    · rw [if_neg (by omega)]
      omega
  rw [limit, inner_maxDepth, if_neg (by omega), if_neg (by omega)]

theorem limit_of_pos (h : 0 < o.maxDepth) : o.limit = o.maxDepth := by
  rw [limit, if_neg (by omega), if_neg (by omega)]

theorem limit_of_neg (h : o.maxDepth < 0) : o.limit = 0 := by
  rw [limit, if_neg (by omega), if_pos h]

/-- A limit that was removed comes back for embedded code, as the default. -/
theorem inner_limit_of_neg (h : o.maxDepth < 0) : o.inner.limit = defaultMaxDepth := by
  rw [limit, inner_maxDepth, if_pos (limit_of_neg h)]

end ParseOptions

/-! ### One level of a source -/

variable {code : Code} {o : ParseOptions} {levels : Nat} {p : Position} {src : List Char}
variable {tok : Token} {f : Failure}

/-- The reader of embedded code at a level. -/
def Source.levelReader : Nat → ParseOptions → Option CodeReader
  | 0, _ => none
  | levels + 1, o =>
    some fun code place => (parseLevels levels o.inner place code.toList).single place

/-- What a run of the parser comes to. -/
def ParseState.parsed (s : ParseState) : Parsed :=
  { program := s.done, failure := s.failure?, events := s.events }

theorem parseLevels_eq (ho : o.embedded = none) :
    Source.parseLevels levels o p src =
      (ParseState.run (Interpolation.read (Source.levelReader levels o) o.limit)
        (tokens o.limit p src)).parsed := by
  cases levels <;> rw [Source.parseLevels, ho] <;> rfl

theorem parseLevels_embedded {reader : CodeReader} (ho : o.embedded = some reader) :
    Source.parseLevels levels o p src =
      (ParseState.run (Interpolation.read (some reader) o.limit)
        (tokens o.limit p src)).parsed := by
  cases levels <;> rw [Source.parseLevels, ho] <;> rfl

/-- The reader of literals at a level: embedded code goes to the reader that the options name, or
else to the language itself. -/
def Source.literals (levels : Nat) (o : ParseOptions) : Token → Traced Expr :=
  Interpolation.read (o.embedded.or (levelReader levels o)) o.limit

theorem parseLevels_run (levels : Nat) (o : ParseOptions) (p : Position) (src : List Char) :
    Source.parseLevels levels o p src =
      (ParseState.run (Source.literals levels o) (tokens o.limit p src)).parsed := by
  rcases ho : o.embedded with - | reader
  · rw [parseLevels_eq ho, Source.literals, ho, Option.none_or]
  · rw [parseLevels_embedded ho, Source.literals, ho, Option.some_or]

/-- There is nothing in an empty source. -/
theorem parse_nil (o : ParseOptions) : (Source.parse o []).toTraced.result = .ok [] := by
  rw [Source.parse, Source.parseAt, parseLevels_run, tokens_nil]
  rfl

/-- A run that is accepted has not failed, and its program is what it completed. -/
theorem parsed_ok {s : ParseState} {prog : Program} (h : s.parsed.toTraced.result = .ok prog) :
    ¬s.HasFailed ∧ s.done = prog := by
  rw [Parsed.toTraced, ParseState.parsed] at h
  split at h
  · cases h
  · next hnone =>
    refine ⟨?_, Except.ok.inj h⟩
    rintro ⟨f, hf⟩
    exact absurd (hnone.symm.trans (ParseState.failure?_eq_some_iff.mpr hf)) (by simp)

theorem run_of_parse {prog : Program} (h : (Source.parse o src).toTraced.result = .ok prog) :
    ¬(ParseState.run (Source.literals src.length o) (tokens o.limit {} src)).HasFailed ∧
      (ParseState.run (Source.literals src.length o) (tokens o.limit {} src)).done = prog := by
  rw [Source.parse, Source.parseAt, parseLevels_run] at h
  exact parsed_ok h

theorem parseLevels_failure (ho : o.embedded = none) :
    (Source.parseLevels levels o p src).failure =
      (ParseState.run (Interpolation.read (Source.levelReader levels o) o.limit)
        (tokens o.limit p src)).failure? :=
  congrArg Parsed.failure (parseLevels_eq ho)

theorem single_of_failure {parsed : Parsed} (hf : parsed.failure = some f) :
    (parsed.single p).result = .error f := by
  rw [Parsed.single, Parsed.toTraced, hf, Traced.result_andThen]
  rfl

theorem single_of_program {parsed : Parsed} {e : Expr} (hf : parsed.failure = none)
    (hp : parsed.program = [e]) : (parsed.single p).result = .ok e := by
  rw [Parsed.single, Parsed.toTraced, hf, Traced.result_andThen, hp]
  rfl

theorem single_error {parsed : Parsed} (h : (parsed.single p).result = .error f) :
    parsed.failure = some f ∨ ∃ what q, f = .unexpected what q := by
  rcases hf : parsed.failure with - | g
  · -- a source without a failure may still hold no expression, or more than one
    rw [Parsed.single, Parsed.toTraced, hf, Traced.result_andThen] at h
    simp only [Except.bind] at h
    split at h
    · exact .inr ⟨_, _, (Except.error.inj h).symm⟩
    · cases h
    · exact .inr ⟨_, _, (Except.error.inj h).symm⟩
  · rw [single_of_failure hf] at h
    cases h
    exact .inl rfl

theorem single_ok {parsed : Parsed} {e : Expr} (h : (parsed.single p).result = .ok e) :
    parsed.failure = none := by
  rcases hf : parsed.failure with - | g
  · rfl
  · rw [single_of_failure hf] at h
    cases h

theorem single_eq_ok_iff {parsed : Parsed} {e : Expr} :
    (parsed.single p).result = .ok e ↔ parsed.toTraced.result = .ok [e] := by
  rw [Parsed.single, Traced.result_andThen, bind_eq_ok]
  constructor
  · rintro ⟨prog, hprog, he⟩
    split at he
    · cases he
    · cases he
      exact hprog
    · cases he
  · intro h
    exact ⟨[e], h, rfl⟩

theorem readCode_error {reader : Option CodeReader} {text : String}
    (h : (Interpolation.readCode reader tok text p).result = .error f) :
    (∃ what q, f = .unexpected what q) ∨
      ∃ read, reader = some read ∧ (read text p).result = .error f := by
  unfold Interpolation.readCode at h
  split at h
  · cases h
  · split at h
    · exact .inl ⟨_, _, (Except.error.inj h).symm⟩
    · next read =>
      rw [Traced.result_bind] at h
      exact .inr ⟨read, rfl, h⟩

theorem readCode_some {read : CodeReader} {text : String}
    (hblank : Text.isBlankString text = false) :
    (Interpolation.readCode (some read) tok text p).result = (read text p).result := by
  rw [Interpolation.readCode, if_neg (by simp [hblank])]
  exact Traced.result_bind _ _

theorem readCode_ok {reader : Option CodeReader} {text : String} {e : Expr}
    (hblank : Text.isBlankString text = false)
    (h : (Interpolation.readCode reader tok text p).result = .ok e) :
    ∃ read, reader = some read ∧ (read text p).result = .ok e := by
  cases reader with
  | none =>
    rw [Interpolation.readCode, if_neg (by simp [hblank])] at h
    cases h
  | some read =>
    rw [readCode_some hblank] at h
    exact ⟨read, rfl, h⟩

/-- A literal within the limit fails with a cause of the scanner only if the reader of one of its
codes does. -/
theorem Split.read_hasCode {reader : Option CodeReader} {limit : Int} {k : Nat}
    {segs codes : List (List Char)} (h : Split k tok.lit.toList segs codes) (hfit : Fits limit 0 k)
    (hc : code ∈ Code.ofBalance) (hf : f.hasCode code)
    (herr : (Interpolation.read reader limit tok).result = .error f) :
    ∃ inner ∈ codes, ∃ read q, reader = some read ∧
    (read (String.ofList inner) q).result = .error f := by
  rw [read_error_iff] at herr
  rcases h.readParts_error hfit herr with ⟨q, seg, hd⟩ | ⟨inner, hinner, q, hread⟩
  · simp [decodeAt_hasCode hc hd] at hf
  rcases readCode_error hread with ⟨what, q', rfl⟩ | ⟨read, hsome, hread⟩
  · simp [Failure.unexpected_hasCode hc] at hf
  · exact ⟨inner, hinner, read, q, hsome, hread⟩

/-- A source that is to hold one expression fails with a cause of the scanner only if reading it
does. -/
theorem single_hasCode {parsed : Parsed} (hc : code ∈ Code.ofBalance) (hf : f.hasCode code)
    (h : (parsed.single p).result = .error f) : parsed.failure = some f := by
  rcases single_error h with hfail | ⟨what, q, rfl⟩
  · exact hfail
  · simp [Failure.unexpected_hasCode hc] at hf

/-- One level: what a token raises with a cause of the scanner is its own fault, or comes from the
reader of embedded code. -/
theorem raises_hasCode {reader : Option CodeReader} {limit : Int} (hc : code ∈ Code.ofBalance)
    (hf : f.hasCode code) (hmem : tok ∈ tokens limit p src)
    (hraise : ParseState.Raises (Interpolation.read reader limit) tok f) :
    tok.fault = some f ∨
      ∃ k segs codes inner read q, tok.kind = .text ∧ Split k tok.lit.toList segs codes ∧
        inner ∈ codes ∧ reader = some read ∧ (read (String.ofList inner) q).result = .error f := by
  cases hraise with
  | fault hfault => exact .inl hfault
  | unexpected what place => simp [Failure.unexpected_hasCode hc] at hf
  | plain m =>
    -- a failure without a code counts as none of them
    rcases Code.eq_of_mem_ofBalance hc with rfl | rfl | rfl <;> simp [Failure.hasCode] at hf
  | literal hk hlit =>
    obtain ⟨k, hnested, hfit⟩ := mem_tokens_nested hmem hk
    obtain ⟨segs, codes, hsplit⟩ := hnested.split rfl
    obtain ⟨inner, hinner, read, q, hsome, hread⟩ := hsplit.read_hasCode hfit hc hf hlit
    exact .inr ⟨k, segs, codes, inner, read, q, hk, hsplit, hinner, hsome, hread⟩

/-! ### Faults along the levels -/

/-- `Meets code o src`: reading `src` comes upon a token whose fault counts as `code`, in the source
itself or in the code of one of its literals. -/
inductive Meets (code : Code) : ParseOptions → List Char → Prop
  | here {o : ParseOptions} {p : Position} {src : List Char} {tok : Token} {f : Failure} :
      tok ∈ tokens o.limit p src → tok.fault = some f → f.hasCode code → Meets code o src
  | inside {o : ParseOptions} {p : Position} {src : List Char} {tok : Token} {k : Nat}
      {segs codes : List (List Char)} {inner : List Char} :
      tok ∈ tokens o.limit p src → tok.kind = .text → Split k tok.lit.toList segs codes →
      inner ∈ codes → Meets code o.inner inner → Meets code o src

/-- A source is refused with a cause of the scanner only for a token that it meets. -/
theorem parseLevels_meets (hc : code ∈ Code.ofBalance) (hf : f.hasCode code)
    (ho : o.embedded = none) (h : (Source.parseLevels levels o p src).failure = some f) :
    Meets code o src := by
  induction levels generalizing o p src with
  | zero =>
    rw [parseLevels_failure ho] at h
    obtain ⟨tok, hmem, hraise⟩ := ParseState.run_raises h
    rcases raises_hasCode hc hf hmem hraise with hfault | ⟨-, -, -, -, read, -, -, -, -, hsome, -⟩
    · exact .here hmem hfault hf
    · cases hsome
  | succ levels ih =>
    rw [parseLevels_failure ho] at h
    obtain ⟨tok, hmem, hraise⟩ := ParseState.run_raises h
    rcases raises_hasCode hc hf hmem hraise with
      hfault | ⟨k, segs, codes, inner, read, q, hk, hsplit, hinner, hsome, hread⟩
    · exact .here hmem hfault hf
    -- the reader of embedded code is this very function, one level down
    · cases hsome
      have hfail := single_hasCode hc hf hread
      rw [String.toList_ofList] at hfail
      exact .inside hmem hk hsplit hinner (ih ho hfail)

/-! ### What is met stops the reader -/

/-- A cause of the scanner is met only where there is a quote. -/
theorem Meets.quote_mem (h : Meets code o src) (hc : code ∈ Code.ofBalance) : '"' ∈ src := by
  cases h with
  | here hmem hfault hf =>
    refine Decidable.byContradiction fun hq => ?_
    obtain ⟨what, place, rfl⟩ := fault_unexpected hq hmem hfault
    simp [Failure.unexpected_hasCode hc] at hf
  | inside hmem hk =>
    obtain ⟨pre, body, rest, k, rfl, -⟩ := mem_tokens_text hmem hk
    simp

theorem isBlankString_of_quote {cs : List Char} (h : '"' ∈ cs) :
    Text.isBlankString (String.ofList cs) = false := by
  rw [Text.isBlankString, String.toList_ofList, List.all_eq_false]
  exact ⟨'"', h, by decide⟩

/-- A source that meets a fault of the scanner is refused, however many levels are read. -/
theorem Meets.parseLevels_fails (h : Meets code o src) (hc : code ∈ Code.ofBalance)
    (ho : o.embedded = none) (levels : Nat) (p : Position) :
    ∃ f, (Source.parseLevels levels o p src).failure = some f := by
  induction h generalizing levels p with
  -- the token is met wherever the source begins, and no parser gets past it
  | here hmem hfault hf =>
    obtain ⟨tok', hmem', hkind, -⟩ := mem_tokens_moved hmem p
    rw [parseLevels_failure ho]
    exact ParseState.run_fatal hmem' (.inl (hkind.trans (mem_tokens_fault hmem hfault)))
  | @inside o q src tok k segs codes inner hmem hk hsplit hinner hmeets ih =>
    obtain ⟨tok', hmem', hkind, hlit⟩ := mem_tokens_moved hmem p
    have hk' : tok'.kind = .text := hkind.trans hk
    rw [parseLevels_failure ho]
    refine ParseState.run_fatal hmem' (.inr ⟨hk', ?_⟩)
    rcases hres : (Interpolation.read (Source.levelReader levels o) o.limit tok').result with f | e
    · exact ⟨f, rfl⟩
    -- a literal that is read has all of its codes read, among them the one that fails
    obtain ⟨parts, hparts⟩ := read_ok_parts hres
    rw [← hlit] at hsplit
    have hfit : Fits o.limit 0 k := mem_tokens_fits hmem' hk' hsplit.nested
    obtain ⟨q', e', hread⟩ := hsplit.readParts_codes hfit hparts hinner
    obtain ⟨read, hsome, hread⟩ := readCode_ok (isBlankString_of_quote (hmeets.quote_mem hc)) hread
    cases levels with
    | zero => cases hsome
    | succ levels =>
      cases hsome
      obtain ⟨f, hf⟩ := ih ho levels q'
      have hnone := single_ok hread
      rw [String.toList_ofList, hf] at hnone
      cases hnone

/-! ### Sources without comments -/

/-- A source whose literals fit a limit that stays in force meets no fault of the scanner. -/
theorem Lexable.not_meets {j : Nat} (h : Lexable j src) (hsemi : ';' ∉ src) (hd : 0 ≤ o.maxDepth)
    (hfit : Fits o.limit 0 j) (hc : code ∈ Code.ofBalance) : ¬Meets code o src := by
  intro hmeets
  induction hmeets generalizing j with
  | here hmem hfault hf =>
    obtain ⟨what, place, rfl⟩ := h.fault_unexpected hsemi hfit hmem hfault
    simp [Failure.unexpected_hasCode hc] at hf
  | @inside o p src tok k segs codes inner hmem hk hsplit hinner _ ih =>
    -- the code of a literal nests one level less than the literal, so it fits as well
    have hkfit : Fits o.limit 0 k := mem_tokens_fits hmem hk hsplit.nested
    obtain ⟨⟨i, hcode, hle⟩, hsub⟩ := hsplit.code_nested hinner
    refine ih (hcode.lexable rfl) (fun hmem' => hsemi ?_) (ParseOptions.inner_nonneg o) ?_
    · exact mem_tokens_chars hmem hk (hsub _ hmem')
    · rw [ParseOptions.inner_limit hd]
      exact hkfit.mono (by omega)

/-- What the lexer takes for a literal within the limit is one for every later reader too, down to
the literals in its interpolations: reading it may fail, but never for its balance. -/
theorem lexed_literal_stays_balanced {m : Int} (hm : 1 ≤ m) (hsemi : ';' ∉ src)
    (htok : tok ∈ tokens m p src) (hk : tok.kind = .text)
    (hf : (Interpolation.read (some (Source.reader { maxDepth := m })) m tok).result = .error f) :
    ∀ code ∈ Code.ofBalance, f.hasCode code = false := by
  intro code hc
  refine Bool.eq_false_iff.mpr fun hcode => ?_
  let o : ParseOptions := { maxDepth := m }
  have hpos : 0 < o.maxDepth := hm
  have hlimit : o.limit = m := ParseOptions.limit_of_pos hpos
  obtain ⟨k, hnested, hfit⟩ := mem_tokens_nested htok hk
  obtain ⟨segs, codes, hsplit⟩ := hnested.split rfl
  obtain ⟨inner, hinner, read, q, hsome, hread⟩ := hsplit.read_hasCode hfit hc hcode hf
  cases hsome
  have hfail := single_hasCode hc hcode hread
  rw [String.toList_ofList] at hfail
  have hmeets := parseLevels_meets hc hcode rfl hfail
  -- but the code it meets that in nests within the limit
  obtain ⟨⟨i, hi, hle⟩, hsub⟩ := hsplit.code_nested hinner
  have hsemi' : ';' ∉ inner := fun hmem => hsemi (mem_tokens_chars htok hk (hsub _ hmem))
  have hifit : Fits o.limit 0 i := by
    rw [hlimit]
    exact hfit.mono (by omega)
  exact (hi.lexable rfl).not_meets hsemi' (Int.le_of_lt hpos) hifit hc hmeets

/-- A literal with a bad escape in the literal inside of it fails, but not for its balance. -/
theorem lexed_literal_stays_balanced_escape :
    let body := ['#', '{', '"', '\\', 'q', '"', '}']
    let tok : Token := { kind := .text, lit := String.ofList body, place := {} }
    let f : Failure := Escape.Fault.failure ⟨1, 5⟩ (.unknown (some 'q'))
    tok ∈ tokens 1 {} ('"' :: (body ++ ['"'])) ∧
      (Interpolation.read (some (Source.reader { maxDepth := 1 })) 1 tok).result = .error f ∧
      ∀ code ∈ Code.ofBalance, f.hasCode code = false := by
  intro body tok f
  have hinner : Nested .body 0 ['\\', 'q'] := .bodyEscape 'q' .bodyEnd
  have hbody : Nested .body 1 body := .bodyBlock hinner.literal_code .bodyEnd
  have hmem : tok ∈ tokens 1 {} ('"' :: (body ++ ['"'])) := by
    rw [hbody.tokens (.inr (.inr (by decide))) {} []]
    exact List.mem_cons_self
  have hescape : Escape.decodeAt ⟨1, 5⟩ ['\\', 'q'] = .error f := by
    rw [Escape.decodeAt, Escape.decodePoints]
    rfl
  have hcode : (Source.reader { maxDepth := 1 }
      (String.ofList ('"' :: (['\\', 'q'] ++ ['"']))) ⟨1, 4⟩).result = .error f := by
    rw [Source.reader, Source.parseExpression, Source.parseAt, String.toList_ofList]
    refine single_of_failure ?_
    rw [parseLevels_failure rfl, hinner.tokens (fits_zero _ _) ⟨1, 4⟩ []]
    refine ParseState.run_literal_failed rfl (read_error_iff.mpr ?_)
    rw [String.toList_ofList, readParts_last hinner]
    exact bind_eq_error.mpr (.inl hescape)
  have hread : (Interpolation.read (some (Source.reader { maxDepth := 1 })) 1 tok).result =
      .error f := by
    rw [read_block _ tok rfl hinner.literal_code (fits_zero 1 1),
      readCode_some (isBlankString_of_quote List.mem_cons_self)]
    exact bind_eq_error.mpr (.inl hcode)
  exact ⟨hmem, hread, lexed_literal_stays_balanced (by decide) (by decide) hmem rfl hread⟩

end TextScript
