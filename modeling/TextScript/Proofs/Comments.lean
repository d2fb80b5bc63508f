/-
TextScript/Proofs/Comments.lean

Comments in embedded code.

Behind a source a comment is a gap, so it changes neither the tokens nor what they are parsed to
(`parse_comment`), and a line end behind it adds nothing.  That holds of the code of an
interpolation as of any source.  But where that code ends is found out before, by a scan that
knows no comments: it counts the braces in them and looks for the ends of the literals in them.
So a comment in embedded code is ignored if it is itself made up as code is, and only then
(`Commented`).
-/
import TextScript.Proofs.Joining

namespace TextScript

open Lexer

variable {limit : Int} {p : Position} {src code note gap c k : List Char} {j : Nat}

/-! ### Behind a source -/

/-- A comment joins the gap it stands behind. -/
theorem Gap.comment_behind (h : Gap gap []) (hline : '\n' ∉ note) :
    Gap (gap ++ ' ' :: ';' :: note) [] := by
  generalize hr : ([] : List Char) = rest at h
  induction h with
  | none => exact .blank (.inl rfl) (.comment hline (.inl hr.symm))
  | blank hc _ ih => exact .blank hc (ih hr)
  | continued _ ih => exact .continued (ih hr)
  | comment hbody _ =>
    refine .comment ?_ (.inl hr.symm)
    simp [hbody, hline]

/-- The tokens of a source are those of the source with a comment behind it. -/
theorem tokens_comment (h : ∀ tok ∈ tokens limit p src, tok.kind ≠ .illegal) (hline : '\n' ∉ note) :
    (tokens limit p (src ++ ' ' :: ';' :: note)).map Token.unplaced
      = (tokens limit p src).map Token.unplaced := by
  induction src using lexeme_induction limit generalizing p with
  | done gap hgap =>
    rw [tokens_gap_end (hgap.comment_behind hline), tokens_gap_end hgap]
    rfl
  | next gap c tail r hblank hsize ih =>
    rw [tokens_lexeme hblank hsize] at h ⊢
    rw [List.append_assoc, List.cons_append, List.append_assoc,
      tokens_lexeme_replaced hblank hsize (h _ List.mem_cons_self)
        ((replaces_blank [] (';' :: note)).append r),
      List.map_cons, List.map_cons, ih fun tok htok => h tok (List.mem_cons_of_mem _ htok)]

variable {o : ParseOptions} {prog : Program}

/-- A comment behind a source that is accepted changes nothing but places. -/
theorem parse_comment (ho : o.Placeless) (h : (Source.parse o src).toTraced.result = .ok prog)
    (hline : '\n' ∉ note) :
    (Source.parse o (src ++ ' ' :: ';' :: note)).outcome = some (prog.map Expr.unplaced) := by
  obtain ⟨levels, hlevels⟩ : ∃ levels, levels = (src ++ ' ' :: ';' :: note).length := ⟨_, rfl⟩
  have hlen : src.length ≤ levels := by simp [hlevels]
  have hout : (Source.parseLevels levels o {} src).outcome = some (prog.map Expr.unplaced) := by
    rw [← parseLevels_alike ho {} {} (Nat.le_refl _) hlen]
    exact Traced.outcome_of_ok h
  rw [Source.parse, Source.parseAt, ← hlevels, ← hout, parseLevels_run, parseLevels_run,
    parsed_outcome, parsed_outcome]
  rw [parseLevels_run, outcome_eq_some_iff] at hout
  have hrun : (ParseState.run (Source.literals levels o)
      (tokens o.limit {} (src ++ ' ' :: ';' :: note))).unplaced
      = (ParseState.run (Source.literals levels o) (tokens o.limit {} src)).unplaced := by
    apply run_alike ho (tokens_comment (ParseState.legal_of_run hout.1) hline)
    exact fun tok hmem => Nat.le_trans (lit_length_le hmem) (Nat.le_of_eq hlevels.symm)
  rw [hrun]

/-- Nor does the line end behind the comment. -/
theorem parse_comment_line (ho : o.Placeless) (h : (Source.parse o src).toTraced.result = .ok prog)
    (hline : '\n' ∉ note) :
    (Source.parse o (src ++ ' ' :: ';' :: (note ++ ['\n']))).outcome
      = some (prog.map Expr.unplaced) := by
  obtain ⟨prog', hprog', hsame⟩ := Traced.ok_of_outcome (parse_comment ho h hline)
  have hjoin := parse_join ho hprog' (parse_nil o)
  rw [List.append_nil, hsame] at hjoin
  rw [← hjoin]
  simp

/-! ### In a block -/

/-- The literal that is one block with this code. -/
def blockSource (code : List Char) : List Char :=
  '"' :: ('#' :: '{' :: (code ++ ['}']) ++ ['"'])

/-- The token of that literal. -/
def blockToken (code : List Char) : Token :=
  { kind := .text, lit := String.ofList ('#' :: '{' :: (code ++ ['}'])), place := {} }

/-- The tree of a literal that is one block: its expression between two empty segments. -/
def blockExpr (tok : Token) (e : Expr) : Expr :=
  .concat tok [.text tok .empty, e, .text tok .empty]

namespace ParseState

variable {literal : Token → Traced Expr} {tok last : Token}

/-- A literal is a program of its own if it can be read. -/
theorem run_literal_iff (hlast : last.kind = .eof) (hk : tok.kind = .text) :
    (run literal [tok, last]).parsed.toTraced.result = .ok prog ↔
      ∃ e, (literal tok).result = .ok e ∧ prog = [e] := by
  constructor
  · intro h
    cases hres : (literal tok).result with
    | error f =>
      obtain ⟨f, hf⟩ := run_fatal (List.mem_cons_self (a := tok) (l := [last])) (.inr ⟨hk, f, hres⟩)
      rw [parsed, Parsed.toTraced, hf] at h
      cases h
    | ok e =>
      obtain ⟨hok, hdone⟩ := run_literal last hlast hk hres
      rw [parsed, Parsed.toTraced, hok, hdone] at h
      exact ⟨e, rfl, (Except.ok.inj h).symm⟩
  · rintro ⟨e, he, rfl⟩
    obtain ⟨hok, hdone⟩ := run_literal last hlast hk he
    rw [parsed, Parsed.toTraced, hok, hdone]

end ParseState

/-- Where the code of the block begins. -/
def blockPlace : Position :=
  (Position.next {}).advance ['#', '{']

/-- A block whose code fits the limit is accepted if its code is. -/
theorem parse_block (ho : o.embedded = none) (hc : Nested .code j code) (hfit : Fits o.limit 1 j)
    (hblank : Text.isBlankString (String.ofList code) = false) :
    (Source.parse o (blockSource code)).toTraced.result = .ok prog ↔
      ∃ e, ((Source.parseLevels (code.length + 4) o.inner blockPlace code).single blockPlace).result
          = .ok e ∧ prog = [blockExpr (blockToken code) e] := by
  have hbody : Nested .body (max (j + 1) 0) ('#' :: '{' :: (code ++ ['}'])) :=
    .bodyBlock hc .bodyEnd
  have htokens : tokens o.limit {} (blockSource code) = blockToken code :: _ :=
    hbody.tokens (fits_max.mpr ⟨fits_block.mpr hfit, fits_zero _ _⟩) {} []
  have hsize : (blockSource code).length = code.length + 4 + 1 := by simp [blockSource]
  have hread : (Source.literals (blockSource code).length o (blockToken code)).result
      = ((Source.parseLevels (code.length + 4) o.inner blockPlace code).single
        blockPlace).result.bind
          fun e => .ok (blockExpr (blockToken code) e) := by
    rw [Source.literals, ho, Option.none_or, hsize, Source.levelReader,
      read_block _ (blockToken code) rfl hc hfit, readCode_some hblank, String.toList_ofList]
    rfl
  rw [Source.parse, Source.parseAt, parseLevels_run, htokens, tokens_nil,
    ParseState.run_literal_iff rfl rfl, hread]
  simp only [bind_eq_ok, Except.ok.injEq]
  constructor
  · rintro ⟨_, ⟨e, he, rfl⟩, rfl⟩
    exact ⟨e, he, rfl⟩
  · rintro ⟨e, he, rfl⟩
    exact ⟨_, ⟨e, he, rfl⟩, rfl⟩

/-- A block whose code does not fit the limit is refused. -/
theorem fits_of_parse_block (hc : Nested .code j code)
    (h : (Source.parse o (blockSource code)).toTraced.result = .ok prog) : Fits o.limit 1 j := by
  by_contra hfit
  have hbody : Nested .body (max (j + 1) 0) ('#' :: '{' :: (code ++ ['}'])) :=
    .bodyBlock hc .bodyEnd
  have hdeep : ¬Fits o.limit 0 (max (j + 1) 0) :=
    fun hmax => hfit (fits_block.mp (fits_max.mp hmax).1)
  obtain ⟨lit, toks, htokens⟩ := hbody.tokens_tooDeep hdeep {} []
  have hlegal := ParseState.legal_of_run (run_of_parse h).1
  exact hlegal _ (by rw [blockSource, htokens]; exact List.mem_cons_self) rfl

/-- Code may stand behind code. -/
theorem Nested.append_code {r : Region} {i : Nat} (h : Nested r j code) (hr : r = .code)
    (hc : Nested .code i c) : Nested .code (max j i) (code ++ c) := by
  induction h with
  | codeEnd => rwa [Nat.zero_max]
  | codeChar hq ho hclose _ ih => exact .codeChar hq ho hclose (ih hr)
  | codeBraces hinner _ _ ih =>
    rw [List.cons_append, delimited_append, Nat.max_assoc]
    exact .codeBraces hinner (ih hr)
  | codeLiteral hbody _ _ ih =>
    rw [List.cons_append, delimited_append, Nat.max_assoc]
    exact .codeLiteral hbody (ih hr)
  | bodyEnd => cases hr
  | bodyChar => cases hr
  | bodyEscape => cases hr
  | bodyBlock => cases hr

/-- Code with a comment behind it, and a line end behind that. -/
def commented (c note : List Char) : List Char :=
  c ++ ' ' :: ';' :: (note ++ ['\n'])

theorem Nested.commented {i : Nat} (hc : Nested .code j c) (hnote : Nested .code i note) :
    Nested .code (max j i) (commented c note) := by
  have hend : Nested .code i (note ++ ['\n']) := by
    have hline : Nested .code 0 ['\n'] := .codeChar (by decide) (by decide) (by decide) .codeEnd
    simpa using hnote.append_code rfl hline
  exact hc.append_code rfl
    (.codeChar (by decide) (by decide) (by decide)
      (.codeChar (by decide) (by decide) (by decide) hend))

theorem isBlankString_commented (h : Text.isBlankString (String.ofList c) = false)
    (note : List Char) :
    Text.isBlankString (String.ofList (commented c note)) = false := by
  rw [Text.isBlankString, String.toList_ofList] at h ⊢
  rw [commented, List.all_append, h, Bool.false_and]

/-- Code that is accepted in a block is accepted there with a comment behind it, if that is made
up as code is. -/
theorem parse_block_commented {i : Nat} {e : Expr} (ho : o.embedded = none) (hc : Nested .code j c)
    (hblank : Text.isBlankString (String.ofList c) = false) (hline : '\n' ∉ note)
    (hnote : Nested .code i note) (hfit : Fits o.limit 1 i)
    (h : (Source.parse o (blockSource c)).toTraced.result = .ok [blockExpr (blockToken c) e]) :
    ∃ e', (Source.parse o (blockSource (commented c note))).toTraced.result
        = .ok [blockExpr (blockToken (commented c note)) e'] ∧ e'.unplaced = e.unplaced := by
  have hplaceless : o.inner.Placeless := fun read hread => by
    rw [ParseOptions.inner, ho] at hread
    cases hread
  have hfitc := fits_of_parse_block hc h
  obtain ⟨e₀, he₀, heq⟩ := (parse_block ho hc hfitc hblank).mp h
  obtain rfl : e = e₀ := by simpa [blockExpr] using heq
  -- the code is a source of its own, and so is the code with the comment
  have hout : (Source.parse o.inner c).outcome = some [e.unplaced] := by
    rw [Source.parse, Source.parseAt, parseLevels_alike hplaceless {} blockPlace (Nat.le_refl _)
      (Nat.le_add_right c.length 4)]
    exact Traced.outcome_of_ok (single_eq_ok_iff.mp he₀)
  obtain ⟨prog, hprog, hsame⟩ := Traced.ok_of_outcome hout
  have hout' : (Source.parseLevels ((commented c note).length + 4) o.inner blockPlace
      (commented c note)).outcome = some [e.unplaced] := by
    rw [← parseLevels_alike hplaceless {} blockPlace (Nat.le_refl _) (Nat.le_add_right _ 4),
      ← hsame]
    exact parse_comment_line hplaceless hprog hline
  obtain ⟨prog', hprog', hsame'⟩ := Traced.ok_of_outcome hout'
  obtain ⟨e', rfl, he'⟩ := List.map_eq_singleton_iff.mp hsame'
  refine ⟨e', ?_, he'⟩
  exact (parse_block ho (hc.commented hnote) (fits_max.mpr ⟨hfitc, hfit⟩)
    (isBlankString_commented hblank note)).mpr ⟨e', single_eq_ok_iff.mpr hprog', rfl⟩

/-! ### Where the scan ends -/

theorem line_behind (front : List Char) {cs : List Char} {d : Char}
    (h : front ++ d :: cs = note ++ ['\n']) (hd : d ≠ '\n') :
    ∃ note', cs = note' ++ ['\n'] ∧ note = front ++ d :: note' := by
  rcases List.eq_nil_or_concat cs with rfl | ⟨note', last, rfl⟩
  · obtain ⟨-, hlast⟩ := List.append_inj' h rfl
    exact absurd (List.cons.inj hlast).1 hd
  · have h' : (front ++ d :: note') ++ [last] = note ++ ['\n'] := by simpa using h
    obtain ⟨rfl, hlast⟩ := List.append_inj' h' rfl
    exact ⟨note', by rw [List.concat_eq_append, hlast], rfl⟩

/-- A line end at the end of code is none of its delimiters. -/
theorem Nested.of_line {r : Region} {cs : List Char} (h : Nested r j cs) (hr : r = .code)
    (hcs : cs = note ++ ['\n']) : Nested .code j note := by
  induction h generalizing note with
  | codeEnd => simp at hcs
  | codeChar hq ho hclose h ih =>
    cases note with
    | nil =>
      obtain ⟨-, rfl⟩ := List.cons.inj hcs
      exact h
    | cons d note =>
      obtain ⟨rfl, rfl⟩ := List.cons.inj hcs
      exact .codeChar hq ho hclose (ih hr rfl)
  | @codeBraces i k inner cs hinner _ _ ih =>
    obtain ⟨note', rfl, rfl⟩ := line_behind ('{' :: inner) hcs (by decide)
    exact .codeBraces hinner (ih hr rfl)
  | @codeLiteral i k body cs hbody _ _ ih =>
    obtain ⟨note', rfl, rfl⟩ := line_behind ('"' :: body) hcs (by decide)
    exact .codeLiteral hbody (ih hr rfl)
  | bodyEnd => cases hr
  | bodyChar => cases hr
  | bodyEscape => cases hr
  | bodyBlock => cases hr

/-- If the scan takes a comment for code, then it is made up as code is. -/
theorem nested_of_commented (hc : Nested .code j c) (hfit : Fits limit 1 j)
    (h : Balance.code 1 limit (commented c note ++ ['}']) = .closed (commented c note).length) :
    ∃ i, Nested .code i note ∧ Fits limit 1 i := by
  -- the scan comes through the code to the note, which it reads as if it were code
  have hscan : Balance.code 1 limit (commented c note ++ ['}'])
      = (Balance.code 1 limit (note ++ ['\n'] ++ ['}'])).shift (c.length + 2) := by
    rw [commented, delimited_append, List.cons_append, Balance.code,
      hc.passes (.code 0 []) (separate_code _) hfit,
      Balance.scan_code_char (by decide) (by decide) (by decide),
      Balance.scan_code_char (by decide) (by decide) (by decide)]
    simp only [Scan.shift_shift, Balance.code]
    congr 1
    omega
  have hclosed : Balance.code 1 limit (note ++ ['\n'] ++ ['}']) =
      .closed (note ++ ['\n']).length := by
    rw [hscan] at h
    cases hnote : Balance.code 1 limit (note ++ ['\n'] ++ ['}']) with
    | closed n =>
      rw [hnote, Scan.shift_closed, Scan.closed.injEq] at h
      simp only [commented, List.length_append, List.length_cons] at h ⊢
      congr 1
      omega
    | stopped n why =>
      rw [hnote] at h
      cases h
  obtain ⟨⟨i, hnote, hi⟩, -⟩ := code_closed_iff.mp hclosed
  rw [List.take_left] at hnote
  exact ⟨i, hnote.of_line rfl rfl, hi⟩

/-! ### What a literal decodes to -/

/-- A unit that stands for nothing is a backslash at the end of a line. -/
theorem unit_nil {d : Char} {rest : List Char} {u : Escape.Glyph} (h : Escape.unit d rest = .ok u)
    (hu : u.value = []) : ∀ x ∈ (d :: rest).take u.size, x = '\\' ∨ x = '\n' ∨ x = '\r' := by
  unfold Escape.unit at h
  split at h
  · next hd =>
    revert h
    fun_cases Escape.escape rest
    case case10 cs =>
      rintro ⟨rfl⟩
      simp [hd]
    case case11 cs =>
      rintro ⟨rfl⟩
      simp [hd]
    case case12 cs =>
      rintro ⟨rfl⟩
      simp [hd]
    all_goals
      rintro ⟨rfl⟩
      try cases hu
  · cases h
    cases hu

/-- Only continued lines stand for nothing. -/
theorem decodePoints_nil {cs : List Char} (h : Escape.decodePoints p cs = .ok []) :
    ∀ d ∈ cs, d = '\\' ∨ d = '\n' ∨ d = '\r' := by
  fun_induction Escape.decodePoints p cs with
  | case1 => simp
  | case2 => cases h
  | case3 p d rest u hu ih =>
    obtain ⟨v, hv, hnil⟩ := map_eq_ok.mp h
    obtain ⟨hvalue, rfl⟩ := List.append_eq_nil_iff.mp hnil
    intro x hx
    rw [← List.take_append_drop u.size (d :: rest), List.mem_append] at hx
    exact hx.elim (unit_nil hu hvalue x) (ih hv x)

theorem readParts_singleton {reader : Option CodeReader} {tok : Token} {cs : List Char} {e : Expr}
    (h : (Interpolation.readParts reader limit tok p cs).result = .ok [e]) :
    ∃ v, Escape.decodeAt p cs = .ok v ∧ e = .text tok v := by
  obtain ⟨seg, rest, rfl, hsize, rfl | ⟨more, rfl⟩⟩ := exists_front cs
  · rw [List.append_nil] at hsize h ⊢
    rw [readParts_segment hsize, Traced.result_andThen, bind_eq_ok] at h
    obtain ⟨v, hv, he⟩ := h
    exact ⟨v, hv, by simpa using (Except.ok.inj he).symm⟩
  · rw [readParts_open hsize, Traced.result_andThen, bind_eq_ok] at h
    obtain ⟨v, -, h⟩ := h
    split at h
    · cases h
    · -- a block makes two parts, and more follow
      simp only [Traced.result_andThen, bind_eq_ok] at h
      obtain ⟨_, -, parts, hparts, heq⟩ := h
      cases heq

/-- A block without anything behind it ends where its code does, if what is read behind it is
empty. -/
theorem closed_of_readParts {reader : Option CodeReader} {tok : Token} {e : Expr}
    (h : (Interpolation.readParts reader limit tok p ('#' :: '{' :: (code ++ ['}']))).result
      = .ok [.text tok .empty, e, .text tok .empty]) :
    Balance.code 1 limit (code ++ ['}']) = .closed code.length := by
  rw [← List.nil_append ('#' :: _), readParts_open rfl, Traced.result_andThen, bind_eq_ok] at h
  obtain ⟨v, -, h⟩ := h
  split at h
  · cases h
  · next n hscan =>
    simp only [Traced.result_andThen, bind_eq_ok] at h
    obtain ⟨_, -, parts, hparts, heq⟩ := h
    cases heq
    obtain ⟨v, hv, hempty⟩ := readParts_singleton hparts
    obtain ⟨points, hpoints, hmk⟩ := map_eq_ok.mp hv
    obtain rfl : points = [] := by
      rw [← hmk] at hempty
      simpa [Text.empty, eq_comm] using hempty
    -- a brace behind the code would be left to decode
    have hnil : (code ++ ['}']).drop (n + 1) = [] := by
      by_contra hne
      have hlast : '}' ∈ (code ++ ['}']).drop (n + 1) := by
        have hmem := List.getLast_mem hne
        rwa [List.getLast_drop, List.getLast_concat] at hmem
      simpa using decodePoints_nil hpoints _ hlast
    have hlt := (List.getElem?_eq_some_iff.mp (code_closed_iff.mp hscan).2).1
    rw [List.drop_eq_nil_iff] at hnil
    rw [hscan, Scan.closed.injEq]
    rw [List.length_append, List.length_singleton] at hnil hlt
    omega

/-! ### Where the literal ends -/

/-- What the commented block ends with: its comment ends before. -/
def closing : List Char := ['\n', '}', '"']

theorem Gap.not_closing (h : Gap gap []) : ¬closing <:+ gap := by
  generalize hr : ([] : List Char) = rest at h
  unfold closing
  induction h with
  | none => simp
  | blank hc _ ih =>
    rw [List.suffix_cons_iff]
    rintro (heq | hmore)
    · obtain ⟨rfl, -⟩ := List.cons.inj heq
      simp at hc
    · exact ih hr hmore
  | continued h ih =>
    rw [List.suffix_cons_iff, List.suffix_cons_iff]
    rintro (heq | heq | hmore)
    · simp at heq
    · -- the brace and the quote alone are no gap
      obtain ⟨-, rfl⟩ := List.cons.inj heq
      cases h with
      | blank hc => simp at hc
    · exact ih hr hmore
  | comment hbody _ =>
    intro hsuffix
    have hmem := hsuffix.subset (List.mem_cons_self (a := '\n'))
    simp [hbody] at hmem

/-- The quote at the end belongs to a literal, or to one that does not end. -/
theorem tokens_closing (limit : Int) (hne : src ≠ []) (h : src <:+ closing ∨ closing <:+ src)
    (p : Position) :
    ∃ tok ∈ tokens limit p src, tok.kind = .text ∨ tok.kind = .illegal := by
  induction src using lexeme_induction limit generalizing p with
  | done gap hgap =>
    rcases h with h | h
    · simp only [closing, List.suffix_cons_iff, List.suffix_nil, hne, or_false] at h
      -- neither the quote, nor the brace, nor the line end begins a gap
      rcases h with rfl | rfl | rfl <;> cases hgap with
      | blank hc => simp at hc
    · exact absurd h hgap.not_closing
  | next gap d tail r hblank hsize ih =>
    rw [tokens_lexeme hblank hsize]
    by_cases hr : r = []
    · subst hr
      rw [List.append_nil] at h hsize hne
      have hquote : '"' ∈ d :: tail := by
        have hlast : (gap ++ d :: tail).getLast hne = '"' := by
          rcases h with h | h
          · exact h.getLast hne
          · exact (h.getLast (List.cons_ne_nil _ _)).symm
        rw [List.getLast_append_of_ne_nil _ (List.cons_ne_nil d tail)] at hlast
        rw [← hlast]
        exact List.getLast_mem _
      have hd : d = '"' := by
        by_contra hd
        have hno : '"' ∉ (d :: tail).take (lexeme limit d tail).size := quote_not_mem_lexeme hd
        rw [hsize, ← List.length_cons, List.take_length] at hno
        exact hno hquote
      refine ⟨_, List.mem_cons_self, ?_⟩
      subst hd
      show (lexeme limit '"' _).kind = _ ∨ (lexeme limit '"' _).kind = _
      rw [lexeme_quote]
      exact textLexeme_kind limit _
    · have hsuffix : r <:+ gap ++ d :: (tail ++ r) := ⟨gap ++ d :: tail, by simp⟩
      have hclosing : r <:+ closing ∨ closing <:+ r := by
        rcases h with h | h
        · exact .inl (hsuffix.trans h)
        · exact List.suffix_or_suffix_of_suffix hsuffix h
      obtain ⟨tok, hmem, hk⟩ := ih hr hclosing ((p.advance gap).advance (d :: tail))
      exact ⟨tok, List.mem_cons_of_mem _ hmem, hk⟩

/-- The trees of an accepted source list its tokens. -/
theorem listed_of_parse (h : (Source.parse o src).toTraced.result = .ok prog) :
    Lists (Expr.listingAll prog) (tokens o.limit {} src) := by
  obtain ⟨hok, hdone⟩ := run_of_parse h
  have hsingle : ParseState.Single (Source.literals src.length o) := read_single _ _
  have hlists := ParseState.run_lists hsingle (fun tok => tokens_wellSpelled) hok
  obtain ⟨init, last, htokens, hlast, -⟩ := tokens_eq_concat o.limit {} src
  rw [htokens] at hok
  obtain ⟨hstage, hstack⟩ := ParseState.run_ended hlast hok
  rw [← htokens] at hstage hstack
  rwa [ParseState.listing_ended hstage hstack, hdone] at hlists

/-- A source that begins with a quote and ends as a commented block does is one literal if its
program is. -/
theorem nested_of_single {e : Expr} {tok : Token} {body : List Char}
    (h : (Source.parse o ('"' :: (body ++ closing))).toTraced.result = .ok [e])
    (he : e.listing = [tok]) :
    ∃ k, Nested .body k (body ++ ['\n', '}']) ∧ Fits o.limit 0 k := by
  have hlegal := ParseState.legal_of_run (run_of_parse h).1
  have htext : (textLexeme o.limit (body ++ closing)).kind = .text := by
    refine (textLexeme_kind _ _).resolve_right fun hk => ?_
    refine hlegal _ (by rw [tokens_quote]; exact List.mem_cons_self) ?_
    rwa [← lexeme_quote] at hk
  obtain ⟨inner, rest, k, hcut, hinner, hfit⟩ := textLexeme_span htext
  rw [hcut, hinner.tokens hfit] at hlegal
  -- no literal follows the first one, since the program lists one token
  have hlists := listed_of_parse h
  rw [hcut, hinner.tokens hfit, Expr.listingAll_singleton, he] at hlists
  have hunlisted : (tokens o.limit (Position.advance {} ('"' :: (inner ++ ['"']))) rest).filter
      (·.kind.isListed) = [] := by
    unfold Lists at hlists
    rw [List.filter_cons_of_pos rfl] at hlists
    cases hlists with
    | cons _ hmore => exact List.forall₂_nil_left_iff.mp hmore
  cases rest with
  | nil =>
    have hwhole : (body ++ ['\n', '}']) ++ ['"'] = inner ++ ['"'] := by simpa [closing] using hcut
    rw [List.append_cancel_right hwhole]
    exact ⟨k, hinner, hfit⟩
  | cons d rest =>
    have hsuffix : d :: rest <:+ body ++ closing := ⟨inner ++ ['"'], by rw [hcut]; simp⟩
    obtain ⟨bad, hmem, hk⟩ := tokens_closing o.limit (List.cons_ne_nil d rest)
      (List.suffix_or_suffix_of_suffix hsuffix (List.suffix_append _ _)) _
    rcases hk with hk | hk
    · exact absurd (by rw [hk]; rfl) (List.filter_eq_nil_iff.mp hunlisted bad hmem)
    · exact absurd hk (hlegal bad (List.mem_cons_of_mem _ hmem))

theorem readParts_of_concat {reader : Option CodeReader} {tok tok' : Token} {parts : List Expr}
    (h : (Interpolation.read reader limit tok).result = .ok (.concat tok' parts)) :
    tok = tok' ∧ (Interpolation.readParts reader limit tok tok.place.next tok.lit.toList).result
      = .ok parts := by
  rw [Interpolation.read, Traced.result_andThen, bind_eq_ok] at h
  obtain ⟨parts', hparts, hread⟩ := h
  obtain ⟨v, rest, rfl⟩ := readParts_first hparts
  split at hread
  · next heq =>
    -- one part alone is a text
    cases heq
    cases hread
  · cases hread
    exact ⟨rfl, hparts⟩

/-- A comment that is ignored is made up as code is. -/
theorem nested_of_parse_commented {tok : Token} {e : Expr} (hc : Nested .code j c)
    (hfit : Fits o.limit 1 j)
    (h : (Source.parse o (blockSource (commented c note))).toTraced.result =
      .ok [blockExpr tok e]) :
    ∃ i, Nested .code i note ∧ Fits o.limit 1 i := by
  have hclosing : blockSource (commented c note)
      = '"' :: (('#' :: '{' :: (c ++ ' ' :: ';' :: note)) ++ closing) := by
    simp [blockSource, commented, closing]
  have hwhole : ('#' :: '{' :: (c ++ ' ' :: ';' :: note)) ++ ['\n', '}']
      = '#' :: '{' :: (commented c note ++ ['}']) := by
    simp [commented]
  -- since the source is one literal, its body ends at the last quote, and the note lies in it
  have hlegal := h
  rw [hclosing] at hlegal
  obtain ⟨k, hbody, hk⟩ := nested_of_single hlegal (show (blockExpr tok e).listing = [tok] from rfl)
  rw [hwhole] at hbody
  have htokens : tokens o.limit {} (blockSource (commented c note))
      = blockToken (commented c note) :: _ := hbody.tokens hk {} []
  rw [Source.parse, Source.parseAt, parseLevels_run, htokens, tokens_nil,
    ParseState.run_literal_iff rfl rfl] at h
  obtain ⟨_, hread, heq⟩ := h
  cases heq
  obtain ⟨rfl, hparts⟩ := readParts_of_concat hread
  rw [blockToken, String.toList_ofList] at hparts
  exact nested_of_commented hc hfit (closed_of_readParts hparts)

/-- In embedded code a comment up to the end of its line is ignored exactly if it is itself made
up as code is, within the limit on nesting: its braces match and its literals end.  Code that is
accepted alone in a literal is accepted there with such a comment, and gives the same expression
but for places. -/
theorem comment_in_code (ho : o.embedded = none) (hc : IsCode c)
    (hblank : Text.isBlankString (String.ofList c) = false) (hline : '\n' ∉ note)
    (h : (Source.parse o (blockSource c)).toTraced.result = .ok prog) :
    ∃ tok e, prog = [blockExpr tok e] ∧
      ((∃ tok' e', (Source.parse o (blockSource (commented c note))).toTraced.result
          = .ok [blockExpr tok' e'] ∧ e'.unplaced = e.unplaced) ↔
        ∃ i, Nested .code i note ∧ Fits o.limit 1 i) := by
  obtain ⟨j, hj⟩ := hc
  have hfit := fits_of_parse_block hj h
  obtain ⟨e, -, rfl⟩ := (parse_block ho hj hfit hblank).mp h
  refine ⟨_, e, rfl, ?_, ?_⟩
  · rintro ⟨tok', e', hparse, -⟩
    exact nested_of_parse_commented hj hfit hparse
  · rintro ⟨i, hnote, hi⟩
    obtain ⟨e', hparse, hsame⟩ := parse_block_commented ho hj hblank hline hnote hi h
    exact ⟨_, e', hparse, hsame⟩

/-- A comment with braces, and with a literal in them that has a brace of its own. -/
theorem comment_in_code_braces :
    let c := ['1']
    let note := ['{', '"', '}', '"', '}']
    let prog := (Source.parse {} (blockSource c)).program
    (Source.parse {} (blockSource c)).toTraced.result = .ok prog ∧
      ∃ tok e, prog = [blockExpr tok e] ∧
        ∃ tok' e', (Source.parse {} (blockSource (commented c note))).toTraced.result
          = .ok [blockExpr tok' e'] ∧ e'.unplaced = e.unplaced := by
  intro c note prog
  have hc : Nested .code 0 c := .codeChar (by decide) (by decide) (by decide) .codeEnd
  have hbody : Nested .body 0 ['}'] := .bodyChar (by decide) (by decide) (by decide) .bodyEnd
  have hnote : Nested .code 0 note := .codeBraces (.codeLiteral hbody .codeEnd) .codeEnd
  have h : (Source.parse {} (blockSource c)).toTraced.result = .ok prog := by
    have hok : (Source.parse {} (blockSource c)).failure = none := by decide +kernel
    rw [Parsed.toTraced, hok]
  obtain ⟨tok, e, hprog, hiff⟩ :=
    comment_in_code rfl ⟨0, hc⟩ (by decide) (show '\n' ∉ note by decide) h
  exact ⟨h, tok, e, hprog, hiff.mpr ⟨0, hnote, fits_zero _ _⟩⟩

/-- A brace in a comment ends the code in front of it. -/
theorem brace_in_comment_counts :
    ¬∀ (c note : List Char) (prog : Program), IsCode c →
      Text.isBlankString (String.ofList c) = false → '\n' ∉ note →
      (Source.parse {} (blockSource c)).toTraced.result = .ok prog →
      ∃ tok e tok' e', prog = [blockExpr tok e] ∧
        (Source.parse {} (blockSource (commented c note))).toTraced.result =
          .ok [blockExpr tok' e'] ∧
        e'.unplaced = e.unplaced := by
  intro h
  have hc : Nested .code 0 ['1'] := .codeChar (by decide) (by decide) (by decide) .codeEnd
  have hok : (Source.parse {} (blockSource ['1'])).failure = none := by decide +kernel
  obtain ⟨-, -, tok, e, -, hparse, -⟩ := h ['1'] ['}'] _ ⟨0, hc⟩ (by decide) (by decide)
    (by rw [Parsed.toTraced, hok])
  obtain ⟨i, hnote, -⟩ := nested_of_parse_commented hc (fits_zero _ _) hparse
  cases hnote with
  | codeChar _ _ hclose => exact hclose rfl

end TextScript
