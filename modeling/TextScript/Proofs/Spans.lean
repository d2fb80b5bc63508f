/-
TextScript/Proofs/Spans.lean

Tokens and gaps make up the whole source.

A token stands at a span of the source, and its spelling is what stands there (`Fills`); a literal
that has no end within the limit stands at all that is left.  The spans follow each other, and
only gaps lie in front of them, between them and behind them (`Tiled`).  Both facts are read off
one turn of the token loop: a gap, and the lexeme behind it.

A cursor gives the same tokens one call at a time.  Each call but the last takes at least one
character off, and the last one leaves nothing, so that every later call finds the end of input
where the first one found it (`calls_eq`).
-/
import Mathlib.Data.List.Forall2
import TextScript.Proofs.Lookahead
import TextScript.Token.Cursor

namespace TextScript

open Lexer

variable {limit : Int} {p : Position} {cs gap tail r src : List Char} {c : Char} {last : Token}

/-! ### Spans -/

/-- A stretch of a source: the characters numbered from `start` on, up to and without `stop`. -/
structure Span where
  start : Nat
  stop : Nat
deriving DecidableEq, Repr

/-- The characters in a span. -/
def Span.chars (s : Span) (src : List Char) : List Char :=
  (src.drop s.start).take (s.stop - s.start)

/-- A body within the limit begins here and is ended by a quote. -/
def Completes (limit : Int) (cs : List Char) : Prop :=
  ∃ body rest k, cs = body ++ '"' :: rest ∧ Nested .body k body ∧ Fits limit 0 k

/-- `Fills limit src tok s`: the token `tok` stands at the span `s` of the source. -/
structure Fills (limit : Int) (src : List Char) (tok : Token) (s : Span) : Prop where
  nonempty : s.start < s.stop
  within : s.stop ≤ src.length
  /-- The spelling is what stands there; that of a literal leaves out the quotes. -/
  chars : s.chars src = tok.written
  /-- The spelling of a literal is a whole body. -/
  whole : tok.kind = .text → ∃ k, Nested .body k tok.lit.toList ∧ Fits limit 0 k
  /-- A quote begins a literal if that has an end within the limit, and only then. -/
  ended : src[s.start]? = some '"' → Completes limit (src.drop (s.start + 1)) → tok.kind = .text
  /-- Otherwise it begins a token that takes everything with it. -/
  endless : src[s.start]? = some '"' → ¬Completes limit (src.drop (s.start + 1)) →
    tok.kind = .illegal ∧ s.stop = src.length

/-- `Tiled src i spans`: from the character numbered `i` on, the source is the spans in their
order, with gaps in front of them and behind the last one. -/
def Tiled (src : List Char) : Nat → List Span → Prop
  | i, [] => Gap (src.drop i) []
  | i, s :: spans =>
    i ≤ s.start ∧ Gap (Span.chars ⟨i, s.start⟩ src) (src.drop s.start) ∧ Tiled src s.stop spans

theorem Span.chars_between (pre cs post : List Char) :
    Span.chars ⟨pre.length, (pre ++ cs).length⟩ (pre ++ (cs ++ post)) = cs := by
  simp [chars]

/-- Spans that tile a source follow each other. -/
theorem Tiled.increasing {i : Nat} {spans : List Span} (h : Tiled src i spans)
    (hne : ∀ s ∈ spans, s.start < s.stop) :
    (∀ s ∈ spans, i ≤ s.start) ∧ spans.Pairwise (fun s t => s.stop ≤ t.start) := by
  induction spans generalizing i with
  | nil => exact ⟨by simp, .nil⟩
  | cons s spans ih =>
    obtain ⟨hle, -, hrest⟩ := h
    obtain ⟨hfrom, hpair⟩ := ih hrest fun t ht => hne t (List.mem_cons_of_mem _ ht)
    have hs : s.start < s.stop := hne s List.mem_cons_self
    refine ⟨?_, .cons hfrom hpair⟩
    intro t ht
    rcases List.mem_cons.mp ht with rfl | ht
    · exact hle
    · have := hfrom t ht
      omega

/-- There are no more spans than characters. -/
theorem Tiled.length_le {i : Nat} {spans : List Span} (h : Tiled src i spans) (hi : i ≤ src.length)
    (hne : ∀ s ∈ spans, s.start < s.stop) (hin : ∀ s ∈ spans, s.stop ≤ src.length) :
    i + spans.length ≤ src.length := by
  induction spans generalizing i with
  | nil => exact hi
  | cons s spans ih =>
    obtain ⟨hle, -, hrest⟩ := h
    have hs : s.start < s.stop := hne s List.mem_cons_self
    have hlen := ih hrest (hin s List.mem_cons_self) (fun t ht => hne t (List.mem_cons_of_mem _ ht))
      fun t ht => hin t (List.mem_cons_of_mem _ ht)
    rw [List.length_cons]
    omega

/-! ### One lexeme -/

theorem textLexeme_text_iff : (textLexeme limit cs).kind = .text ↔ Completes limit cs := by
  constructor
  · exact textLexeme_span
  · rintro ⟨body, rest, k, rfl, hbody, hfit⟩
    rw [← lexeme_quote, hbody.lexeme hfit]

theorem textLexeme_size (h : (textLexeme limit cs).kind ≠ .text) :
    (textLexeme limit cs).size = cs.length + 1 := by
  unfold textLexeme at h ⊢
  split
  · next heq =>
    rw [heq] at h
    exact absurd rfl h
  · rfl

/-- The token of a lexeme stands where the lexeme does. -/
theorem lexeme_fills (hsize : (lexeme limit c (tail ++ r)).size = tail.length + 1) (pre : List Char)
    (p : Position) :
    Fills limit (pre ++ c :: (tail ++ r)) (token limit (lexeme limit c (tail ++ r)) (c :: tail) p)
      ⟨pre.length, (pre ++ c :: tail).length⟩ := by
  have hquote : (pre ++ c :: (tail ++ r))[pre.length]? = some '"' → c = '"' := by simp
  have hbehind : (pre ++ c :: (tail ++ r)).drop (pre.length + 1) = tail ++ r := by
    rw [← List.drop_drop, List.drop_left, List.drop_one, List.tail_cons]
  -- in the order of the fields of `Fills`: not empty, within the source, the characters, a whole
  -- literal, one that ends, one without an end
  constructor
  · simp
  · simp
  · have hwritten := token_written limit c (tail ++ r) p
    rw [take_lexeme hsize] at hwritten
    rw [hwritten, ← List.cons_append, Span.chars_between]
  · intro hk
    have htext : (lexeme limit c (tail ++ r)).kind = .text := hk
    obtain rfl : c = '"' := Decidable.byContradiction fun hc => (lexeme_of_ne_quote hc).1 htext
    rw [lexeme_quote] at htext
    obtain ⟨body, rest, k, hcut, hbody, hfit⟩ := textLexeme_span htext
    refine ⟨k, ?_, hfit⟩
    rw [← take_lexeme hsize, hcut, hbody.lexeme hfit, take_literal, token, spelling_text,
      String.toList_ofList]
    exact hbody
  · intro hq hends
    obtain rfl := hquote hq
    rw [hbehind] at hends
    show (lexeme limit '"' (tail ++ r)).kind = .text
    rw [lexeme_quote]
    exact textLexeme_text_iff.mpr hends
  · intro hq hends
    obtain rfl := hquote hq
    rw [hbehind] at hends
    have hk : (textLexeme limit (tail ++ r)).kind ≠ .text :=
      fun hk => hends (textLexeme_text_iff.mp hk)
    rw [lexeme_quote, textLexeme_size hk, List.length_append] at hsize
    refine ⟨?_, ?_⟩
    · show (lexeme limit '"' (tail ++ r)).kind = .illegal
      rw [lexeme_quote]
      exact (textLexeme_kind limit _).resolve_left hk
    · simp only [List.length_append, List.length_cons]
      omega

/-! ### All lexemes -/

/-- The tokens of what stands behind `pre` stand at spans that tile it, up to the end of input. -/
theorem tokens_tile (limit : Int) (p : Position) (pre cs : List Char) :
    ∃ toks last spans, tokens limit p cs = toks ++ [last] ∧ last.kind = .eof ∧
      (∀ tok ∈ toks, tok.kind ≠ .eof) ∧ List.Forall₂ (Fills limit (pre ++ cs)) toks spans ∧
      Tiled (pre ++ cs) pre.length spans := by
  induction cs using lexeme_induction limit generalizing pre p with
  | done gap hgap =>
    refine ⟨[], _, [], tokens_gap_end hgap p, rfl, by simp, .nil, ?_⟩
    show Gap ((pre ++ gap).drop pre.length) []
    rwa [List.drop_left]
  | next gap c tail r hblank hsize ih =>
    rw [tokens_lexeme hblank hsize]
    obtain ⟨toks, last, spans, htokens, hlast, hkinds, hfill, htile⟩ :=
      ih ((p.advance gap).advance (c :: tail)) (pre ++ gap ++ c :: tail)
    -- the source is the same, cut behind the lexeme or in front of it
    have hwhole : pre ++ gap ++ c :: tail ++ r = pre ++ (gap ++ c :: (tail ++ r)) := by simp
    have hfront : pre ++ (gap ++ c :: (tail ++ r)) = pre ++ gap ++ c :: (tail ++ r) := by simp
    rw [hwhole] at hfill htile
    refine ⟨_ :: toks, last, ⟨(pre ++ gap).length, (pre ++ gap ++ c :: tail).length⟩ :: spans,
      congrArg (_ :: ·) htokens, hlast, ?_, .cons ?_ hfill, ?_, ?_, htile⟩
    · exact List.forall_mem_cons.mpr ⟨lexeme_kind_ne_eof limit c _, hkinds⟩
    · rw [hfront]
      exact lexeme_fills hsize (pre ++ gap) _
    · simp
    · rw [Span.chars_between, hfront, List.drop_left]
      exact gap_of_blankSize hblank

/-! ### One call at a time -/

namespace Cursor

theorem next_gap (h : Gap gap []) (p : Position) :
    next limit ⟨p, gap⟩ = ({ kind := .eof, place := p.advance gap }, ⟨p.advance gap, []⟩) := by
  have hblank : blankSize false gap = gap.length := by
    have hsize := blankSize_gap h [] rfl
    rwa [List.append_nil] at hsize
  unfold next
  simp only [hblank, List.drop_length, List.take_length]

theorem next_lexeme (hblank : blankSize false (gap ++ c :: (tail ++ r)) = gap.length)
    (hsize : (lexeme limit c (tail ++ r)).size = tail.length + 1) (p : Position) :
    next limit ⟨p, gap ++ c :: (tail ++ r)⟩ =
      (token limit (lexeme limit c (tail ++ r)) (c :: tail) (p.advance gap),
        ⟨(p.advance gap).advance (c :: tail), r⟩) := by
  unfold next
  simp only [hblank, List.drop_left, List.take_left, take_lexeme hsize, drop_lexeme hsize]

/-- At the end of a source every call gives the end of input, at one place. -/
theorem calls_end (n : Nat) (p : Position) :
    calls limit n ⟨p, []⟩ = List.replicate n { kind := .eof, place := p } := by
  induction n with
  | zero => rfl
  | succ n ih =>
    have hend : next limit ⟨p, []⟩ = ({ kind := .eof, place := p }, ⟨p, []⟩) :=
      next_gap (.none []) p
    rw [calls, hend, ih, List.replicate_succ]

/-- Calls give the tokens of a source in their order, and then its last one over and over. -/
theorem calls_eq {toks : List Token} (h : tokens limit p cs = toks ++ [last]) (n : Nat) :
    calls limit n ⟨p, cs⟩ = toks.take n ++ List.replicate (n - toks.length) last := by
  induction cs using lexeme_induction limit generalizing p n toks with
  | done gap hgap =>
    rw [tokens_gap_end hgap] at h
    obtain ⟨rfl, hlast⟩ := List.append_eq_singleton_iff.mp h.symm |>.resolve_right (by simp)
    cases hlast
    cases n with
    | zero => rfl
    | succ n =>
      rw [calls, next_gap hgap, calls_end]
      rfl
  | next gap c tail r hblank hsize ih =>
    cases n with
    | zero => simp [calls]
    | succ n =>
      rw [tokens_lexeme hblank hsize] at h
      cases toks with
      | nil =>
        -- the last token is not the first one here
        obtain ⟨-, hnil⟩ := List.cons.inj h
        obtain ⟨init, eof, hrest, -⟩ :=
          tokens_eq_concat limit ((p.advance gap).advance (c :: tail)) r
        exact absurd (hnil.symm.trans hrest) (by simp)
      | cons tok toks =>
        obtain ⟨rfl, hrest⟩ := List.cons.inj h
        rw [calls, next_lexeme hblank hsize, ih hrest n]
        simp

end Cursor

/-- The calls on a source give tokens and then, from the first end of input on, nothing else.  Up
to there the tokens are no more than the characters.  They stand at spans of the source that are
not empty, do not overlap and come in order; the spelling of each is what stands at its span,
where literals are whole and one without an end takes all that is left.  What stands outside of
the spans are gaps: blanks, continued lines, and comments up to the end of their line. -/
theorem source_tiled_by_tokens (limit : Int) (p : Position) (src : List Char) :
    ∃ toks last spans, tokens limit p src = toks ++ [last] ∧
      (∀ n, Cursor.calls limit n ⟨p, src⟩
        = toks.take n ++ List.replicate (n - toks.length) last) ∧
      last.kind = .eof ∧ (∀ tok ∈ toks, tok.kind ≠ .eof) ∧ toks.length ≤ src.length ∧
      List.Forall₂ (Fills limit src) toks spans ∧
      spans.Pairwise (fun s t => s.stop ≤ t.start) ∧ Tiled src 0 spans := by
  obtain ⟨toks, last, spans, htokens, hlast, hkinds, hfill, htile⟩ := tokens_tile limit p [] src
  obtain ⟨hin, -⟩ := (List.forall₂_and_left spans toks).mp <|
    hfill.flip.imp fun s tok h =>
      ⟨(⟨h.nonempty, h.within⟩ : s.start < s.stop ∧ s.stop ≤ src.length), h⟩
  have hlen := htile.length_le (Nat.zero_le _) (fun s hs => (hin s hs).1) fun s hs => (hin s hs).2
  obtain ⟨-, hpair⟩ := htile.increasing fun s hs => (hin s hs).1
  refine ⟨toks, last, spans, htokens, Cursor.calls_eq htokens, hlast, hkinds, ?_, hfill,
    hpair, htile⟩
  rw [hfill.length_eq]
  simpa using hlen

/-- A name, a comment with a quote in it, a number on the next line, and a literal without an
end. -/
example : (Cursor.calls 0 5 ⟨{}, "a? ; \"\n7\"b".toList⟩).map (fun tok => (tok.kind, tok.lit))
    = [(.ident, "a?"), (.terminator, "\n"), (.int, "7"), (.illegal, "\"b"), (.eof, "")] := by
  decide +kernel

end TextScript
