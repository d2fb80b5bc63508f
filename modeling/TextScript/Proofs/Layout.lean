/-
TextScript/Proofs/Layout.lean

How tokens lie in a source.

A source is its tokens as they are written, with gaps between them: `Lays lead cs spots` says so
of the characters `cs`, which may stand behind further characters `lead`, and pairs every token
with all that comes before it.  The lexer keeps a position instead of these characters.  The two
agree at every token, the end of input included (`tokens_spots`), because both go on by the same
gaps and spans.
-/
import TextScript.Proofs.Tokens

namespace TextScript

open Lexer

/-! ### Gaps -/

/-- `Gap gap rest`: the characters `gap` separate what is in front of them from `rest`.  They are
blanks, continued lines, and a comment, which reaches up to the end of its line. -/
inductive Gap : List Char → List Char → Prop
  | none (rest : List Char) : Gap [] rest
  | blank {c : Char} {gap rest : List Char} :
      c = ' ' ∨ c = '\t' ∨ c = '\r' → Gap gap rest → Gap (c :: gap) rest
  | continued {gap rest : List Char} : Gap gap rest → Gap ('\\' :: '\n' :: gap) rest
  | comment {body rest : List Char} :
      '\n' ∉ body → (rest = [] ∨ ∃ more, rest = '\n' :: more) → Gap (';' :: body) rest

variable {limit : Int} {c : Char} {cs lead pre gap rest src : List Char} {tok : Token}

theorem comment_span (cs : List Char) :
    '\n' ∉ cs.take (blankSize true cs) ∧
      (cs.drop (blankSize true cs) = [] ∨ ∃ more, cs.drop (blankSize true cs) = '\n' :: more) := by
  induction cs with
  | nil => simp
  | cons c cs ih =>
    rw [blankSize]
    split
    · next hc =>
      subst hc
      exact ⟨by simp, .inr ⟨cs, rfl⟩⟩
    · next hc =>
      obtain ⟨hline, hend⟩ := ih
      refine ⟨?_, by simpa using hend⟩
      rw [List.take_succ_cons, List.mem_cons, not_or]
      exact ⟨fun h => hc h.symm, hline⟩

/-- What the lexer skips in front of a token is a gap. -/
theorem blank_gap (cs : List Char) :
    Gap (cs.take (blankSize false cs)) (cs.drop (blankSize false cs)) := by
  generalize hb : false = inComment
  fun_induction blankSize inComment cs with
  | case1 => exact .none []
  | case2 => cases hb
  | case3 => cases hb
  | case4 c cs hc ih => exact .blank hc (ih rfl)
  | case5 cs =>
    obtain ⟨hline, hend⟩ := comment_span cs
    exact .comment hline hend
  | case6 cs _ _ ih => exact .continued (ih rfl)
  | case7 => exact .none _
  | case8 => exact .none _

/-! ### Tokens as they are written -/

/-- The characters of a token.  The spelling of a literal leaves out its quotes. -/
def Token.written (tok : Token) : List Char :=
  if tok.kind = .text then '"' :: (tok.lit.toList ++ ['"']) else tok.lit.toList

theorem Token.written_text (h : tok.kind = .text) :
    tok.written = '"' :: (tok.lit.toList ++ ['"']) := by
  rw [written, if_pos h]

/-- A token is written as the characters it spans. -/
theorem token_written (limit : Int) (c : Char) (cs : List Char) (p : Position) :
    (token limit (lexeme limit c cs) ((c :: cs).take (lexeme limit c cs).size) p).written
      = (c :: cs).take (lexeme limit c cs).size := by
  by_cases hk : (lexeme limit c cs).kind = .text
  · have hc : c = '"' := Decidable.byContradiction fun hc => (lexeme_of_ne_quote hc).1 hk
    subst hc
    have htext :
        (token limit (lexeme limit '"' cs) (('"' :: cs).take (lexeme limit '"' cs).size) p).kind
          = .text := hk
    rw [Token.written_text htext]
    rw [lexeme_quote] at hk
    obtain ⟨body, rest, k, rfl, hbody, hfit⟩ := textLexeme_span hk
    rw [hbody.lexeme hfit]
    simp only [token, take_literal, spelling_text, String.toList_ofList]
  · rw [Token.written, if_neg (show (token ..).kind ≠ .text from hk)]
    have hlit : spelling (lexeme limit c cs).kind ((c :: cs).take (lexeme limit c cs).size)
        = String.ofList ((c :: cs).take (lexeme limit c cs).size) := by
      unfold spelling
      split
      · next h => exact absurd h hk
      · rfl
    simp only [token, hlit, String.toList_ofList]

/-! ### Tokens in a row -/

/-- `Lays lead cs spots`: the characters `cs`, which stand behind `lead`, are the tokens of
`spots` as they are written, in order and with gaps in front of them.  Each token comes with all
characters before it. -/
inductive Lays : List Char → List Char → List (List Char × Token) → Prop
  | last {lead gap : List Char} {tok : Token} :
      Gap gap [] → tok.kind = .eof → tok.lit = "" → Lays lead gap [(lead ++ gap, tok)]
  | next {lead gap rest : List Char} {tok : Token} {spots : List (List Char × Token)} :
      Gap gap (tok.written ++ rest) → tok.kind ≠ .eof →
      Lays (lead ++ (gap ++ tok.written)) rest spots →
      Lays lead (gap ++ (tok.written ++ rest)) ((lead ++ gap, tok) :: spots)

/-- The place of the character behind `pre` in a source. -/
def behind (pre : List Char) : Position :=
  ({} : Position).advance pre

@[simp] theorem behind_advance (pre cs : List Char) :
    (behind pre).advance cs = behind (pre ++ cs) :=
  (Position.advance_append _ _ _).symm

variable {spots : List (List Char × Token)}

/-- A token in a row is followed by the rest of the source. -/
theorem Lays.stands (h : Lays lead cs spots) (hmem : (pre, tok) ∈ spots) :
    ∃ post, lead ++ cs = pre ++ (tok.written ++ post) := by
  induction h with
  | last _ hk hlit =>
    cases List.mem_singleton.mp hmem
    refine ⟨[], ?_⟩
    simp [Token.written, hk, hlit]
  | next _ _ _ ih =>
    rcases List.mem_cons.mp hmem with heq | hmem
    · cases heq
      exact ⟨_, List.append_assoc .. |>.symm⟩
    · obtain ⟨post, hpost⟩ := ih hmem
      exact ⟨post, by rw [← hpost]; simp⟩

/-- The tokens of a source lie in it in a row, and each one's place is that of the characters
before it. -/
theorem tokens_spots (limit : Int) (lead cs : List Char) :
    ∃ spots, Lays lead cs spots ∧ spots.map Prod.snd = tokens limit (behind lead) cs ∧
      ∀ spot ∈ spots, spot.2.place = behind spot.1 := by
  induction cs using source_induction limit generalizing lead with
  | done cs hs =>
    have hgap := blank_gap cs
    have hcut := List.take_append_drop (blankSize false cs) cs
    rw [hs] at hgap hcut
    rw [List.append_nil] at hcut
    rw [tokens_end hs, hcut]
    rw [hcut] at hgap
    refine ⟨_, .last hgap rfl rfl, rfl, ?_⟩
    intro spot hspot
    rw [List.mem_singleton.mp hspot]
    simp
  | next src c cs hs ih =>
    have hgap := blank_gap src
    have hcut := List.take_append_drop (blankSize false src) src
    rw [hs] at hgap hcut
    rw [tokens_next hs]
    generalize src.take (blankSize false src) = gap at hgap hcut ⊢
    -- the token is named, so that what is known of it can be rewritten where it occurs
    obtain ⟨tok, htok⟩ : ∃ tok, tok = token limit (lexeme limit c cs)
      ((c :: cs).take (lexeme limit c cs).size) ((behind lead).advance gap) := ⟨_, rfl⟩
    have hwritten : tok.written = (c :: cs).take (lexeme limit c cs).size := by
      rw [htok, token_written]
    have hkind : tok.kind ≠ .eof := by
      rw [htok]
      exact lexeme_kind_ne_eof limit c cs
    have hplace : tok.place = behind (lead ++ gap) := by
      rw [htok, ← behind_advance]
      rfl
    rw [← htok]
    have hspan := List.take_append_drop (lexeme limit c cs).size (c :: cs)
    rw [← hwritten] at hspan ⊢
    obtain ⟨spots, hlays, htokens, hplaces⟩ := ih (lead ++ (gap ++ tok.written))
    refine ⟨(lead ++ gap, tok) :: spots, ?_, ?_, ?_⟩
    · rw [← hcut, ← hspan]
      exact .next (by rw [hspan]; exact hgap) hkind hlays
    · simp [htokens]
    · intro spot hspot
      rcases List.mem_cons.mp hspot with rfl | hspot
      · exact hplace
      · exact hplaces spot hspot

end TextScript
