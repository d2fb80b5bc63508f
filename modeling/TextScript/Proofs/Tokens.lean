/-
TextScript/Proofs/Tokens.lean

What the lexer makes of literals.

Every token but the last is the token of the lexeme at some place of the source, and only a quote
begins a lexeme that is a literal or an unbalanced one.  So a text token spells a body that fits the
limit (`mem_tokens_text`), wherever it stands.

The code of an interpolation is a source of its own when it is read.  Braces mean nothing to the
lexer, so what it walks over is weaker than code: characters and whole literals in turn,
`Lexable`.  Blanks, names, numbers and operators never pass over a quote, so the walk meets
opening quotes exactly where the grammar has them.  Comments would break this, and are excluded.
-/
import TextScript.Proofs.Balance
import TextScript.Token.Lexer

namespace TextScript

open Lexer

variable {limit : Int} {p : Position} {src cs : List Char} {c : Char} {tok : Token} {f : Failure}

/-! ### The token loop -/

namespace Lexer

theorem tokens_end (h : src.drop (blankSize false src) = []) :
    tokens limit p src
      = [{ kind := .eof, place := p.advance (src.take (blankSize false src)) }] := by
  rw [tokens]
  split
  · rfl
  · next heq =>
    rw [h] at heq
    cases heq

theorem tokens_next (h : src.drop (blankSize false src) = c :: cs) :
    tokens limit p src =
      token limit (lexeme limit c cs) ((c :: cs).take (lexeme limit c cs).size)
          (p.advance (src.take (blankSize false src))) ::
        tokens limit
          ((p.advance (src.take (blankSize false src))).advance
            ((c :: cs).take (lexeme limit c cs).size))
          ((c :: cs).drop (lexeme limit c cs).size) := by
  rw [tokens]
  split
  · next heq =>
    rw [h] at heq
    cases heq
  · next heq =>
    rw [h] at heq
    cases heq
    rfl

/-- Induction along the token loop: over what is left of a source after each lexeme. -/
@[elab_as_elim] theorem source_induction (limit : Int) {P : List Char → Prop}
    (done : ∀ src, src.drop (blankSize false src) = [] → P src)
    (next : ∀ src c cs, src.drop (blankSize false src) = c :: cs →
      P ((c :: cs).drop (lexeme limit c cs).size) → P src)
    (src : List Char) : P src := by
  induction hn : src.length using Nat.strongRecOn generalizing src with
  | ind n ih =>
    rcases hs : src.drop (blankSize false src) with - | ⟨c, cs⟩
    · exact done src hs
    · refine next src c cs hs (ih _ ?_ _ rfl)
      have hlen : (src.drop (blankSize false src)).length ≤ src.length := by simp
      have hpos := lexeme_size_pos limit c cs
      rw [hs] at hlen
      simp only [List.length_drop, List.length_cons] at hlen ⊢
      omega

/-- Every token is the end of input, or the token of the lexeme at some place of the source. -/
theorem mem_tokens (h : tok ∈ tokens limit p src) :
    (∃ q, tok = { kind := .eof, place := q }) ∨
      ∃ pre c cs q, src = pre ++ c :: cs ∧
        tok = token limit (lexeme limit c cs) ((c :: cs).take (lexeme limit c cs).size) q := by
  induction src using source_induction limit generalizing p with
  | done src hs =>
    rw [tokens_end hs, List.mem_singleton] at h
    exact .inl ⟨_, h⟩
  | next src c cs hs ih =>
    rw [tokens_next hs] at h
    have hsrc : src = src.take (blankSize false src) ++ c :: cs := by
      rw [← hs, List.take_append_drop]
    rcases List.mem_cons.mp h with rfl | hrest
    · exact .inr ⟨_, c, cs, _, hsrc, rfl⟩
    -- a later token stands behind the blanks and the first lexeme
    · rcases ih hrest with hend | ⟨pre, d, ds, q, hd, htok⟩
      · exact .inl hend
      · refine .inr ⟨src.take (blankSize false src) ++
          ((c :: cs).take (lexeme limit c cs).size ++ pre), d, ds, q, ?_, htok⟩
        rw [List.append_assoc, List.append_assoc, ← hd, List.take_append_drop, ← hsrc]

/-- The last token of a source is the end of input. -/
theorem getLast?_tokens (limit : Int) (p : Position) (src : List Char) :
    ∃ q, (tokens limit p src).getLast? = some { kind := .eof, place := q } := by
  induction src using source_induction limit generalizing p with
  | done src hs =>
    rw [tokens_end hs]
    exact ⟨_, rfl⟩
  | next src c cs hs ih =>
    obtain ⟨q, hq⟩ := ih _
    rw [tokens_next hs, List.getLast?_cons, hq]
    exact ⟨q, rfl⟩

/-! ### Lexemes of literals -/

theorem textLexeme_kind (limit : Int) (cs : List Char) :
    (textLexeme limit cs).kind = .text ∨ (textLexeme limit cs).kind = .illegal := by
  unfold textLexeme
  split
  · exact .inl rfl
  · exact .inr rfl

theorem lexeme_quote : lexeme limit '"' cs = textLexeme limit cs := by
  simp [lexeme]

/-- Only a quote begins a literal, balanced or not. -/
theorem lexeme_of_ne_quote (hc : c ≠ '"') :
    (lexeme limit c cs).kind ≠ .text ∧ (lexeme limit c cs).unbalanced = none := by
  unfold lexeme
  split <;> try exact ⟨by simp, rfl⟩
  · exact absurd rfl hc
  · split
    · exact ⟨by simp, rfl⟩
    · split <;> exact ⟨by simp, rfl⟩

theorem lexeme_kind_ne_eof (limit : Int) (c : Char) (cs : List Char) :
    (lexeme limit c cs).kind ≠ .eof := by
  intro h
  unfold lexeme at h
  split at h <;> try cases h
  · rcases textLexeme_kind limit cs with hk | hk <;> rw [hk] at h <;> cases h
  · split at h
    · cases h
    · split at h <;> cases h

/-- The end of input is the last token and no other. -/
theorem tokens_eq_concat (limit : Int) (p : Position) (src : List Char) :
    ∃ init last, tokens limit p src = init ++ [last] ∧ last.kind = .eof ∧
      ∀ tok ∈ init, tok.kind ≠ .eof := by
  induction src using source_induction limit generalizing p with
  | done src hs => exact ⟨[], _, tokens_end hs, rfl, by simp⟩
  | next src c cs hs ih =>
    obtain ⟨init, last, htokens, hlast, hinit⟩ := ih
      ((p.advance (src.take (blankSize false src))).advance
        ((c :: cs).take (lexeme limit c cs).size))
    rw [tokens_next hs, htokens]
    refine ⟨_ :: init, last, rfl, hlast, ?_⟩
    · intro tok hmem
      rcases List.mem_cons.mp hmem with rfl | hmem
      · exact lexeme_kind_ne_eof limit c cs
      · exact hinit tok hmem

end Lexer

theorem Nested.lexeme {k : Nat} {body rest : List Char} (h : Nested .body k body)
    (hfit : Fits limit 0 k) :
    Lexer.lexeme limit '"' (body ++ '"' :: rest) = ⟨.text, body.length + 2, none⟩ := by
  rw [lexeme_quote, textLexeme, h.text_closed hfit]

theorem Nested.lexeme_tooDeep {k : Nat} {body : List Char} (h : Nested .body k body)
    (hfit : ¬Fits limit 0 k) (rest : List Char) :
    Lexer.lexeme limit '"' (body ++ '"' :: rest)
      = ⟨.illegal, (body ++ '"' :: rest).length + 1, some .tooDeep⟩ := by
  obtain ⟨n, hn⟩ := h.text_tooDeep hfit rest
  rw [lexeme_quote, textLexeme, hn]

theorem take_literal (body rest : List Char) :
    ('"' :: (body ++ '"' :: rest)).take (body.length + 2) = '"' :: (body ++ ['"']) := by
  rw [List.take_succ_cons, List.take_append, List.take_of_length_le (Nat.le_succ _)]
  simp

theorem drop_literal (body rest : List Char) :
    ('"' :: (body ++ '"' :: rest)).drop (body.length + 2) = rest := by
  rw [List.drop_succ_cons, List.drop_append]
  simp

/-- The spelling of a literal is what stands between its quotes. -/
theorem spelling_text (body : List Char) :
    spelling .text ('"' :: (body ++ ['"'])) = String.ofList body := by
  simp [spelling]

/-- A lexeme of a literal spans a body that fits the limit, and its quotes. -/
theorem textLexeme_span (h : (textLexeme limit cs).kind = .text) :
    ∃ body rest k, cs = body ++ '"' :: rest ∧ Nested .body k body ∧ Fits limit 0 k := by
  unfold textLexeme at h
  rcases hscan : Balance.text 0 limit cs with n | ⟨n, why⟩
  · obtain ⟨⟨k, hbody, hfit⟩, hq⟩ := text_closed_iff.mp hscan
    obtain ⟨body, rest, hP, rfl, rfl⟩ :=
      (take_getElem?_iff (P := fun span => Nested .body k span)).mp ⟨hbody, hq⟩
    exact ⟨body, rest, k, rfl, hP, hfit⟩
  · rw [hscan] at h
    cases h

/-- A text token spells a body that fits the limit, and stands in the source between quotes. -/
theorem mem_tokens_text (h : tok ∈ tokens limit p src) (hk : tok.kind = .text) :
    ∃ pre body rest k, src = pre ++ '"' :: (body ++ '"' :: rest) ∧
      tok.lit = String.ofList body ∧ Nested .body k body ∧ Fits limit 0 k := by
  rcases mem_tokens h with ⟨q, rfl⟩ | ⟨pre, c, cs, q, rfl, rfl⟩
  · cases hk
  by_cases hc : c = '"'
  · subst hc
    have htext : (lexeme limit '"' cs).kind = .text := hk
    rw [lexeme_quote] at htext
    obtain ⟨body, rest, k, rfl, hbody, hfit⟩ := textLexeme_span htext
    refine ⟨pre, body, rest, k, rfl, ?_, hbody, hfit⟩
    rw [hbody.lexeme hfit, take_literal]
    exact spelling_text body
  · exact absurd hk (lexeme_of_ne_quote hc).1

theorem mem_tokens_nested (h : tok ∈ tokens limit p src) (hk : tok.kind = .text) :
    ∃ k, Nested .body k tok.lit.toList ∧ Fits limit 0 k := by
  obtain ⟨-, body, -, k, -, hbody, hnested, hfit⟩ := mem_tokens_text h hk
  rw [hbody, String.toList_ofList]
  exact ⟨k, hnested, hfit⟩

/-- However a text token is read as a body, it fits the limit. -/
theorem mem_tokens_fits {k : Nat} (h : tok ∈ tokens limit p src) (hk : tok.kind = .text)
    (hn : Nested .body k tok.lit.toList) : Fits limit 0 k := by
  obtain ⟨j, hj, hfit⟩ := mem_tokens_nested h hk
  exact hfit.mono (hj.depth_le hn)

/-- The characters of a text token are characters of the source. -/
theorem mem_tokens_chars (h : tok ∈ tokens limit p src) (hk : tok.kind = .text)
    (hc : c ∈ tok.lit.toList) : c ∈ src := by
  obtain ⟨pre, body, rest, k, rfl, hbody, -⟩ := mem_tokens_text h hk
  rw [hbody, String.toList_ofList] at hc
  simp [hc]

/-- A fault makes a token illegal. -/
theorem mem_tokens_fault (h : tok ∈ tokens limit p src) (hf : tok.fault = some f) :
    tok.kind = .illegal := by
  rcases mem_tokens h with ⟨q, rfl⟩ | ⟨pre, c, cs, q, rfl, rfl⟩
  · cases hf
  · simp only [token] at hf ⊢
    unfold faultOf at hf
    split at hf
    all_goals first | assumption | cases hf

/-- Where a source begins changes neither the kinds nor the spellings of its tokens. -/
theorem mem_tokens_moved (h : tok ∈ tokens limit p src) (q : Position) :
    ∃ tok' ∈ tokens limit q src, tok'.kind = tok.kind ∧ tok'.lit = tok.lit := by
  induction src using source_induction limit generalizing p q with
  | done src hs =>
    rw [tokens_end hs, List.mem_singleton] at h
    rw [tokens_end hs]
    exact ⟨_, List.mem_singleton_self _, by rw [h], by rw [h]⟩
  | next src c cs hs ih =>
    rw [tokens_next hs] at h ⊢
    rcases List.mem_cons.mp h with rfl | hrest
    · exact ⟨_, List.mem_cons_self, rfl, rfl⟩
    · obtain ⟨tok', hmem, hsame⟩ := ih hrest _
      exact ⟨tok', List.mem_cons_of_mem _ hmem, hsame⟩

/-! ### Sources made of characters and whole literals -/

/-- `Lexable k cs`: characters other than quotes and whole literals in turn, where the literals nest
`k` deep. -/
inductive Lexable : Nat → List Char → Prop
  | nil : Lexable 0 []
  | char {k c cs} : c ≠ '"' → Lexable k cs → Lexable k (c :: cs)
  | literal {j k body cs} :
      Nested .body j body → Lexable k cs → Lexable (max j k) ('"' :: (body ++ '"' :: cs))

theorem Lexable.append {j k : Nat} {cs ds : List Char} (h : Lexable j cs) (hd : Lexable k ds) :
    Lexable (max j k) (cs ++ ds) := by
  induction h with
  | nil => simpa using hd
  | char hc _ ih => exact .char hc ih
  | literal hb _ ih =>
    rw [List.cons_append, List.append_assoc, List.cons_append, Nat.max_assoc]
    exact .literal hb ih

/-- Code is lexable: its braces are characters like others. -/
theorem Nested.lexable {r : Region} {k : Nat} (h : Nested r k cs) (hr : r = .code) :
    Lexable k cs := by
  induction h with
  | bodyEnd => cases hr
  | bodyChar => cases hr
  | bodyEscape => cases hr
  | bodyBlock => cases hr
  | codeEnd => exact .nil
  | codeChar hq _ _ _ ih => exact .char hq (ih rfl)
  | codeBraces _ _ ihi ihc =>
    have hclose : Lexable _ ('}' :: _) := .char (by decide) (ihc rfl)
    exact .char (by decide) ((ihi rfl).append hclose)
  | codeLiteral hb _ _ ihc => exact .literal hb (ihc rfl)

/-- Characters without a quote can be dropped from the front. -/
theorem Lexable.drop {k : Nat} (h : Lexable k cs) (n : Nat) (hq : '"' ∉ cs.take n) :
    Lexable k (cs.drop n) := by
  induction n generalizing cs with
  | zero => simpa using h
  | succ n ih =>
    cases h with
    | nil => exact .nil
    | char hc hcs => exact ih hcs fun hmem => hq (by simp [hmem])
    | literal => exact absurd (by simp) hq

/-! ### What the lexer passes over -/

namespace Lexer

/-- Without comments, no quote is skipped before a token. -/
theorem quote_not_mem_blank (h : ';' ∉ cs) : '"' ∉ cs.take (blankSize false cs) := by
  generalize hb : false = inComment
  fun_induction blankSize inComment cs with
  | case1 => simp
  | case2 => cases hb
  | case3 => cases hb
  | case4 c cs hc ih =>
    have hrest := ih (fun hmem => h (List.mem_cons_of_mem _ hmem)) rfl
    rcases hc with rfl | rfl | rfl <;> simpa using hrest
  | case5 => exact absurd List.mem_cons_self h
  | case6 cs _ _ ih =>
    have hrest := ih (fun hmem => h (List.mem_cons_of_mem _ (List.mem_cons_of_mem _ hmem))) rfl
    simpa using hrest
  | case7 => simp
  | case8 => simp

theorem quote_not_mem_takeWhile {f : Char → Bool} (hf : f '"' = false) (cs : List Char) :
    '"' ∉ cs.take (cs.takeWhile f).length := by
  rw [← List.prefix_iff_eq_take.mp (List.takeWhile_prefix f)]
  intro hmem
  have hall : (cs.takeWhile f).all f = true := List.all_takeWhile
  exact absurd (List.all_eq_true.mp hall _ hmem) (by simp [hf])

theorem quote_not_mem_marks (cs : List Char) : '"' ∉ cs.take (markSize cs) := by
  fun_induction markSize cs <;> simp_all

theorem quote_not_mem_name (cs : List Char) : '"' ∉ cs.take (nameSize cs) := by
  have hpart : isNamePart '"' = false := by decide
  unfold nameSize
  simp only [List.take_add, List.mem_append, not_or]
  exact ⟨quote_not_mem_takeWhile hpart cs, quote_not_mem_marks _⟩

/-- A lexeme that does not begin with a quote holds none. -/
theorem quote_not_mem_lexeme (hc : c ≠ '"') :
    '"' ∉ (c :: cs).take (lexeme limit c cs).size := by
  unfold lexeme
  split <;> try exact by simp
  · exact absurd rfl hc
  · split
    · exact quote_not_mem_name _
    · split
      · exact quote_not_mem_takeWhile (by decide) _
      · simpa using Ne.symm hc

end Lexer

/-! ### Tokens of lexable sources -/

/-- After the blanks in front of a token, what is left is as lexable as before. -/
theorem Lexable.skip_blank {k : Nat} (h : Lexable k src) (hsemi : ';' ∉ src)
    (hs : src.drop (blankSize false src) = c :: cs) : Lexable k (c :: cs) := by
  rw [← hs]
  exact h.drop _ (quote_not_mem_blank hsemi)

theorem not_mem_drop_of_drop {d : Char} {m : Nat} (h : d ∉ src) (hs : src.drop m = c :: cs)
    (n : Nat) : d ∉ (c :: cs).drop n := by
  intro hmem
  rw [← hs] at hmem
  exact h (List.mem_of_mem_drop (List.mem_of_mem_drop hmem))

/-- A lexable source that has begun goes on with a lexeme without quotes or with a whole literal. -/
theorem Lexable.cases_lexeme {k : Nat} (h : Lexable k (c :: cs)) (limit : Int) :
    (c ≠ '"' ∧ Lexable k ((c :: cs).drop (lexeme limit c cs).size)) ∨
      ∃ i j body rest, c = '"' ∧ cs = body ++ '"' :: rest ∧ Nested .body i body ∧
        Lexable j rest ∧ k = max i j := by
  by_cases hc : c = '"'
  · subst hc
    cases h with
    | char hne => exact absurd rfl hne
    | literal hb hrest => exact .inr ⟨_, _, _, _, rfl, rfl, hb, hrest, rfl⟩
  · exact .inl ⟨hc, h.drop _ (quote_not_mem_lexeme hc)⟩

theorem faultOf_balanced {lx : Lexeme} {lit : String} (hlx : lx.unbalanced = none)
    (h : faultOf limit lx lit p = some f) : ∃ what place, f = .unexpected what place := by
  unfold faultOf at h
  rw [hlx] at h
  split at h
  · next hn => cases hn
  · next hn => cases hn
  · next hn => cases hn
  · exact ⟨_, _, (Option.some.inj h).symm⟩
  · cases h

/-- Without a quote, the only faults are characters that begin no token. -/
theorem fault_unexpected (hq : '"' ∉ src) (htok : tok ∈ tokens limit p src)
    (hf : tok.fault = some f) : ∃ what place, f = .unexpected what place := by
  rcases mem_tokens htok with ⟨q, rfl⟩ | ⟨pre, c, cs, q, rfl, rfl⟩
  · cases hf
  · have hc : c ≠ '"' := by
      rintro rfl
      exact hq (by simp)
    exact faultOf_balanced (lexeme_of_ne_quote hc).2 hf

/-- Where all literals fit the limit, the only faults are characters that begin no token. -/
theorem Lexable.fault_unexpected {k : Nat} (h : Lexable k src) (hsemi : ';' ∉ src)
    (hfit : Fits limit 0 k) (htok : tok ∈ tokens limit p src) (hf : tok.fault = some f) :
    ∃ what place, f = .unexpected what place := by
  induction src using source_induction limit generalizing p k with
  | done src hs =>
    rw [tokens_end hs, List.mem_singleton] at htok
    rw [htok] at hf
    cases hf
  | next src c cs hs ih =>
    rw [tokens_next hs] at htok
    have hrest := not_mem_drop_of_drop hsemi hs (lexeme limit c cs).size
    rcases (h.skip_blank hsemi hs).cases_lexeme limit with
      ⟨hc, hlex⟩ | ⟨i, j, body, rest, rfl, rfl, hb, hlex, rfl⟩
    · rcases List.mem_cons.mp htok with rfl | hmem
      · exact faultOf_balanced (lexeme_of_ne_quote hc).2 hf
      · exact ih hlex hrest hfit hmem
    -- a whole literal is one lexeme, and the walk goes on behind its closing quote
    · obtain ⟨hi, hj⟩ := fits_max.mp hfit
      rw [hb.lexeme hi] at htok ih hrest
      rw [drop_literal] at htok ih hrest
      rcases List.mem_cons.mp htok with rfl | hmem
      · exact absurd hf (by simp [token, faultOf])
      · exact ih hlex hrest hj hmem

/-- The failure of a literal that nests too deep. -/
def tooDeepAt (limit : Int) (p : Position) : Failure :=
  .makeAt .nestingTooDeep p (some [("Max", .number limit)])

/-- Where a literal does not fit the limit, some token says so. -/
theorem Lexable.exists_tooDeep {k : Nat} (h : Lexable k src) (hsemi : ';' ∉ src)
    (hfit : ¬Fits limit 0 k) (p : Position) :
    ∃ tok ∈ tokens limit p src, tok.kind = .illegal ∧
    tok.fault = some (tooDeepAt limit tok.place) := by
  induction src using source_induction limit generalizing p k with
  | done src hs =>
    have hend : Lexable k (src.drop (blankSize false src)) := h.drop _ (quote_not_mem_blank hsemi)
    rw [hs] at hend
    cases hend
    exact absurd (fits_zero limit 0) hfit
  | next src c cs hs ih =>
    rw [tokens_next hs]
    have hrest := not_mem_drop_of_drop hsemi hs (lexeme limit c cs).size
    rcases (h.skip_blank hsemi hs).cases_lexeme limit with
      ⟨hc, hlex⟩ | ⟨i, j, body, rest, rfl, rfl, hb, hlex, rfl⟩
    · obtain ⟨t, ht, hdeep⟩ := ih hlex hrest hfit _
      exact ⟨t, List.mem_cons_of_mem _ ht, hdeep⟩
    by_cases hi : Fits limit 0 i
    · -- this literal is a token, so one of the later ones goes too deep
      have hj : ¬Fits limit 0 j := fun hj => hfit (fits_max.mpr ⟨hi, hj⟩)
      rw [hb.lexeme hi] at ih hrest ⊢
      rw [drop_literal] at ih hrest ⊢
      obtain ⟨t, ht, hdeep⟩ := ih hlex hrest hj _
      exact ⟨t, List.mem_cons_of_mem _ ht, hdeep⟩
    · rw [hb.lexeme_tooDeep hi rest]
      exact ⟨_, List.mem_cons_self, rfl, rfl⟩

/-! ### A literal at the start -/

theorem tokens_nil : tokens limit p [] = [{ kind := .eof, place := p }] := tokens_end rfl

/-- Nothing is skipped in front of a quote. -/
theorem blankSize_quote (cs : List Char) : blankSize false ('"' :: cs) = 0 := by
  rw [blankSize.eq_def]
  simp

theorem tokens_quote :
    tokens limit p ('"' :: cs) =
      token limit (lexeme limit '"' cs) (('"' :: cs).take (lexeme limit '"' cs).size) p ::
        tokens limit (p.advance (('"' :: cs).take (lexeme limit '"' cs).size))
          (('"' :: cs).drop (lexeme limit '"' cs).size) := by
  have hdrop : ('"' :: cs).drop (blankSize false ('"' :: cs)) = '"' :: cs := by
    rw [blankSize_quote, List.drop_zero]
  rw [tokens_next hdrop, blankSize_quote]
  rfl

/-- A literal within the limit is one token. -/
theorem Nested.tokens {k : Nat} {body : List Char} (h : Nested .body k body) (hfit : Fits limit 0 k)
    (p : Position) (rest : List Char) :
    Lexer.tokens limit p ('"' :: (body ++ '"' :: rest))
      = { kind := .text, lit := String.ofList body, place := p } ::
          Lexer.tokens limit (p.advance ('"' :: (body ++ ['"']))) rest := by
  rw [tokens_quote, h.lexeme hfit, drop_literal, take_literal]
  simp [token, spelling_text, faultOf]

/-- A literal beyond the limit is an illegal token that says so at its quote. -/
theorem Nested.tokens_tooDeep {k : Nat} {body : List Char} (h : Nested .body k body)
    (hfit : ¬Fits limit 0 k) (p : Position) (rest : List Char) :
    ∃ lit toks, Lexer.tokens limit p ('"' :: (body ++ '"' :: rest))
      = { kind := .illegal, lit, place := p, fault := some (tooDeepAt limit p) } :: toks := by
  rw [tokens_quote, h.lexeme_tooDeep hfit]
  exact ⟨_, _, rfl⟩

end TextScript
