/-
TextScript/Proofs/Termination.lean

Reading ends, within a budget linear in the source.

What decreases is the characters that are left.  A token weighs as many as it takes of them at
least: one, or a literal its body and two quotes; so the tokens of a source weigh no more than its
characters, and one for the end of input.  Each function of the descent needs at most four of the
budget for each character and a few more (`Enough`), because no reading goes on without taking a
token and a code is shorter than the literal it stands in.

With such a budget the descent comes to what the parser comes to, since it agrees with it wherever
it does not run out (`reading_ends`).
-/
import TextScript.Proofs.DescentStack
import TextScript.Proofs.Lookahead
import TextScript.Token.Cursor

namespace TextScript

open Budgeted Descent Lexer

variable {limit : Int} {p : Position} {src cs : List Char} {toks rest : List Token} {tok : Token}
variable {nested : Bool} {o : ParseOptions} {n : Nat}

/-! ### Weights -/

/-- The characters that a token takes at least. -/
def Token.weight (tok : Token) : Nat :=
  if tok.kind = .text then tok.lit.toList.length + 2 else 1

/-- The characters that tokens take at least. -/
def weight : List Token → Nat
  | [] => 0
  | tok :: rest => tok.weight + weight rest

@[simp] theorem weight_cons (tok : Token) (rest : List Token) :
    weight (tok :: rest) = tok.weight + weight rest := rfl

/-- Every token weighs something. -/
theorem Token.weight_pos (tok : Token) : 1 ≤ tok.weight := by
  unfold Token.weight
  split <;> omega

theorem weight_append (read rest : List Token) :
    weight (read ++ rest) = weight read + weight rest := by
  induction read with
  | nil => exact (Nat.zero_add _).symm
  | cons tok read ih => rw [List.cons_append, weight_cons, weight_cons, ih, Nat.add_assoc]

/-- Whatever is taken weighs something. -/
theorem Descent.Takes.weight_lt (h : Takes rest toks) : weight rest < weight toks := by
  obtain ⟨read, -, rfl⟩ := h.before
  have hlen := h.length_lt
  cases read with
  | nil => exact absurd hlen (Nat.lt_irrefl _)
  | cons tok read =>
    have hpos := tok.weight_pos
    rw [weight_append, weight_cons]
    omega

/-- Taking a token leaves less. -/
theorem weight_lt_of_kind {kind : TokenKind} (h : (first (ahead nested toks)).kind = kind)
    (hk : kind ≠ .eof) : weight (ahead nested toks).tail < weight toks :=
  (takes_of_kind h hk).weight_lt

/-- A literal that is seen next weighs its body and more. -/
theorem weight_literal (h : (first (ahead nested toks)).kind = .text) :
    (first (ahead nested toks)).lit.toList.length + 2 ≤ weight toks := by
  have hsuffix : ahead nested toks <:+ toks := by
    unfold ahead
    split
    · exact List.dropWhile_suffix _
    · exact List.suffix_refl _
  obtain ⟨skipped, hskipped⟩ := hsuffix
  cases hahead : ahead nested toks with
  | nil =>
    rw [hahead] at h
    cases h
  | cons tok rest =>
    rw [hahead, first_cons] at h
    have hweight : tok.weight = tok.lit.toList.length + 2 := if_pos h
    rw [first_cons, ← hskipped, hahead, weight_append, weight_cons, hweight]
    omega

/-- The token of a lexeme weighs no more than the characters it spans. -/
theorem token_weight (limit : Int) (c : Char) (cs : List Char) (p : Position) :
    (token limit (lexeme limit c cs) ((c :: cs).take (lexeme limit c cs).size) p).weight
      ≤ (lexeme limit c cs).size := by
  have hpos := lexeme_size_pos limit c cs
  unfold Token.weight
  split
  · next hk =>
    have hk : (lexeme limit c cs).kind = .text := hk
    have htwo : 2 ≤ (lexeme limit c cs).size := by
      by_cases hc : c = '"'
      · subst hc
        rw [lexeme_quote] at hk ⊢
        unfold textLexeme at hk ⊢
        split at hk
        · exact Nat.le_add_left _ _
        · cases hk
      · exact absurd hk (lexeme_of_ne_quote hc).1
    show (spelling (lexeme limit c cs).kind _).toList.length + 2 ≤ _
    rw [hk, spelling, String.toList_ofList]
    simp only [List.length_dropLast, List.length_drop, List.length_take]
    omega
  · exact hpos

/-- The tokens of a source weigh no more than its characters, and one for the end of input. -/
theorem weight_tokens (limit : Int) (p : Position) (src : List Char) :
    weight (tokens limit p src) ≤ src.length + 1 := by
  induction src using source_induction limit generalizing p with
  | done src hs =>
    rw [tokens_end hs, weight_cons]
    show 1 + 0 ≤ _
    omega
  | next src c cs hs ih =>
    have hlen : (c :: cs).length ≤ src.length := by
      rw [← hs]
      simp
    have hsize := lexeme_size_le limit c cs
    have htoken := token_weight limit c cs (p.advance (src.take (blankSize false src)))
    have hrest := ih ((p.advance (src.take (blankSize false src))).advance
      ((c :: cs).take (lexeme limit c cs).size))
    rw [List.length_drop] at hrest
    rw [tokens_next hs, weight_cons]
    omega

/-! ### Tokens -/

/-- A token other than the end of input takes characters off the source. -/
theorem Cursor.next_shrinks (limit : Int) (c : Cursor) (h : (c.next limit).1.kind ≠ .eof) :
    (c.next limit).2.rest.length < c.rest.length := by
  unfold Cursor.next at h ⊢
  dsimp only at h ⊢
  split at h
  · exact absurd rfl h
  · next d ds hs =>
    have hlen : (d :: ds).length ≤ c.rest.length := by
      rw [← hs]
      simp
    have hpos := lexeme_size_pos limit d ds
    rw [List.length_cons] at hlen
    simp only [List.length_drop, List.length_cons]
    omega

/-- A budget of one for each character is enough for the lexer. -/
theorem tokensWithin_ne_none (limit : Int) (p : Position) (src : List Char) (hn : src.length < n) :
    tokensWithin limit n p src ≠ none := by
  induction n generalizing p src with
  | zero => exact absurd hn (Nat.not_lt_zero _)
  | succ n ih =>
    rw [tokensWithin]
    dsimp only
    split
    · simp
    · next c cs hs =>
      have hlen : (c :: cs).length ≤ src.length := by
        rw [← hs]
        simp
      rw [List.length_cons] at hlen
      have hlex : lexemeWithin limit n c cs ≠ none := by
        unfold lexemeWithin
        split
        · have hskip : Balance.skipText limit cs n 0 0 ≠ none :=
            (Balance.skips_within limit cs n).1 0 0 (by omega)
          simpa using hskip
        · simp
      obtain ⟨lx, hlx⟩ := Option.ne_none_iff_exists'.mp hlex
      obtain rfl := lexemeWithin_sound hlx
      -- the lexeme is not empty, so one turn less is enough for what stands behind it
      have hrest : tokensWithin limit n ((p.advance (src.take (blankSize false src))).advance
          ((c :: cs).take (lexeme limit c cs).size)) ((c :: cs).drop (lexeme limit c cs).size)
          ≠ none := by
        have hpos := lexeme_size_pos limit c cs
        refine ih _ _ ?_
        rw [List.length_drop, List.length_cons]
        omega
      rw [hlx]
      simpa using hrest

/-! ### Budgets that are enough -/

theorem bracketEnd_ne_none {α : Type} (closer : TokenKind) (a : α) (toks : List Token) :
    bracketEnd closer a toks ≠ none := by
  unfold bracketEnd
  dsimp only
  split <;> exact Option.some_ne_none _

theorem integer_ne_none (sign : Option Token) (tok : Token) : integer sign tok ≠ none := by
  unfold integer
  split
  · exact Option.some_ne_none _
  · split <;> exact Option.some_ne_none _

theorem assemble_ne_none (tok : Token) (parts : List Expr) : assemble tok parts ≠ none := by
  unfold assemble
  split <;> exact Option.some_ne_none _

/-- A turn of a program needs what its expression needs. -/
theorem programTurn_ne_none {read : Reading Expr} (toks : List Token) (h : read ≠ none) :
    programTurn read toks ≠ none := by
  unfold programTurn
  split
  · exact Option.some_ne_none _
  · split
    · exact Option.some_ne_none _
    · simpa using h

/-- A budget of `n` is enough for every function of the descent where four of it come to each
character that is left, and some to the calls on the way to the next token. -/
structure Enough (n : Nat) : Prop where
  source : ∀ o p (src : List Char), 4 * src.length + 8 ≤ n → Descent.source n o p src ≠ none
  program : ∀ o toks, 4 * weight toks + 3 ≤ n → Descent.program n o toks ≠ none
  expression : ∀ o nested k toks, 4 * weight toks + 2 ≤ n →
    Descent.expression n o nested k toks ≠ none
  operand : ∀ o nested toks, 4 * weight toks + 1 ≤ n → Descent.operand n o nested toks ≠ none
  onward : ∀ o nested k e toks, 4 * weight toks + 2 ≤ n → Descent.onward n o nested k e toks ≠ none
  turn : ∀ o nested e toks, 4 * weight toks + 1 ≤ n → Descent.turn n o nested e toks ≠ none
  message : ∀ o nested receiver tok toks, 4 * weight toks + 4 ≤ n →
    Descent.message n o nested receiver tok toks ≠ none
  items : ∀ o closer toks, 4 * weight toks + 3 ≤ n → Descent.items n o closer toks ≠ none
  parts : ∀ o tok p (cs : List Char), 4 * cs.length + 1 ≤ n → Descent.parts n o tok p cs ≠ none
  embedded : ∀ o tok (code : String) p, 4 * code.toList.length + 9 ≤ n →
    Descent.embedded n o tok code p ≠ none

namespace Enough

variable (h : Enough n)

include h

/-- An expression, if there is enough for an operand and what is behind it. -/
theorem expression_succ (o : ParseOptions) (nested : Bool) (k : Strength) (toks : List Token)
    (hn : 4 * weight toks + 2 ≤ n + 1) : Descent.expression (n + 1) o nested k toks ≠ none := by
  rw [Descent.expression]
  refine andThen_ne_none (h.operand _ _ _ (by omega)) ((consumption n).operand _ _ _) ?_
  intro r hr
  have hlt := hr.weight_lt
  exact h.onward _ _ _ _ _ (by omega)

/-- An operand, if there is enough for what may begin one. -/
theorem operand_succ (o : ParseOptions) (nested : Bool) (toks : List Token)
    (hn : 4 * weight toks + 1 ≤ n + 1) : Descent.operand (n + 1) o nested toks ≠ none := by
  rw [Descent.operand]
  dsimp only
  -- each kind of operand takes its token first, which leaves enough for what is read behind it
  split
  · next hk =>
    have hlt := weight_lt_of_kind hk (by decide)
    exact h.message _ _ _ _ _ (by omega)
  · exact andThen_ne_none (integer_ne_none _ _) (gives_trivial _) fun _ _ => Option.some_ne_none _
  · next hk =>
    have hliteral := weight_literal hk
    refine andThen_ne_none (blame_ne_none ?_) (gives_trivial _) fun _ _ => Option.some_ne_none _
    exact andThen_ne_none (h.parts _ _ _ _ (by omega)) (gives_trivial _)
      fun parts _ => assemble_ne_none _ parts
  · next hk =>
    have hlt := weight_lt_of_kind hk (by decide)
    split
    · exact andThen_ne_none (integer_ne_none _ _) (gives_trivial _) fun _ _ => Option.some_ne_none _
    · exact andThen_ne_none (h.expression _ _ _ _ (by omega)) (gives_trivial _)
        fun _ _ => Option.some_ne_none _
  · next hk =>
    have hlt := weight_lt_of_kind hk (by decide)
    exact andThen_ne_none (h.expression _ _ _ _ (by omega)) (gives_trivial _)
      fun _ _ => Option.some_ne_none _
  · next hk =>
    have hlt := weight_lt_of_kind hk (by decide)
    exact andThen_ne_none (h.expression _ _ _ _ (by omega)) (gives_trivial _)
      fun _ _ => bracketEnd_ne_none _ _ _
  · next hk =>
    have hlt := weight_lt_of_kind hk (by decide)
    exact andThen_ne_none (h.items _ _ _ (by omega)) (gives_trivial _)
      fun _ _ => Option.some_ne_none _
  · exact Option.some_ne_none _

/-- Going on behind an operand, if there is enough for each turn. -/
theorem onward_succ (o : ParseOptions) (nested : Bool) (k : Strength) (e : Expr) (toks : List Token)
    (hn : 4 * weight toks + 2 ≤ n + 1) : Descent.onward (n + 1) o nested k e toks ≠ none := by
  rw [Descent.onward]
  split
  · refine andThen_ne_none (h.turn _ _ _ _ (by omega)) ((consumption n).turn _ _ _ _) ?_
    intro r hr
    have hlt := hr.weight_lt
    exact h.onward _ _ _ _ _ (by omega)
  · exact Option.some_ne_none _

/-- A turn, if there is enough for what its operator asks for. -/
theorem turn_succ (o : ParseOptions) (nested : Bool) (e : Expr) (toks : List Token)
    (hn : 4 * weight toks + 1 ≤ n + 1) : Descent.turn (n + 1) o nested e toks ≠ none := by
  rw [Descent.turn]
  dsimp only
  split
  · next op hop =>
    have htake : Takes (ahead nested toks).tail toks :=
      takes_first fun hk => by simp [hk, TokenKind.binaryOp?] at hop
    have hlt := htake.weight_lt
    split
    · exact Option.some_ne_none _
    · exact andThen_ne_none (h.expression _ _ _ _ (by omega)) (gives_trivial _)
        fun _ _ => Option.some_ne_none _
  · split
    · next hk =>
      have hlt := weight_lt_of_kind hk (by decide)
      exact h.message _ _ _ _ _ (by omega)
    · next hk =>
      have hlt := weight_lt_of_kind hk (by decide)
      exact andThen_ne_none (h.expression _ _ _ _ (by omega)) (gives_trivial _)
        fun _ _ => bracketEnd_ne_none _ _ _
    · exact Option.some_ne_none _

/-- A message, if there is enough for its arguments. -/
theorem message_succ (o : ParseOptions) (nested : Bool) (receiver : Option Expr) (tok : Token)
    (toks : List Token) (hn : 4 * weight toks + 4 ≤ n + 1) :
    Descent.message (n + 1) o nested receiver tok toks ≠ none := by
  rw [Descent.message]
  dsimp only
  split
  · next hk =>
    have hlt := weight_lt_of_kind hk (by decide)
    exact andThen_ne_none (h.items _ _ _ (by omega)) (gives_trivial _)
      fun _ _ => Option.some_ne_none _
  · exact Option.some_ne_none _

/-- A row of items, if there is enough for each of them. -/
theorem items_succ (o : ParseOptions) (closer : TokenKind) (toks : List Token)
    (hn : 4 * weight toks + 3 ≤ n + 1) : Descent.items (n + 1) o closer toks ≠ none := by
  rw [Descent.items]
  dsimp only
  split
  · exact Option.some_ne_none _
  · refine andThen_ne_none (h.expression _ _ _ _ (by omega)) ((consumption n).expression _ _ _ _) ?_
    intro r hr
    have hitem := hr.weight_lt
    split
    · next hk =>
      have hcomma := weight_lt_of_kind hk (by decide)
      exact andThen_ne_none (h.items _ _ _ (by omega)) (gives_trivial _)
        fun _ _ => Option.some_ne_none _
    · exact bracketEnd_ne_none _ _ _

/-- A program, if there is enough for each of its expressions. -/
theorem program_succ (o : ParseOptions) (toks : List Token) (hn : 4 * weight toks + 3 ≤ n + 1) :
    Descent.program (n + 1) o toks ≠ none := by
  rw [Descent.program]
  have hread := h.expression o false Strength.lowest toks (by omega)
  obtain ⟨turn, hturn⟩ := Option.ne_none_iff_exists'.mp (programTurn_ne_none toks hread)
  rw [hturn]
  cases turn with
  | stop parsed => exact Option.some_ne_none _
  | goOn next =>
    obtain ⟨es, events, rest⟩ := next
    have hlt := ((consumption n).program o toks es events rest hturn).weight_lt
    have hrest := h.program o rest (by omega)
    simpa using hrest

/-- A code is shorter than the body that it stands in, by the characters around it. -/
theorem parts_succ (o : ParseOptions) (tok : Token) (p : Position) (cs : List Char)
    (hn : 4 * cs.length + 1 ≤ n + 1) : Descent.parts (n + 1) o tok p cs ≠ none := by
  obtain ⟨seg, rest, rfl, hsize, rfl | ⟨cs, rfl⟩⟩ := exists_front cs
  · rw [List.append_nil] at hsize ⊢
    rw [parts_segment hsize]
    exact andThen_ne_none (Option.some_ne_none _) (gives_trivial _) fun _ _ => Option.some_ne_none _
  · simp only [List.length_append, List.length_cons] at hn
    rw [parts_open hsize]
    refine andThen_ne_none (Option.some_ne_none _) (gives_trivial _) fun v _ => ?_
    obtain ⟨s, hs⟩ := Option.ne_none_iff_exists'.mp
      ((Balance.skips_within o.limit cs n).2 1 0 0 (by omega))
    rw [hs]
    cases s with
    | stopped k why => exact Option.some_ne_none _
    | closed k =>
      -- the code and what follows its brace are both shorter than the body
      have hscan : Balance.code 1 o.limit cs = .closed k := by
        rw [Balance.skipCode_sound (Nat.zero_le _) hs, List.drop_zero, Scan.shift_zero]
      have hk : k < cs.length := (List.getElem?_eq_some_iff.mp (code_closed_iff.mp hscan).2).1
      refine andThen_ne_none (h.embedded _ _ _ _ ?_) (gives_trivial _) fun e _ => ?_
      · rw [String.toList_ofList, List.length_take]
        omega
      · refine andThen_ne_none (h.parts _ _ _ _ ?_) (gives_trivial _)
          fun _ _ => Option.some_ne_none _
        rw [List.length_drop]
        omega

/-- A code inside of a literal, if there is enough for a source of its length. -/
theorem embedded_succ (o : ParseOptions) (tok : Token) (code : String) (p : Position)
    (hn : 4 * code.toList.length + 9 ≤ n + 1) : Descent.embedded (n + 1) o tok code p ≠ none := by
  rw [Descent.embedded]
  split
  · exact Option.some_ne_none _
  · have hsource := h.source o.inner p code.toList (by omega)
    refine andThen_ne_none (Option.some_ne_none _) (gives_trivial _) fun _ _ => ?_
    simpa using hsource

/-- A source, if there is enough for its tokens. -/
theorem source_succ (o : ParseOptions) (p : Position) (src : List Char)
    (hn : 4 * src.length + 8 ≤ n + 1) : Descent.source (n + 1) o p src ≠ none := by
  have hweight := weight_tokens o.limit p src
  obtain ⟨toks, htoks⟩ := Option.ne_none_iff_exists'.mp
    (tokensWithin_ne_none o.limit p src (show src.length < n by omega))
  obtain rfl := tokensWithin_sound htoks
  rw [Descent.source, htoks]
  exact h.program _ _ (by omega)

end Enough

/-- A budget linear in the weight is enough for all of them. -/
theorem enough (n : Nat) : Enough n := by
  induction n with
  | zero =>
    constructor <;> intros <;> omega
  | succ n ih =>
    exact {
      source := ih.source_succ
      program := ih.program_succ
      expression := ih.expression_succ
      operand := ih.operand_succ
      onward := ih.onward_succ
      turn := ih.turn_succ
      message := ih.message_succ
      items := ih.items_succ
      parts := ih.parts_succ
      embedded := ih.embedded_succ }

/-- The walks over the body and the code at index `i` of `src` with a budget of `n`: they come to
what the scans of the rest come to, at an index between `i` and the end, and every turn that does
not stop goes on from a later index. -/
structure Balance.Walks (limit depth : Int) (src : List Char) (n i : Nat) : Prop where
  skipText : Balance.skipText limit src n depth i
    = some ((Balance.text depth limit (src.drop i)).shift i)
  skipCode : Balance.skipCode limit src n depth i 0
    = some ((Balance.code depth limit (src.drop i)).shift i)
  text_le : i ≤ ((Balance.text depth limit (src.drop i)).shift i).count ∧
    ((Balance.text depth limit (src.drop i)).shift i).count ≤ src.length
  code_le : i ≤ ((Balance.code depth limit (src.drop i)).shift i).count ∧
    ((Balance.code depth limit (src.drop i)).shift i).count ≤ src.length
  textTurn : ∀ m j, Balance.textTurn limit depth src
    (fun k => Balance.skipCode limit src m (depth + 1) k 0) i = some (.goOn j) → i < j
  codeTurn : ∀ m inner j inner', Balance.codeTurn src
    (fun k => Balance.skipText limit src m depth k) i inner = some (.goOn (j, inner')) → i < j

/-- A budget for each character that is left, and one more, is enough for the walks. -/
theorem Balance.walks {depth : Int} {i : Nat} (hi : i ≤ src.length) (hn : src.length - i < n) :
    Balance.Walks limit depth src n i where
  skipText := by
    obtain ⟨s, hs⟩ := Option.ne_none_iff_exists'.mp ((skips_within limit src n).1 depth i hn)
    rw [hs, skipText_sound hi hs]
  skipCode := by
    obtain ⟨s, hs⟩ := Option.ne_none_iff_exists'.mp ((skips_within limit src n).2 depth i 0 hn)
    rw [hs, skipCode_sound hi hs]
  text_le := scan_within _ hi
  code_le := scan_within _ hi
  textTurn m _ h := (textTurn_sound ((skips_sound limit src m).2 _ · 0) h).1
  codeTurn m _ _ _ h := (codeTurn_sound ((skips_sound limit src m).1 _) h).1

/-- Reading ends.  A token takes characters; a walk over a literal goes on from later indices and
ends within the characters; whatever the budget, no loop of the descent goes on without taking a
token; a literal has only codes read that are shorter than its body; and with a budget of four for
each character of a source, and eight, the descent through all of them comes to what the parser
comes to. -/
theorem reading_ends (o : ParseOptions) (ho : o.embedded = none) (p : Position) (src : List Char) :
    (∀ limit (c : Cursor), (c.next limit).1.kind ≠ .eof →
      (c.next limit).2.rest.length < c.rest.length) ∧
    (∀ limit depth (cs : List Char) n i, i ≤ cs.length → cs.length - i < n →
      Balance.Walks limit depth cs n i) ∧
    (∀ n, Descent.Consumes n) ∧
    (∀ limit tok (f₁ f₂ : CodeReader),
      (∀ code : List Char, code.length < tok.lit.toList.length → ∀ q,
        f₁ (String.ofList code) q = f₂ (String.ofList code) q) →
      Interpolation.read (some f₁) limit tok = Interpolation.read (some f₂) limit tok) ∧
    (∀ n, 4 * src.length + 8 ≤ n → Descent.source n o p src = some (Source.parseAt o p src)) := by
  refine ⟨Cursor.next_shrinks, fun _ _ _ _ _ => Balance.walks, consumption, ?_, fun n hn => ?_⟩
  · exact fun _ _ _ _ h => read_congr (.of_readers h)
  · obtain ⟨parsed, hparsed⟩ := Option.ne_none_iff_exists'.mp ((enough n).source o p src hn)
    rw [hparsed, (agreement n o ho).source p src parsed hparsed]

/-- A literal in the code of a literal: the budget for fourteen characters is enough for both. -/
theorem reading_ends_literal :
    ({} : ParseOptions).embedded = none ∧
      Descent.source 64 {} {} "a + \"b #\x7b\"c\"\x7d\"".toList
        = some (Source.parseAt {} {} "a + \"b #\x7b\"c\"\x7d\"".toList) :=
  ⟨rfl, (reading_ends {} rfl {} _).2.2.2.2 64 (by decide)⟩

-- The budget does run out when there is too little of it.
example : (Descent.source 5 {} {} ['a', '+', 'b']).isNone = true := by decide

end TextScript
