/-
TextScript/Proofs/Brackets.lean

Line ends between brackets.

A source can be cut behind any of its tokens, and what follows there may be replaced: the tokens
in front of the cut stay, and the rest is cut as a source of its own (`tokens_cut`).  If line ends
are put there, they come to be tokens of their own (`tokens_newlines`).

The parser passes over them while a bracket is open.  It keeps the brackets that are open on its
stack, and their number is how many more tokens open one than close one (`run_brackets`), so that
whether line ends count can be read off the tokens alone.
-/
import TextScript.Proofs.Joining
import TextScript.Proofs.Spans

namespace TextScript

open Lexer

variable {limit : Int} {p : Position} {pre post src tail gap r r' : List Char} {c : Char} {k : Nat}

/-! ### Cutting a source behind a token -/

namespace Cursor

theorem calls_of_lt (hk : k < (tokens limit p src).length) :
    calls limit k ⟨p, src⟩ = (tokens limit p src).take k := by
  obtain ⟨init, last, htokens, -⟩ := tokens_eq_concat limit p src
  rw [htokens, List.length_append, List.length_singleton] at hk
  have hle : k ≤ init.length := Nat.le_of_lt_succ hk
  rw [calls_eq htokens, htokens, Nat.sub_eq_zero_of_le hle, List.take_append_of_le_length hle]
  exact List.append_nil _

theorem skip_suffix (limit : Int) (k : Nat) (c : Cursor) : (skip limit k c).rest <:+ c.rest := by
  induction k generalizing c with
  | zero => exact List.suffix_refl _
  | succ k ih =>
    refine (ih _).trans ?_
    obtain ⟨p, src⟩ := c
    cases src using lexeme_induction limit with
    | done gap hgap =>
      rw [next_gap hgap]
      exact List.nil_suffix
    | next gap c tail r hblank hsize =>
      rw [next_lexeme hblank hsize]
      exact ⟨gap ++ c :: tail, by simp⟩

/-- No cut goes through an operator. -/
theorem skip_notEq (k : Nat) (p : Position) (t : List Char) :
    (skip limit k ⟨p, '!' :: '=' :: t⟩).rest ≠ '=' :: t := by
  intro h
  cases k with
  | zero => simpa [skip] using congrArg List.length h
  | succ k =>
    have hnext : (next limit ⟨p, '!' :: '=' :: t⟩).2.rest = t := rfl
    have hle := (skip_suffix limit k (next limit ⟨p, '!' :: '=' :: t⟩).2).length_le
    rw [skip] at h
    rw [hnext, h] at hle
    exact absurd hle (Nat.not_succ_le_self _)

end Cursor

theorem replaces_refl (r : List Char) : Replaces r r := .inr (.inr ⟨rfl, id⟩)

theorem replaces_newlines (n : Nat) (r : List Char) : Replaces r (List.replicate n '\n' ++ r) := by
  cases n with
  | zero => exact replaces_refl r
  | succ n => exact replaces_newline r _

/-- In front of a cut the source looks as before. -/
theorem replaces_append_left (h : Replaces r r')
    (hcut : (Cursor.skip limit k ⟨p, pre ++ r⟩).rest = r) : Replaces (pre ++ r) (pre ++ r') := by
  cases pre with
  | nil => exact h
  | cons x pre =>
    refine .inr (.inr ⟨rfl, ?_⟩)
    cases pre with
    | cons y pre => exact id
    | nil =>
      intro htake
      cases r with
      | nil => cases htake
      | cons y r =>
        cases htake
        exact absurd hcut (Cursor.skip_notEq k p r)

/-- The tokens in front of a cut stay if what is behind it is replaced. -/
theorem tokens_cut (hk : k < (tokens limit p (pre ++ post)).length)
    (hcut : (Cursor.skip limit k ⟨p, pre ++ post⟩).rest = post)
    (hlegal : ∀ tok ∈ Cursor.calls limit k ⟨p, pre ++ post⟩, tok.kind ≠ .illegal)
    (h : Replaces post r') :
    tokens limit p (pre ++ r')
      = Cursor.calls limit k ⟨p, pre ++ post⟩ ++ tokens limit (p.advance pre) r' := by
  obtain ⟨src, hsrc⟩ : ∃ src, pre ++ post = src := ⟨_, rfl⟩
  rw [hsrc] at hk hcut hlegal ⊢
  induction src using lexeme_induction limit generalizing k p pre with
  | done gap hgap =>
    rw [tokens_gap_end hgap] at hk
    obtain rfl := Nat.lt_one_iff.mp hk
    obtain rfl := List.append_left_eq_self.mp (hsrc.trans hcut)
    rfl
  | next gap c tail r hblank hsize ih =>
    cases k with
    | zero =>
      obtain rfl := List.append_left_eq_self.mp (hsrc.trans hcut)
      rfl
    | succ k =>
      rw [tokens_lexeme hblank hsize] at hk
      rw [Cursor.skip, Cursor.next_lexeme hblank hsize] at hcut
      rw [Cursor.calls, Cursor.next_lexeme hblank hsize] at hlegal ⊢
      -- the cut lies in what is behind the first token
      obtain ⟨more, hmore⟩ : ∃ more, more ++ post = r := by
        rw [← hcut]
        exact Cursor.skip_suffix limit k _
      have hpre : pre = gap ++ c :: (tail ++ more) := by
        have hboth : pre ++ post = (gap ++ c :: (tail ++ more)) ++ post := by
          simpa [← hmore] using hsrc
        exact List.append_cancel_right hboth
      have hplace : p.advance pre = ((p.advance gap).advance (c :: tail)).advance more := by
        rw [hpre, advance_lexeme]
      have hrest := ih (fun tok htok => hlegal tok (List.mem_cons_of_mem _ htok)) hcut
        (Nat.lt_of_succ_lt_succ hk) hmore
      have hfirst := hlegal _ List.mem_cons_self
      rw [← hmore] at hblank hsize hcut hfirst
      rw [hplace, hpre, List.append_assoc, List.cons_append, List.append_assoc,
        tokens_lexeme_replaced hblank hsize hfirst (replaces_append_left h hcut), hrest, ← hmore]
      rfl

/-! ### Line ends -/

/-- Line ends are tokens of their own. -/
theorem tokens_newlines (n : Nat) (p : Position) (rest : List Char) :
    ∃ lines q, (∀ tok ∈ lines, tok.isNewline = true) ∧
      tokens limit p (List.replicate n '\n' ++ rest) = lines ++ tokens limit q rest := by
  induction n generalizing p with
  | zero => exact ⟨[], p, by simp, rfl⟩
  | succ n ih =>
    obtain ⟨lines, q, hlines, htokens⟩ := ih (p.step '\n')
    refine ⟨newline p :: lines, q, ?_, ?_⟩
    · exact List.forall_mem_cons.mpr ⟨rfl, hlines⟩
    · rw [List.replicate_succ, List.cons_append, tokens_newline, htokens, List.cons_append]

/-! ### Brackets that are open -/

/-- Whether a token opens a bracket. -/
def Token.opens (tok : Token) : Bool :=
  tok.kind == .lparen || tok.kind == .lbracket

/-- Whether a token closes a bracket. -/
def Token.closes (tok : Token) : Bool :=
  tok.kind == .rparen || tok.kind == .rbracket

/-- Behind the tokens some bracket is still open. -/
def InBrackets (toks : List Token) : Prop :=
  toks.countP Token.closes < toks.countP Token.opens

instance (toks : List Token) : Decidable (InBrackets toks) :=
  inferInstanceAs (Decidable (_ < _))

namespace ParseState

variable {literal : Token → Traced Expr} {s s' : ParseState} {tok : Token} {toks : List Token}

theorem not_bracket_of_unaryOp? {op : UnaryOp} (h : tok.kind.unaryOp? = some op) :
    tok.opens = false ∧ tok.closes = false := by
  unfold Token.opens Token.closes
  cases hk : tok.kind <;> rw [hk] at h <;> first | exact ⟨rfl, rfl⟩ | cases h

theorem not_bracket_of_binaryOp? {op : BinaryOp} (h : tok.kind.binaryOp? = some op) :
    tok.opens = false ∧ tok.closes = false := by
  unfold Token.opens Token.closes
  cases hk : tok.kind <;> rw [hk] at h <;> first | exact ⟨rfl, rfl⟩ | cases h

theorem bracket_of_closer {top : Frame} (h : tok.kind = top.closer) :
    tok.opens = false ∧ tok.closes = true := by
  unfold Token.opens Token.closes
  rw [h]
  cases top <;> exact ⟨rfl, rfl⟩

theorem isBracket_of_closed? {top : Frame} {last : Option Expr} {whole : Expr}
    (h : top.closed? last = some whole) : top.isBracket = true := by
  cases top with
  | unary => cases h
  | binary => cases h
  | group => rfl
  | index => rfl
  | list => rfl
  | args => rfl

theorem isBracket_of_add? {e : Expr} {top more : Frame} (h : top.add? e = some more) :
    top.isBracket = true ∧ more.isBracket = true := by
  cases top with
  | list => cases h; exact ⟨rfl, rfl⟩
  | args => cases h; exact ⟨rfl, rfl⟩
  | _ => cases h

theorem countP_reduce {k : Strength} {stack own : List Frame} {c e : Expr}
    (h : reduce k stack c = (own, e)) :
    own.countP Frame.isBracket = stack.countP Frame.isBracket := by
  refine reduce_keeps
    (P := fun frames _ => frames.countP Frame.isBracket = stack.countP Frame.isBracket)
    ?_ ?_ h rfl
  · intro tok op rest c hcount
    rwa [List.countP_cons_of_neg (by simp [Frame.isBracket])] at hcount
  · intro tok left op rest c hcount
    rwa [List.countP_cons_of_neg (by simp [Frame.isBracket])] at hcount

theorem countP_push {f : Frame} (h : f.isBracket = true) :
    (s.push f).stack.countP Frame.isBracket = s.stack.countP Frame.isBracket + 1 :=
  List.countP_cons_of_pos h

/-- How many brackets are open goes up with a token that opens one and down with a token that closes
one. -/
theorem Moves.brackets (h : Moves literal tok s s') :
    s'.stack.countP Frame.isBracket + (if tok.closes then 1 else 0)
      = s.stack.countP Frame.isBracket + (if tok.opens then 1 else 0) := by
  cases h with
  | newline hnl =>
    simp [Token.opens, Token.closes, terminator_of_isNewline hnl]
  | idle _ _ hk => rcases hk with hk | hk <;> simp [Token.opens, Token.closes, hk]
  | name _ hk => simp [Token.opens, Token.closes, hk]
  | integer _ hk => simp [Token.opens, Token.closes, hk, operand]
  | folded _ hk _ hs => simp [Token.opens, Token.closes, hk, hs, operand, Frame.isBracket]
  | text _ hk => simp [Token.opens, Token.closes, hk]
  | sign _ hop => simp [not_bracket_of_unaryOp? hop, push, Frame.isBracket]
  | group _ hk => simp [Token.opens, Token.closes, hk, countP_push (f := .group) rfl]
  | list _ hk => simp [Token.opens, Token.closes, hk, countP_push (f := .list tok []) rfl]
  | empty _ hs hk hwhole =>
    simp [bracket_of_closer hk, hs, operand, isBracket_of_closed? hwhole]
  | arguments _ hk => simp [Token.opens, Token.closes, hk, countP_push (f := .args _ _ []) rfl]
  | binary _ hop hred =>
    simp [not_bracket_of_binaryOp? hop, ← countP_reduce hred, Frame.isBracket]
  | send _ hk hred => simp [Token.opens, Token.closes, hk, ← countP_reduce hred]
  | index _ hk hred =>
    simpa [Token.opens, Token.closes, hk, ← countP_reduce hred]
      using List.countP_cons_of_pos (p := Frame.isBracket) rfl
  | complete _ hk hred =>
    rcases hk with hk | hk <;> simp [Token.opens, Token.closes, hk, ← countP_reduce hred]
  | comma _ hk hred hadd =>
    simp [Token.opens, Token.closes, hk, ← countP_reduce hred, isBracket_of_add? hadd]
  | close _ hk hred hwhole =>
    simp [bracket_of_closer hk, ← countP_reduce hred, operand, isBracket_of_closed? hwhole]

/-- The brackets on the stack are those that the tokens opened and did not close. -/
theorem run_brackets (toks : List Token) (hok : ¬(run literal toks).HasFailed) :
    (run literal toks).stack.countP Frame.isBracket + toks.countP Token.closes
      = toks.countP Token.opens := by
  refine run_moves (P := fun toks s => s.stack.countP Frame.isBracket + toks.countP Token.closes
    = toks.countP Token.opens) rfl ?_ toks hok
  intro toks tok s s' hmove hbefore
  have hstep := hmove.brackets
  simp only [List.countP_append, List.countP_singleton]
  omega

theorem inBrackets_run (hok : ¬(run literal toks).HasFailed) (h : InBrackets toks) :
    (run literal toks).inBrackets = true := by
  have hcount := run_brackets toks hok
  unfold InBrackets at h
  rw [inBrackets, List.any_eq_true, ← List.countP_pos_iff]
  omega

/-- Line ends between brackets are passed over. -/
theorem foldl_newlines {lines : List Token} (hin : s.inBrackets = true)
    (hlines : ∀ tok ∈ lines, tok.isNewline = true) : lines.foldl (step literal) s = s := by
  induction lines with
  | nil => rfl
  | cons tok lines ih =>
    have hstep : s.step literal tok = s := by
      unfold step
      split
      · rfl
      · rw [hlines tok List.mem_cons_self, hin]
        rfl
    rw [List.foldl_cons, hstep]
    exact ih fun tok htok => hlines tok (List.mem_cons_of_mem _ htok)

theorem run_newlines {init lines : List Token} (hok : ¬(run literal init).HasFailed)
    (hin : InBrackets init) (hlines : ∀ tok ∈ lines, tok.isNewline = true) (toks : List Token) :
    run literal (init ++ (lines ++ toks)) = run literal (init ++ toks) := by
  have hsame : lines.foldl (step literal) (run literal init) = run literal init :=
    foldl_newlines (inBrackets_run hok hin) hlines
  rw [run, List.foldl_append, List.foldl_append, ← run, hsame, run, run, ← List.foldl_append]

end ParseState

/-! ### Sources -/

variable {o : ParseOptions} {prog : Program}

/-- Where some bracket is open the input does not end. -/
theorem lt_length_of_inBrackets {literal : Token → Traced Expr}
    (hok : ¬(ParseState.run literal (tokens limit p src)).HasFailed)
    (hin : InBrackets (Cursor.calls limit k ⟨p, src⟩)) : k < (tokens limit p src).length := by
  obtain ⟨init, last, htokens, hlast, -⟩ := tokens_eq_concat limit p src
  rw [htokens] at hok
  obtain ⟨-, hstack⟩ := ParseState.run_ended hlast hok
  have hcount := ParseState.run_brackets _ hok
  by_contra hk
  rw [htokens, List.length_append, List.length_singleton, Nat.not_lt] at hk
  have hopens : last.opens = false := by simp [Token.opens, hlast]
  have hcloses : last.closes = false := by simp [Token.closes, hlast]
  unfold InBrackets at hin
  rw [Cursor.calls_eq htokens, List.take_of_length_le (by omega)] at hin
  simp [hstack, hopens, hcloses, List.countP_replicate] at hcount hin
  omega

/-- Inside of brackets line ends do not count.  A source that is accepted is cut behind one of its
tokens, where more brackets were opened than closed.  With any number of line ends there it is
accepted too, and gives the same program but for places. -/
theorem newlines_in_brackets (ho : o.Placeless)
    (h : (Source.parse o (pre ++ post)).toTraced.result = .ok prog)
    (hcut : (Cursor.skip o.limit k ⟨{}, pre ++ post⟩).rest = post)
    (hin : InBrackets (Cursor.calls o.limit k ⟨{}, pre ++ post⟩)) (n : Nat) :
    ∃ prog', (Source.parse o (pre ++ (List.replicate n '\n' ++ post))).toTraced.result = .ok prog' ∧
      prog'.map Expr.unplaced = prog.map Expr.unplaced := by
  apply Traced.ok_of_outcome
  -- the source itself, with the levels of the longer one
  obtain ⟨levels, hlevels⟩ : ∃ levels, levels = (pre ++ (List.replicate n '\n' ++ post)).length :=
    ⟨_, rfl⟩
  have hlen : (pre ++ post).length ≤ levels := by
    simp only [hlevels, List.length_append]
    omega
  have hout : (Source.parseLevels levels o {} (pre ++ post)).outcome
      = some (prog.map Expr.unplaced) := by
    rw [← parseLevels_alike ho {} {} (Nat.le_refl _) hlen]
    exact Traced.outcome_of_ok h
  change (Source.parse o (pre ++ (List.replicate n '\n' ++ post))).outcome = _
  rw [Source.parse, Source.parseAt, ← hlevels, ← hout, parseLevels_run, parseLevels_run,
    parsed_outcome, parsed_outcome]
  rw [parseLevels_run, outcome_eq_some_iff] at hout
  obtain ⟨hok, -⟩ := hout
  have hk := lt_length_of_inBrackets hok hin
  have hlegal : ∀ tok ∈ Cursor.calls o.limit k ⟨{}, pre ++ post⟩, tok.kind ≠ .illegal := by
    rw [Cursor.calls_of_lt hk]
    exact fun tok hmem => ParseState.legal_of_run hok tok (List.mem_of_mem_take hmem)
  -- the tokens are the same but for the line ends and for the places behind them
  have htokens := tokens_cut hk hcut hlegal (replaces_refl post)
  have hlonger := tokens_cut hk hcut hlegal (replaces_newlines n post)
  obtain ⟨lines, q, hlines, hrest⟩ := tokens_newlines n (Position.advance {} pre) post
  have hbefore : ¬(ParseState.run (Source.literals levels o)
      (Cursor.calls o.limit k ⟨{}, pre ++ post⟩)).HasFailed := by
    rw [htokens, ParseState.run, List.foldl_append] at hok
    exact ParseState.not_failed_of_foldl _ hok
  have hrun : (ParseState.run (Source.literals levels o) (tokens o.limit {} (pre ++ post))).unplaced
      = (ParseState.run (Source.literals levels o)
          (tokens o.limit {} (pre ++ (List.replicate n '\n' ++ post)))).unplaced := by
    rw [hlonger, hrest, ParseState.run_newlines hbefore hin hlines]
    apply run_alike ho
    · rw [htokens, List.map_append, List.map_append, tokens_alike o.limit _ q post]
    · exact fun tok hmem => Nat.le_trans (lit_length_le hmem) hlen
  rw [hrun]

/-- Line ends behind a minus sign, within the index of an argument. -/
theorem newlines_in_brackets_sign :
    let o : ParseOptions := {}
    let pre := "f(a[-".toList
    let post := "1])".toList
    let prog := (Source.parse o (pre ++ post)).program
    (Source.parse o (pre ++ post)).toTraced.result = .ok prog ∧
      (Cursor.skip o.limit 5 ⟨{}, pre ++ post⟩).rest = post ∧
      InBrackets (Cursor.calls o.limit 5 ⟨{}, pre ++ post⟩) ∧
      ∃ prog', (Source.parse o (pre ++ (List.replicate 2 '\n' ++ post))).toTraced.result
          = .ok prog' ∧
        prog'.map Expr.unplaced = prog.map Expr.unplaced := by
  intro o pre post prog
  have ho : o.Placeless := fun _ hread => by cases hread
  have h : (Source.parse o (pre ++ post)).toTraced.result = .ok prog := by
    have hok : (Source.parse o (pre ++ post)).failure = none := by decide +kernel
    rw [Parsed.toTraced, hok]
  have hcut : (Cursor.skip o.limit 5 ⟨{}, pre ++ post⟩).rest = post := by decide +kernel
  have hin : InBrackets (Cursor.calls o.limit 5 ⟨{}, pre ++ post⟩) := by decide +kernel
  exact ⟨h, hcut, hin, newlines_in_brackets ho h hcut hin 2⟩

end TextScript
