/-
TextScript/Proofs/InContext.lean

Reading an expression inside of something else.

The parser keeps what is open on a stack, and reading an expression never looks below the frames
that the expression itself has put there, as long as what is below is nothing or an open bracket.
So tokens that make up an expression on their own (`Alone`) are read in the same way between
brackets: a run from the empty state, put on top of any such frames, is the run from there
(`foldl_under`).

What a run leaves behind is said in two ways.  After something complete, the stack is as before
and the parser has an operand at hand (`Leaves`).  After an expression there may be operators
waiting on the stack, but whoever closes them finds the expression (`Reads`).  From the second at
the end of a bracket comes the first again, for one expression between brackets and for several
with commas (`Items.read`).
-/
import TextScript.Proofs.Programs

namespace TextScript

/-- The operand that the parser has at hand: a complete one, or a name that no arguments follow. -/
def Stage.held? : Stage → Option Expr
  | .name receiver tok => some (Frame.message receiver tok false [])
  | .operand e => some e
  | _ => none

/-- The kinds of token that an operand can begin with. -/
def TokenKind.openers : List TokenKind :=
  [.ident, .int, .text, .minus, .bang, .lparen, .lbracket]

/-- The bracket with one more item, if it takes several. -/
def Frame.add? (e : Expr) : Frame → Option Frame
  | .list tok items => some (.list tok (items ++ [e]))
  | .args receiver tok items => some (.args receiver tok (items ++ [e]))
  | _ => none

/-- The kinds of token that end an operand and whatever waits for it. -/
def TokenKind.enders : List TokenKind :=
  [.comma, .rparen, .rbracket, .eof]

namespace ParseState

variable {literal : Token → Traced Expr} {s t : ParseState} {tok : Token} {e c : Expr}
variable {below stack rest : List Frame} {done : Program} {events : List Event} {k : Strength}
variable {toks : List Token}

/-! ### Steps by stage -/

theorem isNewline_eq_false (hk : tok.kind ≠ .terminator) : tok.isNewline = false := by
  simp [Token.isNewline, hk]

theorem terminator_of_isNewline (h : tok.isNewline = true) : tok.kind = .terminator := by
  simp only [Token.isNewline, Bool.and_eq_true, decide_eq_true_eq] at h
  exact h.1

/-- At the start a token begins an operand. -/
theorem step_start (hs : s.stage = .start) (hk : tok.kind ≠ .terminator) :
    s.step literal tok = s.begin literal tok := by
  simp [step, hs, isNewline_eq_false hk]

/-- A token that is not passed over and opens no arguments extends the operand at hand. -/
theorem step_extend (hs : s.stage.held? = some c) (hnl : (tok.isNewline && s.inBrackets) = false)
    (hp : tok.kind ≠ .lparen) : s.step literal tok = s.extend c tok := by
  unfold step
  cases hstage : s.stage with
  | start => simp [hstage, Stage.held?] at hs
  | failed f => simp [hstage, Stage.held?] at hs
  | name receiver name =>
    simp only [hstage, Stage.held?, Option.some.injEq] at hs
    simp [hnl, hp, hs]
  | operand d =>
    simp only [hstage, Stage.held?, Option.some.injEq] at hs
    simp [hnl, hs]

/-- Behind an operand a token goes on from it. -/
theorem step_held (hs : s.stage.held? = some c) (hk : tok.kind ≠ .terminator)
    (hp : tok.kind ≠ .lparen) : s.step literal tok = s.extend c tok :=
  step_extend hs (by rw [isNewline_eq_false hk, Bool.false_and]) hp

theorem start_of_not_held (hheld : s.stage.held? = none) (hok : ¬s.HasFailed) :
    s.stage = .start := by
  cases hs : s.stage with
  | start => rfl
  | failed f => exact absurd ⟨f, hs⟩ hok
  | name => simp [hs, Stage.held?] at hheld
  | operand => simp [hs, Stage.held?] at hheld

theorem run_concat (toks : List Token) (tok : Token) :
    run literal (toks ++ [tok]) = (run literal toks).step literal tok := by
  rw [run, List.foldl_append]
  rfl

/-- Where an operand is to begin, a token that begins none ends an empty bracket or is refused. -/
theorem begin_closing (hopen : tok.kind ∉ TokenKind.openers) (ht : tok.kind ≠ .terminator)
    (he : tok.kind ≠ .eof) :
    s.begin literal tok =
      match s.stack with
      | [] => s.reject tok
      | top :: _ =>
        if top.mayBeEmpty ∧ tok.kind = top.closer then s.close none else s.reject tok := by
  unfold begin
  split
  case h_8 =>
    cases s.stack with
    | nil => exact if_neg fun h => h.elim ht he
    | cons top rest => rfl
  -- the other cases are the kinds that begin an operand
  all_goals simp_all [TokenKind.openers]

/-- A token that is no operator, no name and no opening bracket ends the operand. -/
theorem extend_eq_finish (hop : tok.kind.binaryOp? = none) (hname : tok.kind ≠ .ident)
    (hopen : tok.kind ≠ .lbracket) : s.extend e tok = s.finish e tok := by
  unfold extend
  rw [hop]
  dsimp only
  split
  · contradiction
  · contradiction
  · rfl

/-- Some tokens finish whatever is held. -/
theorem step_ender (hs : s.stage.held? = some c) (hk : tok.kind ∈ TokenKind.enders) :
    s.step literal tok = s.finish c tok := by
  have hkind : tok.kind ≠ .terminator ∧ tok.kind ≠ .lparen ∧ tok.kind.binaryOp? = none ∧
      tok.kind ≠ .ident ∧ tok.kind ≠ .lbracket := by
    simp only [TokenKind.enders, List.mem_cons, List.not_mem_nil, or_false] at hk
    rcases hk with hk | hk | hk | hk <;> simp [hk, TokenKind.binaryOp?]
  obtain ⟨ht, hp, hop, hname, hopen⟩ := hkind
  rw [step_held hs ht hp, extend_eq_finish hop hname hopen]

/-- What ends an operand in a bracket: a comma goes on to the next item, and the bracket's end
closes it. -/
theorem finish_top {top : Frame} (hred : reduce Strength.lowest s.stack c = (top :: rest, e)) :
    s.finish c tok =
      match if tok.kind = .comma then top.add? e else none with
      | some more => { s with stack := more :: rest, stage := .start }
      | none =>
        if tok.kind = top.closer then { s with stack := top :: rest }.close (some e)
        else { s with stack := top :: rest }.reject tok
          (", expected '" ++ top.closer.name ++ "'") := by
  unfold finish
  rw [hred]
  by_cases hk : tok.kind = .comma
  · cases top <;> simp [hk, Frame.add?]
  · cases top <;> simp only [hk, if_false] <;> rfl

/-! ### Frames below -/

/-- Frames on which an expression of its own may stand: none, or an open bracket and whatever is
below it. -/
def Base (below : List Frame) : Prop :=
  ∀ f ∈ below.head?, f.isBracket = true

theorem base_nil : Base [] := fun _ h => by cases h

theorem base_cons {f : Frame} (h : f.isBracket = true) (rest : List Frame) : Base (f :: rest) := by
  rintro g ⟨⟩
  exact h

/-- Nothing is closed beyond an open bracket. -/
theorem reduce_base (hb : Base below) (k : Strength) (e : Expr) :
    reduce k below e = (below, e) := by
  cases below with
  | nil => rfl
  | cons f rest =>
    have hf := hb f rfl
    cases f with
    | unary => cases hf
    | binary => cases hf
    | group => rfl
    | index => rfl
    | list => rfl
    | args => rfl

/-- Closing goes on below a stack if everything on that stack was closed. -/
theorem reduce_append (k : Strength) (stack below : List Frame) (e : Expr) :
    reduce k (stack ++ below) e =
      match reduce k stack e with
      | ([], e) => reduce k below e
      | (f :: rest, e) => (f :: rest ++ below, e) := by
  induction stack generalizing e with
  | nil => rfl
  | cons f rest ih =>
    cases f with
    | unary tok op =>
      simp only [List.cons_append, reduce]
      split
      · exact ih _
      · rfl
    | binary tok left op =>
      simp only [List.cons_append, reduce]
      split
      · exact ih _
      · rfl
    | group => rfl
    | index => rfl
    | list => rfl
    | args => rfl

/-- Closing operators stops at a part of the stack that stays as it is. -/
theorem reduce_append_of_fixed (hb : ∀ e, reduce k below e = (below, e)) (stack : List Frame)
    (e : Expr) :
    reduce k (stack ++ below) e = ((reduce k stack e).1 ++ below, (reduce k stack e).2) := by
  rw [reduce_append]
  split
  · next h =>
    rw [h]
    exact hb _
  · next h => rw [h]

/-! ### One token on top of more frames -/

/-- The state with more frames below its own, and with what was read before. -/
def under (s : ParseState) (below : List Frame) (done : Program) (events : List Event) :
    ParseState :=
  { stack := s.stack ++ below, stage := s.stage, done, events := events ++ s.events }

/-- A bracket is closed alike above any stack. -/
theorem close_under (hs : s.stack ≠ []) (last : Option Expr) :
    (s.under below done events).close last = (s.close last).under below done events := by
  obtain ⟨stack, stage, d, ev⟩ := s
  cases stack with
  | nil => exact absurd rfl hs
  | cons f rest => cases f <;> cases last <;> rfl

/-- An integer is read alike above any stack whose top is no sign. -/
theorem beginInteger_under (hb : Base below) (hok : ¬(s.beginInteger tok).HasFailed) :
    (s.under below done events).beginInteger tok =
      (s.beginInteger tok).under below done events := by
  unfold beginInteger at hok ⊢
  split
  · next hn =>
    rw [hn] at hok
    exact absurd ⟨_, rfl⟩ hok
  · obtain ⟨stack, stage, d, ev⟩ := s
    cases stack with
    | cons f rest =>
      cases f with
      | unary sign op => cases op <;> rfl
      | _ => rfl
    | nil =>
      -- what lies below is no sign
      cases below with
      | nil => rfl
      | cons f rest =>
        have hf := hb f rfl
        cases f with
        | unary => cases hf
        | _ => rfl

/-- A literal is read alike above any stack. -/
theorem beginText_under (hk : tok.kind = .text) (hok : ¬(s.begin literal tok).HasFailed) :
    (s.under below done events).beginText literal tok
      = (s.beginText literal tok).under below done events := by
  cases hres : (literal tok).result with
  | error f => exact absurd (begin_failed (.inr ⟨hk, f, hres⟩)) hok
  | ok e => simp [beginText, hres, operand, under]

/-- What begins an operand is read alike above any stack. -/
theorem begin_under (hb : Base below) (ht : tok.kind ≠ .terminator) (he : tok.kind ≠ .eof)
    (hok : ¬(s.begin literal tok).HasFailed) :
    (s.under below done events).begin literal tok =
      (s.begin literal tok).under below done events := by
  by_cases hopen : tok.kind ∈ TokenKind.openers
  · -- of the tokens that begin an operand, only numerals look at the stack, for a sign
    have hbegin := hok
    unfold begin at hok ⊢
    split
    · rfl
    · next hk =>
      rw [hk] at hok
      exact beginInteger_under hb hok
    · next hk => exact beginText_under hk hbegin
    · rfl
    · rfl
    · rfl
    · rfl
    · simp_all [TokenKind.openers]
  · rw [begin_closing hopen ht he] at hok ⊢
    rw [begin_closing hopen ht he]
    cases hstack : s.stack with
    | nil =>
      rw [hstack] at hok
      exact absurd (reject_failed _) hok
    | cons top rest =>
      have hne : s.stack ≠ [] := by simp [hstack]
      have hunder : (s.under below done events).stack = top :: (rest ++ below) := by
        simp [under, hstack]
      rw [hstack] at hok
      simp only [hunder] at hok ⊢
      split
      · exact close_under hne none
      · next hno =>
        rw [if_neg hno] at hok
        exact absurd (reject_failed _) hok

/-- An operand is ended by what is on its own frames. -/
theorem finish_under (hb : Base below) (ht : tok.kind ≠ .terminator) (he : tok.kind ≠ .eof)
    (hok : ¬(s.finish c tok).HasFailed) :
    (s.under below done events).finish c tok = (s.finish c tok).under below done events := by
  obtain ⟨own, e, hred⟩ : ∃ own e, reduce Strength.lowest s.stack c = (own, e) := ⟨_, _, rfl⟩
  cases own with
  | nil =>
    -- outside of brackets only the end of the line ends an operand
    simp only [finish, hred, ht, he, or_self, if_false] at hok
    exact absurd (reject_failed _) hok
  | cons top rest =>
    have hunder : reduce Strength.lowest (s.under below done events).stack c
        = (top :: (rest ++ below), e) := by
      rw [under, reduce_append_of_fixed (reduce_base hb _), hred]
      rfl
    rw [finish_top hred] at hok ⊢
    rw [finish_top hunder]
    split
    · rfl
    · next hmore =>
      rw [hmore] at hok
      dsimp only at hok
      split
      · exact close_under (s := { s with stack := top :: rest }) (List.cons_ne_nil _ _) (some e)
      · next hend =>
        rw [if_neg hend] at hok
        exact absurd (reject_failed _) hok

/-- So is what goes on behind one. -/
theorem extend_under (hb : Base below) (ht : tok.kind ≠ .terminator) (he : tok.kind ≠ .eof)
    (hok : ¬(s.extend c tok).HasFailed) :
    (s.under below done events).extend c tok = (s.extend c tok).under below done events := by
  have hred (k : Strength) : reduce k (s.under below done events).stack c
      = ((reduce k s.stack c).1 ++ below, (reduce k s.stack c).2) :=
    reduce_append_of_fixed (reduce_base hb k) s.stack c
  have hextend := hok
  unfold extend at hok ⊢
  split
  · next op hop =>
    simp only [hred, hop] at hok ⊢
    split
    -- an assignment to something other than a name has failed
    · next hassign =>
      rw [if_pos hassign] at hok
      exact absurd ⟨_, rfl⟩ hok
    · rfl
  · next hop =>
    split
    · simp only [hred]
      rfl
    · simp only [hred]
      rfl
    · next hname hopen =>
      rw [extend_eq_finish hop hname hopen] at hextend
      exact finish_under hb ht he hextend

/-- One token does the same on top of more frames. -/
theorem step_under (hb : Base below) (ht : tok.kind ≠ .terminator) (he : tok.kind ≠ .eof)
    (hok : ¬(s.step literal tok).HasFailed) :
    (s.under below done events).step literal tok =
      (s.step literal tok).under below done events := by
  have hnl := isNewline_eq_false ht
  unfold step at hok ⊢
  have hstage : (s.under below done events).stage = s.stage := rfl
  rw [hstage]
  cases hs : s.stage with
  | failed f =>
    simp only [hs] at hok
    exact absurd ⟨f, hs⟩ hok
  | start =>
    simp only [hs, hnl, Bool.false_and, Bool.false_eq_true, if_false] at hok ⊢
    exact begin_under hb ht he hok
  | operand e =>
    simp only [hs, hnl, Bool.false_and, Bool.false_eq_true, if_false] at hok ⊢
    exact extend_under hb ht he hok
  | name receiver name =>
    simp only [hs, hnl, Bool.false_and, Bool.false_eq_true, if_false] at hok ⊢
    split
    · rfl
    · next hp =>
      rw [if_neg hp] at hok
      exact extend_under hb ht he hok

/-- A run that has not failed did not begin with a failure. -/
theorem not_failed_of_foldl (toks : List Token) (hok : ¬(toks.foldl (step literal) s).HasFailed) :
    ¬s.HasFailed := by
  rintro ⟨f, hf⟩
  rw [foldl_of_failed hf] at hok
  exact hok ⟨f, hf⟩

/-- A run over tokens of one line does the same on top of more frames. -/
theorem foldl_under (hb : Base below) (done : Program) (events : List Event) (toks : List Token)
    (hline : ∀ tok ∈ toks, tok.kind ≠ .terminator ∧ tok.kind ≠ .eof)
    (hok : ¬(toks.foldl (step literal) s).HasFailed) :
    toks.foldl (step literal) (s.under below done events)
      = (toks.foldl (step literal) s).under below done events := by
  induction toks generalizing s with
  | nil => rfl
  | cons tok toks ih =>
    obtain ⟨ht, he⟩ := hline tok List.mem_cons_self
    rw [List.foldl_cons, step_under hb ht he (not_failed_of_foldl toks hok)]
    exact ih (fun t hmem => hline t (List.mem_cons_of_mem _ hmem)) hok

/-! ### What a run leaves -/

/-- The parser has the operand `e` at hand, on this stack and after this program. -/
structure Leaves (s : ParseState) (stack : List Frame) (done : Program) (e : Expr) : Prop where
  held : s.stage.held? = some e
  stack_eq : s.stack = stack
  done_eq : s.done = done

/-- `Reads literal k t toks e`: the tokens `toks` leave an operand, and whatever then closes the
waiting operators, at a strength of at most `k`, finds `e` on the stack of `t`. -/
def Reads (literal : Token → Traced Expr) (k : Strength) (t : ParseState) (toks : List Token)
    (e : Expr) : Prop :=
  ∃ c, (toks.foldl (step literal) t).stage.held? = some c ∧
    (toks.foldl (step literal) t).done = t.done ∧
    ∀ j, Strength.lowest ≤ j → j ≤ k →
      reduce j (toks.foldl (step literal) t).stack c = reduce j t.stack e

/-- What leaves an operand has read it, whatever may close it. -/
theorem Leaves.reads (h : Leaves (toks.foldl (step literal) t) t.stack t.done e) (k : Strength) :
    Reads literal k t toks e :=
  ⟨e, h.held, h.done_eq, fun j _ _ => by rw [h.stack_eq]⟩

/-- What ends an expression finds the expression that was read. -/
theorem Reads.finish (h : Reads literal Strength.lowest t toks e)
    (hk : tok.kind ∈ TokenKind.enders) :
    ∃ s : ParseState, s.stack = t.stack ∧ s.done = t.done ∧
      (toks ++ [tok]).foldl (step literal) t = s.finish e tok := by
  obtain ⟨c, hheld, hdone, hred⟩ := h
  refine ⟨{ toks.foldl (step literal) t with stack := t.stack }, rfl, hdone, ?_⟩
  rw [List.foldl_append, List.foldl_cons, List.foldl_nil, step_ender hheld hk]
  unfold ParseState.finish
  rw [hred _ (Nat.le_refl _) (Nat.le_refl _)]

/-! ### Expressions of their own -/

/-- `Alone literal toks e`: the tokens stand on one line, and as a program of their own they are the
expression `e`. -/
structure Alone (literal : Token → Traced Expr) (toks : List Token) (e : Expr) : Prop where
  line : ∀ tok ∈ toks, tok.kind ≠ .terminator ∧ tok.kind ≠ .eof
  program : ∃ last : Token, last.kind = .eof ∧ (run literal (toks ++ [last])).failure? = none ∧
    (run literal (toks ++ [last])).done = [e]

theorem eof_ne_closer (top : Frame) : TokenKind.eof ≠ top.closer := by
  cases top <;> simp [Frame.closer]

/-- The end of the source begins nothing. -/
theorem begin_eof (hk : tok.kind = .eof) (hok : ¬(s.begin literal tok).HasFailed) :
    s.begin literal tok = s := by
  unfold begin at hok ⊢
  simp only [hk] at hok ⊢
  cases hstack : s.stack with
  | nil => rfl
  | cons top rest =>
    simp only [hstack, eof_ne_closer top, and_false, if_false] at hok
    exact absurd (reject_failed _) hok

/-- It finishes the last expression. -/
theorem finish_eof (hk : tok.kind = .eof) (hok : ¬(s.finish c tok).HasFailed) :
    ∃ e, reduce Strength.lowest s.stack c = ([], e) ∧ (s.finish c tok).done = s.done ++ [e] := by
  obtain ⟨own, e, hred⟩ : ∃ own e, reduce Strength.lowest s.stack c = (own, e) := ⟨_, _, rfl⟩
  cases own with
  | nil => exact ⟨e, hred, by simp [ParseState.finish, hred, hk]⟩
  | cons top rest =>
    -- no bracket ends at the end of the input
    simp only [finish_top hred, hk, eof_ne_closer top, reduceCtorEq, if_false] at hok
    exact absurd (reject_failed _) hok

/-- At the end of an expression on its own, an operand is at hand that becomes the expression. -/
theorem Alone.held (h : Alone literal toks e) :
    ¬(run literal toks).HasFailed ∧ ∃ c, (run literal toks).stage.held? = some c ∧
      reduce Strength.lowest (run literal toks).stack c = ([], e) := by
  obtain ⟨last, hlast, hfail, hdone⟩ := h.program
  rw [run_concat] at hfail hdone
  have hend : ¬((run literal toks).step literal last).HasFailed := by
    rintro ⟨f, hf⟩
    rw [failure?_eq_some_iff.mpr hf] at hfail
    cases hfail
  have ht : last.kind ≠ .terminator := by simp [hlast]
  have hok : ¬(run literal toks).HasFailed := not_failed_of_foldl [last] hend
  -- on top of nothing, the run itself says that nothing was completed before its end
  have hnone : (run literal toks).done = [] :=
    congrArg ParseState.done (foldl_under base_nil [] [] toks h.line hok)
  refine ⟨hok, ?_⟩
  cases hheld : (run literal toks).stage.held? with
  | none =>
    rw [step_start (start_of_not_held hheld hok) ht] at hend hdone
    rw [begin_eof hlast hend, hnone] at hdone
    cases hdone
  | some c =>
    rw [step_ender hheld (by simp [hlast, TokenKind.enders])] at hend hdone
    obtain ⟨e', hred, hdone'⟩ := finish_eof hlast hend
    rw [hdone', hnone] at hdone
    cases hdone
    exact ⟨c, rfl, hred⟩

/-- What is an expression on its own is read as that, over any frames that it may stand on. -/
theorem Alone.reads (h : Alone literal toks e) (hs : t.stage = .start) (hb : Base t.stack) :
    Reads literal Strength.lowest t toks e := by
  obtain ⟨hok, c, hheld, hred⟩ := h.held
  have ht : ({} : ParseState).under t.stack t.done t.events = t := by
    simp [under, ← hs]
  have hrun : toks.foldl (step literal) t = (run literal toks).under t.stack t.done t.events := by
    rw [run, ← foldl_under hb _ _ toks h.line hok, ht]
  refine ⟨c, ?_, ?_, fun j hlow hj => ?_⟩
  · rw [hrun]
    exact hheld
  · rw [hrun]
    rfl
  · obtain rfl : j = Strength.lowest := Nat.le_antisymm hj hlow
    rw [hrun, under, reduce_append_of_fixed (reduce_base hb _), hred, reduce_base hb]
    rfl

/-! ### Between brackets -/

/-- A bracket that takes several items: a list, or the arguments of a message. -/
inductive Collector where
  | list (tok : Token)
  | args (receiver : Option Expr) (tok : Token)

namespace Collector

/-- The bracket with the items so far. -/
def frame : Collector → List Expr → Frame
  | list tok, items => .list tok items
  | args receiver tok, items => .args receiver tok items

/-- What the bracket stands for once it is closed. -/
def result : Collector → List Expr → Expr
  | list tok, items => .list tok items
  | args receiver tok, items => Frame.message receiver tok true items

/-- The kind of token that closes the bracket. -/
def closer : Collector → TokenKind
  | list _ => .rbracket
  | args _ _ => .rparen

variable (g : Collector) (items : List Expr)

theorem isBracket_frame : (g.frame items).isBracket = true := by cases g <;> rfl

theorem mayBeEmpty_frame : (g.frame items).mayBeEmpty = true := by cases g <;> rfl

theorem closer_frame : (g.frame items).closer = g.closer := by cases g <;> rfl

theorem add?_frame (e : Expr) : (g.frame items).add? e = some (g.frame (items ++ [e])) := by
  cases g <;> rfl

theorem closer_ends : g.closer ∉ TokenKind.openers ∧ g.closer ≠ .terminator ∧ g.closer ≠ .eof := by
  cases g <;> simp [closer, TokenKind.openers]

/-- Closing a collection leaves it as an operand. -/
theorem leaves_close (s : ParseState) (last : Option Expr) (hs : s.stack = g.frame items :: rest) :
    Leaves (s.close last) rest s.done (g.result (items ++ last.toList)) := by
  obtain ⟨stack, stage, done, events⟩ := s
  cases hs
  cases g <;> exact ⟨rfl, rfl, rfl⟩

end Collector

/-- `Items literal toks es`: the tokens are expressions of their own with commas between them, and
maybe a comma behind the last. -/
inductive Items (literal : Token → Traced Expr) : List Token → List Expr → Prop
  | none : Items literal [] []
  | last {toks : List Token} {e : Expr} : Alone literal toks e → Items literal toks [e]
  | more {toks rest : List Token} {e : Expr} {es : List Expr} {comma : Token} :
      Alone literal toks e → comma.kind = .comma → Items literal rest es →
      Items literal (toks ++ comma :: rest) (e :: es)

/-- The end of a bracket closes it around the expression before. -/
theorem Alone.close {top : Frame} (h : Alone literal toks e) (hs : t.stage = .start)
    (hstack : t.stack = top :: rest) (hb : top.isBracket = true) (hk : tok.kind = top.closer) :
    ∃ s : ParseState, s.stack = top :: rest ∧ s.done = t.done ∧
      (toks ++ [tok]).foldl (step literal) t = s.close (some e) := by
  have hbase : Base (top :: rest) := base_cons hb rest
  have hender : tok.kind ∈ TokenKind.enders ∧ tok.kind ≠ .comma := by
    rw [hk]
    cases top <;> simp [Frame.closer, TokenKind.enders]
  obtain ⟨s, hs', hdone, hrun⟩ := (h.reads hs (hstack ▸ hbase)).finish hender.1
  rw [hstack] at hs'
  refine ⟨s, hs', hdone, ?_⟩
  have hred : reduce Strength.lowest s.stack e = (top :: rest, e) := by rw [hs', reduce_base hbase]
  rw [hrun, finish_top hred, if_neg hender.2, ← hs']
  exact if_pos hk

/-- A comma adds what stands before it to the collection. -/
theorem Alone.comma {g : Collector} {items : List Expr} (h : Alone literal toks e)
    (hs : t.stage = .start) (hstack : t.stack = g.frame items :: rest) (hk : tok.kind = .comma) :
    ((toks ++ [tok]).foldl (step literal) t).stage = .start ∧
      ((toks ++ [tok]).foldl (step literal) t).stack = g.frame (items ++ [e]) :: rest ∧
      ((toks ++ [tok]).foldl (step literal) t).done = t.done := by
  have hbase : Base (g.frame items :: rest) := base_cons (g.isBracket_frame items) rest
  have hender : tok.kind ∈ TokenKind.enders := by simp [hk, TokenKind.enders]
  obtain ⟨s, hs', hdone, hrun⟩ := (h.reads hs (hstack ▸ hbase)).finish hender
  rw [hstack] at hs'
  have hred : reduce Strength.lowest s.stack e = (g.frame items :: rest, e) := by
    rw [hs', reduce_base hbase]
  rw [hrun, finish_top hred, if_pos hk, g.add?_frame]
  exact ⟨rfl, rfl, hdone⟩

/-- Expressions with commas between them fill their bracket, and its end closes it. -/
theorem Items.read {g : Collector} {items es : List Expr} (h : Items literal toks es)
    (hs : t.stage = .start) (hstack : t.stack = g.frame items :: rest) (hk : tok.kind = g.closer) :
    Leaves ((toks ++ [tok]).foldl (step literal) t) rest t.done (g.result (items ++ es)) := by
  induction h generalizing t items with
  | none =>
    -- the bracket ends where one more item could begin
    obtain ⟨hopen, ht, he⟩ := g.closer_ends
    rw [← hk] at hopen ht he
    rw [List.nil_append, List.foldl_cons, List.foldl_nil, step_start hs ht,
      begin_closing hopen ht he, hstack]
    dsimp only
    rw [if_pos ⟨g.mayBeEmpty_frame items, hk.trans (g.closer_frame items).symm⟩]
    exact g.leaves_close items t .none hstack
  | last halone =>
    obtain ⟨s, hs', hdone, hrun⟩ :=
      halone.close hs hstack (g.isBracket_frame items) (hk.trans (g.closer_frame items).symm)
    rw [hrun, ← hdone]
    exact g.leaves_close items s (some _) hs'
  | more halone hcomma _ ih =>
    obtain ⟨hs', hstack', hdone'⟩ := halone.comma hs hstack hcomma
    have h := ih hs' hstack'
    rw [hdone', List.append_assoc, List.singleton_append, ← List.foldl_append] at h
    simpa using h

end ParseState

end TextScript
