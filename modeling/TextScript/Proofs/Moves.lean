/-
TextScript/Proofs/Moves.lean

What one token does to the parser.

`Moves literal tok s s'` lists, one constructor each, all the ways in which a token takes the
parser on without a failure: it begins an operand, opens or ends a bracket, joins operands,
completes an expression, or is passed over.  A step that does not fail is one of these moves
(`step_moves`), so that whatever is to hold along a run is checked move by move and the parser's
functions are not opened again.

A step also goes its way regardless of what was completed before it (`step_after`), which is how a
run over the rest of a program is a run over a program of its own.
-/
import Mathlib.Data.List.Induction
import TextScript.Proofs.Operands

namespace TextScript

/-- What a bracket becomes at its end, given its last item if there is one. -/
def Frame.closed? : Frame → Option Expr → Option Expr
  | .group, some e => some e
  | .index tok target, some e => some (.index tok target e)
  | .list tok items, last => some (.list tok (items ++ last.toList))
  | .args receiver tok items, last => some (Frame.message receiver tok true (items ++ last.toList))
  | _, _ => none

theorem BinaryOp.lowest_le_rightStrength (op : BinaryOp) : Strength.lowest ≤ op.rightStrength := by
  cases op <;> simp [rightStrength, strength, Strength.lowest]

namespace ParseState

/-- `Moves literal tok s s'`: the token `tok` takes the parser from `s` to `s'`. -/
inductive Moves (literal : Token → Traced Expr) (tok : Token) (s : ParseState) : ParseState → Prop
  /-- A line end between brackets. -/
  | newline : tok.isNewline = true → s.inBrackets = true → Moves literal tok s s
  /-- A terminator where nothing is open. -/
  | idle : s.stage = .start → s.stack = [] → tok.kind = .terminator ∨ tok.kind = .eof →
      Moves literal tok s s
  | name : s.stage = .start → tok.kind = .ident →
      Moves literal tok s { s with stage := .name none tok }
  | integer {n : Int64} : s.stage = .start → tok.kind = .int → integer? tok.lit = some n →
      (∀ sign rest, s.stack ≠ .unary sign .negate :: rest) →
      Moves literal tok s (s.operand s.stack (.int tok n))
  /-- A number right behind a minus sign. -/
  | folded {n : Int64} {sign : Token} {rest : List Frame} : s.stage = .start → tok.kind = .int →
      integer? tok.lit = some n → s.stack = .unary sign .negate :: rest →
      Moves literal tok s (s.operand rest (negated sign tok n))
  | text {e : Expr} : s.stage = .start → tok.kind = .text → (literal tok).result = .ok e →
      Moves literal tok s { s with stage := .operand e, events := s.events ++ (literal tok).events }
  | sign {op : UnaryOp} : s.stage = .start → tok.kind.unaryOp? = some op →
      Moves literal tok s (s.push (.unary tok op))
  | group : s.stage = .start → tok.kind = .lparen → Moves literal tok s (s.push .group)
  | list : s.stage = .start → tok.kind = .lbracket → Moves literal tok s (s.push (.list tok []))
  /-- The end of a bracket where one more item could begin. -/
  | empty {top : Frame} {rest : List Frame} {whole : Expr} : s.stage = .start →
      s.stack = top :: rest → tok.kind = top.closer → top.closed? none = some whole →
      Moves literal tok s (s.operand rest whole)
  | arguments {receiver : Option Expr} {name : Token} : s.stage = .name receiver name →
      tok.kind = .lparen → Moves literal tok s (s.push (.args receiver name []))
  | binary {c left : Expr} {op : BinaryOp} {stack : List Frame} : s.stage.held? = some c →
      tok.kind.binaryOp? = some op → reduce op.strength s.stack c = (stack, left) →
      (op = .assign → left.isBareName = true) →
      Moves literal tok s { s with stack := .binary tok left op :: stack, stage := .start }
  | send {c receiver : Expr} {stack : List Frame} : s.stage.held? = some c → tok.kind = .ident →
      reduce Strength.send s.stack c = (stack, receiver) →
      Moves literal tok s { s with stack, stage := .name (some receiver) tok }
  | index {c target : Expr} {stack : List Frame} : s.stage.held? = some c → tok.kind = .lbracket →
      reduce Strength.index s.stack c = (stack, target) →
      Moves literal tok s { s with stack := .index tok target :: stack, stage := .start }
  /-- The end of an expression outside of brackets. -/
  | complete {c e : Expr} : s.stage.held? = some c → tok.kind = .terminator ∨ tok.kind = .eof →
      reduce Strength.lowest s.stack c = ([], e) →
      Moves literal tok s { s with stack := [], done := s.done ++ [e], stage := .start }
  | comma {c e : Expr} {top more : Frame} {rest : List Frame} : s.stage.held? = some c →
      tok.kind = .comma → reduce Strength.lowest s.stack c = (top :: rest, e) →
      top.add? e = some more → Moves literal tok s { s with stack := more :: rest, stage := .start }
  | close {c e whole : Expr} {top : Frame} {rest : List Frame} : s.stage.held? = some c →
      tok.kind = top.closer → reduce Strength.lowest s.stack c = (top :: rest, e) →
      top.closed? (some e) = some whole → Moves literal tok s (s.operand rest whole)

variable {literal : Token → Traced Expr} {s s' : ParseState} {tok : Token} {c e : Expr}
variable {stack rest : List Frame} {top : Frame}

/-! ### Closing operators -/

/-- What closing one operator keeps is kept until all are closed that bind tightly enough. -/
theorem reduce_keeps {P : List Frame → Expr → Prop} {k : Strength}
    (unary : ∀ tok op rest c, P (.unary tok op :: rest) c → P rest (.unary tok op c))
    (binary : ∀ tok left op rest c, P (.binary tok left op :: rest) c →
      P rest (.binary tok left op c))
    (h : reduce k stack c = (rest, e)) (hs : P stack c) : P rest e := by
  fun_induction reduce k stack c with
  | case1 tok op more c _ ih => exact ih h (unary tok op more c hs)
  | case3 tok left op more c _ ih => exact ih h (binary tok left op more c hs)
  | case2 => cases h; exact hs
  | case4 => cases h; exact hs
  | case5 => cases h; exact hs

/-! ### Steps are moves -/

/-- What ends an expression leaves no operator waiting. -/
theorem base_reduce_lowest (stack : List Frame) (c : Expr) :
    Base (reduce Strength.lowest stack c).1 := by
  induction stack generalizing c with
  | nil => exact base_nil
  | cons f rest ih =>
    cases f with
    | unary tok op =>
      rw [reduce, if_pos (by decide)]
      exact ih _
    | binary tok left op =>
      rw [reduce, if_pos op.lowest_le_rightStrength]
      exact ih _
    | group => exact base_cons rfl rest
    | index => exact base_cons rfl rest
    | list => exact base_cons rfl rest
    | args => exact base_cons rfl rest

/-- What is left on top once all operators are closed is a bracket. -/
theorem isBracket_of_reduce (h : reduce Strength.lowest stack c = (top :: rest, e)) :
    top.isBracket = true := by
  have hbase := base_reduce_lowest stack c
  rw [h] at hbase
  exact hbase top rfl

/-- A bracket with a last item can be closed. -/
theorem closed?_of_isBracket (h : top.isBracket = true) (e : Expr) :
    ∃ whole, top.closed? (some e) = some whole := by
  cases top with
  | unary => cases h
  | binary => cases h
  | group => exact ⟨_, rfl⟩
  | index => exact ⟨_, rfl⟩
  | list => exact ⟨_, rfl⟩
  | args => exact ⟨_, rfl⟩

theorem closed?_of_mayBeEmpty (h : top.mayBeEmpty = true) :
    ∃ whole, top.closed? none = some whole := by
  cases top with
  | list => exact ⟨_, rfl⟩
  | args => exact ⟨_, rfl⟩
  | _ => cases h

/-- Closing a bracket makes one operand of it. -/
theorem close_eq {last : Option Expr} {whole : Expr} (hs : s.stack = top :: rest)
    (h : top.closed? last = some whole) : s.close last = s.operand rest whole := by
  unfold close
  rw [hs]
  cases top <;> cases last <;> cases h <;> rfl

/-- An integer is a move. -/
theorem beginInteger_moves (hs : s.stage = .start) (hk : tok.kind = .int)
    (hok : ¬(s.beginInteger tok).HasFailed) : Moves literal tok s (s.beginInteger tok) := by
  unfold beginInteger at hok ⊢
  cases hn : integer? tok.lit with
  | none =>
    rw [hn] at hok
    exact absurd ⟨_, rfl⟩ hok
  | some n =>
    dsimp only
    split
    · next sign rest hstack => exact .folded hs hk hn hstack
    · next hsign => exact .integer hs hk hn fun sign rest => hsign sign rest

/-- So is a literal. -/
theorem beginText_moves (hs : s.stage = .start) (hk : tok.kind = .text)
    (hok : ¬(s.begin literal tok).HasFailed) : Moves literal tok s (s.beginText literal tok) := by
  cases hres : (literal tok).result with
  | error f => exact absurd (begin_failed (.inr ⟨hk, f, hres⟩)) hok
  | ok e =>
    have hmove : Moves literal tok s _ := .text hs hk hres
    simpa [beginText, hres, operand] using hmove

/-- So is whatever begins an operand. -/
theorem begin_moves (hs : s.stage = .start) (hok : ¬(s.begin literal tok).HasFailed) :
    Moves literal tok s (s.begin literal tok) := by
  have hbegin := hok
  unfold begin at hok ⊢
  split
  · next hk => exact .name hs hk
  · next hk =>
    rw [hk] at hok
    exact beginInteger_moves hs hk hok
  · next hk => exact beginText_moves hs hk hbegin
  · next hk => exact .sign hs (by rw [hk]; rfl)
  · next hk => exact .sign hs (by rw [hk]; rfl)
  · next hk => exact .group hs hk
  · next hk => exact .list hs hk
  · -- what begins no operand ends the program or an empty bracket
    cases hstack : s.stack with
    | nil =>
      simp only [hstack] at hok ⊢
      split
      · next hend => exact .idle hs hstack hend
      · next hend =>
        rw [if_neg hend] at hok
        exact absurd (reject_failed _) hok
    | cons top rest =>
      simp only [hstack] at hok ⊢
      split
      · next hclose =>
        obtain ⟨whole, hwhole⟩ := closed?_of_mayBeEmpty hclose.1
        rw [close_eq hstack hwhole]
        exact .empty hs hstack hclose.2 hwhole
      · next hclose =>
        rw [if_neg hclose] at hok
        exact absurd (reject_failed _) hok

/-- So is what finishes one. -/
theorem finish_moves (hs : s.stage.held? = some c) (hok : ¬(s.finish c tok).HasFailed) :
    Moves literal tok s (s.finish c tok) := by
  obtain ⟨own, e, hred⟩ : ∃ own e, reduce Strength.lowest s.stack c = (own, e) := ⟨_, _, rfl⟩
  cases own with
  | nil =>
    simp only [finish, hred] at hok ⊢
    split
    · next hend => exact .complete hs hend hred
    · next hend =>
      rw [if_neg hend] at hok
      exact absurd (reject_failed _) hok
  | cons top rest =>
    rw [finish_top hred] at hok ⊢
    split
    · next more hmore =>
      -- only a comma adds an item and goes on
      split at hmore
      · next hk => exact .comma hs hk hred hmore
      · cases hmore
    · next hmore =>
      simp only [hmore] at hok
      split
      · next hk =>
        obtain ⟨whole, hwhole⟩ := closed?_of_isBracket (isBracket_of_reduce hred) e
        have hmove : Moves literal tok s (s.operand rest whole) := .close hs hk hred hwhole
        rw [close_eq rfl hwhole]
        exact hmove
      · next hk =>
        rw [if_neg hk] at hok
        exact absurd (reject_failed _) hok

/-- So is what goes on behind one. -/
theorem extend_moves (hs : s.stage.held? = some c) (hok : ¬(s.extend c tok).HasFailed) :
    Moves literal tok s (s.extend c tok) := by
  have hextend := hok
  unfold extend at hok ⊢
  split
  · next op hop =>
    simp only [hop] at hok
    simp only
    split
    · next hassign =>
      rw [if_pos hassign] at hok
      exact absurd ⟨_, rfl⟩ hok
    · next hassign =>
      refine .binary hs hop rfl fun ha => ?_
      simpa [ha] using hassign
  · next hop =>
    split
    · next hk => exact .send hs hk rfl
    · next hk => exact .index hs hk rfl
    · next hname hopen =>
      rw [extend_eq_finish hop hname hopen] at hextend
      exact finish_moves hs hextend

/-- A step that does not fail is one of the moves. -/
theorem step_moves (hok : ¬(s.step literal tok).HasFailed) :
    Moves literal tok s (s.step literal tok) := by
  -- a line end in brackets is passed over in every stage, so it comes before the stages
  by_cases hnl : (tok.isNewline && s.inBrackets) = true
  · have hs : s.step literal tok = s := by
      unfold step
      split
      · rfl
      · rw [if_pos hnl]
    rw [hs]
    exact .newline (Bool.and_eq_true_iff.mp hnl).1 (Bool.and_eq_true_iff.mp hnl).2
  unfold step at hok ⊢
  cases hs : s.stage with
  | failed f =>
    simp only [hs] at hok
    exact absurd ⟨f, hs⟩ hok
  | start =>
    simp only [hs, if_neg hnl] at hok ⊢
    exact begin_moves hs hok
  | operand e =>
    simp only [hs, if_neg hnl] at hok ⊢
    exact extend_moves (by rw [hs]; rfl) hok
  | name receiver name =>
    simp only [hs, if_neg hnl] at hok ⊢
    split
    · next hk => exact .arguments hs hk
    · next hk =>
      rw [if_neg hk] at hok
      exact extend_moves (by rw [hs]; rfl) hok

/-- At the end of input nothing is open, or an expression is completed. -/
theorem Moves.at_end (h : Moves literal tok s s') (hk : tok.kind = .eof) :
    (s.stage = .start ∧ s.stack = [] ∧ s' = s) ∨
      ∃ c e, s.stage.held? = some c ∧ reduce Strength.lowest s.stack c = ([], e) ∧
        s' = { s with stack := [], done := s.done ++ [e], stage := .start } := by
  cases h with
  | idle hstage hstack => exact .inl ⟨hstage, hstack, rfl⟩
  | complete hheld _ hred => exact .inr ⟨_, _, hheld, hred, rfl⟩
  | newline hnl => simp [Token.isNewline, hk] at hnl
  | sign _ hop => simp [hk, TokenKind.unaryOp?] at hop
  | binary _ hop => simp [hk, TokenKind.binaryOp?] at hop
  | empty _ _ hclose => exact absurd (hk.symm.trans hclose) (eof_ne_closer _)
  | close _ hclose => exact absurd (hk.symm.trans hclose) (eof_ne_closer _)
  | name _ hkind => simp [hk] at hkind
  | integer _ hkind => simp [hk] at hkind
  | folded _ hkind => simp [hk] at hkind
  | text _ hkind => simp [hk] at hkind
  | group _ hkind => simp [hk] at hkind
  | list _ hkind => simp [hk] at hkind
  | arguments _ hkind => simp [hk] at hkind
  | send _ hkind => simp [hk] at hkind
  | index _ hkind => simp [hk] at hkind
  | comma _ hkind => simp [hk] at hkind

/-- A run that has not failed had not failed before. -/
theorem not_failed_concat {toks : List Token} (h : ¬(run literal (toks ++ [tok])).HasFailed) :
    ¬(run literal toks).HasFailed := by
  rw [run_concat] at h
  exact not_failed_of_foldl [tok] h

/-- What every move keeps holds after a run that does not fail. -/
theorem run_moves {P : List Token → ParseState → Prop} (start : P [] {})
    (move : ∀ toks tok s s', Moves literal tok s s' → P toks s → P (toks ++ [tok]) s')
    (toks : List Token) (hok : ¬(run literal toks).HasFailed) : P toks (run literal toks) := by
  induction toks using List.reverseRecOn with
  | nil => exact start
  | append_singleton toks tok ih =>
    have hbefore := ih (not_failed_concat hok)
    rw [run_concat] at hok ⊢
    exact move toks tok _ _ (step_moves hok) hbefore

/-! ### What was completed before -/

/-- The state with more expressions completed and more events before its own. -/
def after (s : ParseState) (done : Program) (events : List Event) : ParseState :=
  { s with done := done ++ s.done, events := events ++ s.events }

variable {done : Program} {events : List Event}

theorem reject_after (more : String) :
    (s.after done events).reject tok more = (s.reject tok more).after done events := by
  unfold reject
  split <;> rfl

theorem close_after (last : Option Expr) :
    (s.after done events).close last = (s.close last).after done events := by
  obtain ⟨stack, stage, d, ev⟩ := s
  cases stack with
  | nil => rfl
  | cons f rest => cases f <;> cases last <;> rfl

theorem beginInteger_after :
    (s.after done events).beginInteger tok = (s.beginInteger tok).after done events := by
  unfold beginInteger
  split
  · rfl
  · obtain ⟨stack, stage, d, ev⟩ := s
    cases stack with
    | nil => rfl
    | cons f rest =>
      cases f with
      | unary sign op => cases op <;> rfl
      | _ => rfl

theorem beginText_after :
    (s.after done events).beginText literal tok = (s.beginText literal tok).after done events := by
  unfold beginText
  simp only
  split <;> simp [after, operand, fail]

/-- What begins an operand does not look at what was done before. -/
theorem begin_after :
    (s.after done events).begin literal tok = (s.begin literal tok).after done events := by
  unfold begin
  split
  · rfl
  · exact beginInteger_after
  · exact beginText_after
  · rfl
  · rfl
  · rfl
  · rfl
  · have hstack : (s.after done events).stack = s.stack := rfl
    rw [hstack]
    cases s.stack with
    | nil =>
      dsimp only
      split
      · rfl
      · exact reject_after _
    | cons top rest =>
      dsimp only
      split
      · exact close_after none
      · exact reject_after _

/-- Nor does what finishes one. -/
theorem finish_after :
    (s.after done events).finish c tok = (s.finish c tok).after done events := by
  obtain ⟨own, e, hred⟩ : ∃ own e, reduce Strength.lowest s.stack c = (own, e) := ⟨_, _, rfl⟩
  have hred' : reduce Strength.lowest (s.after done events).stack c = (own, e) := hred
  cases own with
  | nil =>
    simp only [finish, hred, hred']
    split
    · simp [after]
    · rw [← reject_after]
      simp [after]
  | cons top rest =>
    rw [finish_top hred, finish_top hred']
    split
    · rfl
    · split
      · exact close_after (s := { s with stack := top :: rest }) (some e)
      · exact reject_after (s := { s with stack := top :: rest }) _

/-- Nor does what goes on behind one. -/
theorem extend_after :
    (s.after done events).extend c tok = (s.extend c tok).after done events := by
  have hstack : (s.after done events).stack = s.stack := rfl
  unfold extend
  split
  · simp only [hstack]
    split <;> rfl
  · split
    · rfl
    · rfl
    · exact finish_after

/-- A step goes its way regardless of what was completed before. -/
theorem step_after :
    (s.after done events).step literal tok = (s.step literal tok).after done events := by
  have hstage : (s.after done events).stage = s.stage := rfl
  have hin : (s.after done events).inBrackets = s.inBrackets := rfl
  unfold step
  rw [hstage, hin]
  cases s.stage with
  | failed f => rfl
  | start =>
    dsimp only
    split
    · rfl
    · exact begin_after
  | operand e =>
    dsimp only
    split
    · rfl
    · exact extend_after
  | name receiver name =>
    dsimp only
    split
    · rfl
    · split
      · rfl
      · exact extend_after

/-- A run does not look at what was done before. -/
theorem foldl_after (done : Program) (events : List Event) (toks : List Token) (s : ParseState) :
    toks.foldl (step literal) (s.after done events)
      = (toks.foldl (step literal) s).after done events := by
  induction toks generalizing s with
  | nil => rfl
  | cons tok toks ih => rw [List.foldl_cons, step_after, ih, List.foldl_cons]

end ParseState

end TextScript
