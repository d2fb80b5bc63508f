/-
TextScript/Proofs/Following.lean

Readings that follow a run of the parser.

Where the descent returns from an expression, the parser still has operators on its stack, which
the next token closes.  So the two are compared by how the run goes on: if a reading gives `a` and
leaves some tokens, then the run over all tokens is the run over those from the state in which `a`
is complete (`Follows`).  A reading that fails is a run that fails in the same way.

An operator that the next token closes may as well be closed before it (`foldl_closed`); that is
what the end of a reading needs.  What its beginning needs is that the stack waits for an operand
(`Awaits`) and for whatever binds tightly enough (`Waits`).
-/
import TextScript.Proofs.Descent
import TextScript.Proofs.Levels

namespace TextScript

open Budgeted Descent

variable {literal : Token → Traced Expr} {s t : ParseState} {tok : Token} {e c : Expr}
variable {toks rest : List Token} {stack below : List Frame} {nested : Bool} {k : Strength}

/-! ### Lists of tokens with an end -/

/-- The end of input is the last token and no other. -/
inductive Ended : List Token → Prop
  | last {tok : Token} : tok.kind = .eof → Ended [tok]
  | more {tok : Token} {rest : List Token} : tok.kind ≠ .eof → Ended rest → Ended (tok :: rest)

theorem ended_tokens (limit : Int) (p : Position) (src : List Char) :
    Ended (Lexer.tokens limit p src) := by
  obtain ⟨init, last, htoks, hlast, hinit⟩ := Lexer.tokens_eq_concat limit p src
  rw [htoks]
  clear htoks
  induction init with
  | nil => exact .last hlast
  | cons tok init ih =>
    exact .more (hinit tok List.mem_cons_self)
      (ih fun t hmem => hinit t (List.mem_cons_of_mem _ hmem))

theorem Ended.tail (h : Ended (tok :: rest)) (hk : tok.kind ≠ .eof) : Ended rest := by
  cases h with
  | last hlast => exact absurd hlast hk
  | more _ hrest => exact hrest

/-- There is always a token to see, and it is no line end between brackets. -/
theorem Ended.exists_ahead (h : Ended toks) (nested : Bool) :
    ∃ tok rest, ahead nested toks = tok :: rest ∧ Ended (tok :: rest) ∧
      (tok.isNewline && nested) = false := by
  induction h with
  | @last tok hk =>
    have hnl : tok.isNewline = false := ParseState.isNewline_eq_false (by simp [hk])
    refine ⟨tok, [], ?_, .last hk, by rw [hnl, Bool.false_and]⟩
    cases nested <;> simp [ahead, hnl]
  | @more tok rest hk hrest ih =>
    cases hnl : tok.isNewline && nested with
    | false =>
      refine ⟨tok, rest, ?_, .more hk hrest, hnl⟩
      cases nested <;> simp_all [ahead]
    | true =>
      -- the line end is passed over
      obtain ⟨hnewline, rfl⟩ := Bool.and_eq_true_iff.mp hnl
      obtain ⟨tok', rest', hahead, hended, hnl'⟩ := ih
      refine ⟨tok', rest', ?_, hended, hnl'⟩
      rw [← hahead]
      simp [ahead, hnewline]

/-! ### Strengths -/

theorem strength_of_binaryOp {op : BinaryOp} (h : tok.kind.binaryOp? = some op) :
    tok.kind.strength = op.strength := by
  simp [TokenKind.strength, h]

/-- Only operators, names and opening brackets bind what stands before them. -/
theorem not_binding (h : tok.kind.strength ≤ Strength.lowest) :
    tok.kind.binaryOp? = none ∧ tok.kind ≠ .ident ∧ tok.kind ≠ .lbracket := by
  revert h
  cases tok.kind <;>
    simp [TokenKind.strength, TokenKind.binaryOp?, BinaryOp.strength, Strength.lowest,
      Strength.send, Strength.index]

/-- Everything else binds nothing. -/
theorem strength_of_other (hop : tok.kind.binaryOp? = none) (hname : tok.kind ≠ .ident)
    (hopen : tok.kind ≠ .lbracket) : tok.kind.strength = Strength.lowest := by
  unfold TokenKind.strength
  rw [hop]
  dsimp only
  split
  · contradiction
  · contradiction
  · rfl

namespace ParseState

theorem Collector.closed?_frame (g : Collector) (items : List Expr) (last : Option Expr) :
    (g.frame items).closed? last = some (g.result (items ++ last.toList)) := by
  cases g <;> rfl

/-! ### Runs -/

/-- The state after more events. -/
def reported (s : ParseState) (events : List Event) : ParseState :=
  { s with events := s.events ++ events }

@[simp] theorem reported_nil (s : ParseState) : s.reported [] = s := by
  simp [reported]

@[simp] theorem reported_reported (s : ParseState) (events more : List Event) :
    (s.reported events).reported more = s.reported (events ++ more) := by
  simp [reported]

/-- Line ends between brackets make no difference to a run. -/
theorem foldl_ahead (hn : t.inBrackets = nested) (toks : List Token) :
    (ahead nested toks).foldl (step literal) t = toks.foldl (step literal) t := by
  subst hn
  induction toks with
  | nil => cases t.inBrackets <;> rfl
  | cons tok rest ih =>
    cases hnl : tok.isNewline && t.inBrackets with
    | false =>
      have hahead : ahead t.inBrackets (tok :: rest) = tok :: rest := by
        cases hin : t.inBrackets <;> simp_all [ahead]
      rw [hahead]
    | true =>
      obtain ⟨hnewline, hin⟩ := Bool.and_eq_true_iff.mp hnl
      have hahead : ahead t.inBrackets (tok :: rest) = ahead t.inBrackets rest := by
        simp [ahead, hin, hnewline]
      have hstep : t.step literal tok = t := by
        unfold step
        split
        · rfl
        · rw [if_pos hnl]
      rw [hahead, ih, List.foldl_cons, hstep]

theorem step_begin (hs : t.stage = .start) (hnl : (tok.isNewline && t.inBrackets) = false) :
    t.step literal tok = t.begin literal tok := by
  simp [step, hs, hnl]

/-- What a token finds complete is all that counts for it, not how it came to be. -/
theorem finish_congr {s₁ s₂ : ParseState} {e₁ e₂ : Expr} (hdone : s₁.done = s₂.done)
    (hevents : s₁.events = s₂.events)
    (hred : reduce Strength.lowest s₁.stack e₁ = reduce Strength.lowest s₂.stack e₂) :
    s₁.finish e₁ tok = s₂.finish e₂ tok := by
  obtain ⟨stack₁, stage₁, done₁, events₁⟩ := s₁
  obtain ⟨stack₂, stage₂, done₂, events₂⟩ := s₂
  obtain rfl : done₁ = done₂ := hdone
  obtain rfl : events₁ = events₂ := hevents
  obtain ⟨own, e, hown⟩ : ∃ own e, reduce Strength.lowest stack₁ e₁ = (own, e) := ⟨_, _, rfl⟩
  have hown' : reduce Strength.lowest stack₂ e₂ = (own, e) := hred ▸ hown
  cases own with
  | nil => simp only [finish, hown, hown']
  | cons top rest =>
    obtain ⟨whole, hwhole⟩ := closed?_of_isBracket (isBracket_of_reduce hown) e
    rw [finish_top hown, finish_top hown', close_eq rfl hwhole, close_eq rfl hwhole]
    rfl

theorem extend_congr {s₁ s₂ : ParseState} {e₁ e₂ : Expr} (hdone : s₁.done = s₂.done)
    (hevents : s₁.events = s₂.events)
    (hred : reduce tok.kind.strength s₁.stack e₁ = reduce tok.kind.strength s₂.stack e₂) :
    s₁.extend e₁ tok = s₂.extend e₂ tok := by
  obtain ⟨stack₁, stage₁, done₁, events₁⟩ := s₁
  obtain ⟨stack₂, stage₂, done₂, events₂⟩ := s₂
  obtain rfl : done₁ = done₂ := hdone
  obtain rfl : events₁ = events₂ := hevents
  dsimp only at hred
  unfold extend
  split
  · next op hop =>
    rw [strength_of_binaryOp hop] at hred
    simp only [hred]
    rfl
  · next hop =>
    split
    · next hk =>
      have hk' : tok.kind.strength = Strength.send := by rw [hk]; rfl
      rw [hk'] at hred
      simp only [hred]
    · next hk =>
      have hk' : tok.kind.strength = Strength.index := by rw [hk]; rfl
      rw [hk'] at hred
      simp only [hred]
      rfl
    · next hname hopen =>
      exact finish_congr rfl rfl (strength_of_other hop hname hopen ▸ hred)

/-- Two states go on alike if the next token takes them to the same. -/
theorem foldl_first {s₁ s₂ : ParseState} (h : Ended toks) (h₁ : s₁.inBrackets = nested)
    (h₂ : s₂.inBrackets = nested)
    (hstep : ∀ tok, tok = first (ahead nested toks) → (tok.isNewline && nested) = false →
      s₁.step literal tok = s₂.step literal tok) :
    toks.foldl (step literal) s₁ = toks.foldl (step literal) s₂ := by
  obtain ⟨tok, rest, hahead, -, hnl⟩ := h.exists_ahead nested
  rw [← foldl_ahead h₁, ← foldl_ahead h₂]
  rw [hahead] at hstep ⊢
  rw [List.foldl_cons, List.foldl_cons, hstep tok rfl hnl]

theorem step_operand (hs : s.stage = .operand e) (hnl : (tok.isNewline && s.inBrackets) = false) :
    s.step literal tok = s.extend e tok := by
  simp [step, hs, hnl]

/-- An operator that the next token closes may be closed before it. -/
theorem foldl_closed {f : Frame} (h : Ended toks) (hf : f.isBracket = false)
    (hin : stack.any Frame.isBracket = nested)
    (hred : reduce (first (ahead nested toks)).kind.strength (f :: stack) c
      = reduce (first (ahead nested toks)).kind.strength stack e) :
    toks.foldl (step literal) (t.operand (f :: stack) c)
      = toks.foldl (step literal) (t.operand stack e) := by
  have h₁ : (t.operand (f :: stack) c).inBrackets = nested := by
    rw [← hin]
    simp [inBrackets, operand, hf]
  have h₂ : (t.operand stack e).inBrackets = nested := hin
  refine foldl_first h h₁ h₂ fun tok htok hnl => ?_
  rw [step_operand rfl (h₁ ▸ hnl), step_operand rfl (h₂ ▸ hnl)]
  exact extend_congr rfl rfl (htok ▸ hred)

/-- A name that no arguments follow is an operand. -/
theorem foldl_name {receiver : Option Expr} (h : Ended toks) (hin : t.inBrackets = nested)
    (hp : (first (ahead nested toks)).kind ≠ .lparen) :
    toks.foldl (step literal) { t with stage := .name receiver tok }
      = toks.foldl (step literal) (t.operand t.stack (Frame.message receiver tok false [])) := by
  refine foldl_first h hin hin fun next hnext hnl => ?_
  have hname : step literal { t with stage := .name receiver tok } next
      = extend { t with stage := .name receiver tok } (Frame.message receiver tok false []) next :=
    step_extend rfl (hin ▸ hnl) (hnext ▸ hp)
  have hoperand : step literal (t.operand t.stack (Frame.message receiver tok false [])) next
      = extend (t.operand t.stack (Frame.message receiver tok false []))
          (Frame.message receiver tok false []) next := step_operand rfl (hin ▸ hnl)
  rw [hname, hoperand]
  exact extend_congr rfl rfl rfl

/-! ### Readings that follow a run -/

/-- `Follows literal t toks next x`: if the reading `x` gives `a`, then the run over `toks` from
`t` goes on over what is left, from the state `next a`; if it fails, the run fails in the same
way. -/
def Follows {α : Type} (literal : Token → Traced Expr) (t : ParseState) (toks : List Token)
    (next : α → ParseState) (x : Reading α) : Prop :=
  ∀ r, x = some r →
    match r.result with
    | .ok (a, rest) => Ended rest ∧
        toks.foldl (step literal) t = rest.foldl (step literal) ((next a).reported r.events)
    | .error f => (toks.foldl (step literal) t).parsed = ⟨t.done, some f, t.events ++ r.events⟩

section Follows

variable {α β : Type} {next : α → ParseState} {next' : β → ParseState} {x : Reading α} {a : α}
variable {f : α × List Token → Reading β} {S : α × List Token → Prop} {failure : Failure}

theorem follows_none : Follows literal t toks next none := by
  rintro r ⟨⟩

theorem follows_done (h : Ended rest)
    (hrun : toks.foldl (step literal) t = rest.foldl (step literal) (next a)) :
    Follows literal t toks next (.done (a, rest)) := by
  rintro r ⟨⟩
  refine ⟨h, ?_⟩
  rw [hrun]
  exact congrArg (rest.foldl (step literal)) (reported_nil (next a)).symm

theorem follows_fail
    (hrun : (toks.foldl (step literal) t).parsed = ⟨t.done, some failure, t.events⟩) :
    Follows literal t toks next (.fail failure) := by
  rintro r ⟨⟩
  show _ = Parsed.mk t.done (some failure) (t.events ++ [])
  rw [List.append_nil]
  exact hrun

/-- A step that fails is a reading that fails. -/
theorem follows_fail_step (hstep : t.step literal tok = { s with stage := .failed failure })
    (hdone : s.done = t.done) (hevents : s.events = t.events) :
    Follows literal t (tok :: rest) next (.fail failure) := by
  refine follows_fail ?_
  rw [List.foldl_cons, foldl_of_failed (by rw [hstep]), hstep, ← hdone, ← hevents]
  rfl

/-- The run first gets from one state to another. -/
theorem Follows.of_run (h : Follows literal s rest next x)
    (hrun : toks.foldl (step literal) t = rest.foldl (step literal) s) (hdone : s.done = t.done)
    (hevents : s.events = t.events) : Follows literal t toks next x := by
  intro r hr
  have h := h r hr
  rw [hrun, ← hdone, ← hevents]
  exact h

theorem Follows.andThen (hx : Follows literal t toks next x) (hs : Gives S x)
    (hnext : ∀ a, (next a).done = t.done ∧ (next a).events = t.events)
    (hf : ∀ a rest events, Ended rest → S (a, rest) →
      Follows literal ((next a).reported events) rest (fun b => (next' b).reported events)
        (f (a, rest))) :
    Follows literal t toks next' (x.andThen f) := by
  intro r hr
  obtain ⟨u, rfl, h⟩ := Option.bind_eq_some_iff.mp hr
  have hu := hx u rfl
  cases hres : u.result with
  | error e =>
    rw [hres] at h hu
    cases h
    exact hu
  | ok res =>
    obtain ⟨a, rest⟩ := res
    rw [hres] at h hu
    obtain ⟨v, hv, rfl⟩ := Option.map_eq_some_iff.mp h
    obtain ⟨hended, hrun⟩ := hu
    have hthen := hf a rest u.events hended (hs u _ rfl hres) v hv
    obtain ⟨hdone, hevents⟩ := hnext a
    -- the events of the first reading come before those of the second
    rw [hrun]
    dsimp only
    cases hv : v.result with
    | error f =>
      rw [hv] at hthen
      rw [hthen, ← List.append_assoc, ← hevents, ← hdone]
      rfl
    | ok res' =>
      rw [hv] at hthen
      rw [hthen.2, reported_reported]
      exact ⟨hthen.1, rfl⟩

/-- A reading whose result becomes something else. -/
theorem Follows.map {g : α → β} (hx : Follows literal t toks next x) (hs : Gives S x)
    (hnext : ∀ a, (next a).done = t.done ∧ (next a).events = t.events)
    (hg : ∀ a rest events, Ended rest → S (a, rest) →
      rest.foldl (step literal) ((next a).reported events)
        = rest.foldl (step literal) ((next' (g a)).reported events)) :
    Follows literal t toks next' (x.andThen fun (a, rest) => .done (g a, rest)) :=
  hx.andThen hs hnext fun a rest events hended hS =>
    follows_done hended (hg a rest events hended hS)

end Follows

theorem Follows.of_ahead {α : Type} {next : α → ParseState} {x : Reading α}
    (h : Follows literal t (ahead nested toks) next x) (hin : t.inBrackets = nested) :
    Follows literal t toks next x :=
  h.of_run (foldl_ahead hin toks).symm rfl rfl

theorem Follows.step {α : Type} {next : α → ParseState} {x : Reading α}
    (h : Follows literal s rest next x) (hstep : t.step literal tok = s) (hdone : s.done = t.done)
    (hevents : s.events = t.events) : Follows literal t (tok :: rest) next x :=
  h.of_run (by rw [List.foldl_cons, hstep]) hdone hevents

/-! ### What binds an operand -/

theorem extend_operator {op : BinaryOp} (hop : tok.kind.binaryOp? = some op)
    (hred : reduce tok.kind.strength s.stack e = (s.stack, e)) :
    s.extend e tok =
      if op = .assign ∧ !e.isBareName then
        { s with stage := .failed (.unexpected
            ("'=' after " ++ e.render ++ " (can only assign to a name)") tok.place) }
      else s.push (.binary tok e op) := by
  rw [strength_of_binaryOp hop] at hred
  unfold extend
  rw [hop]
  simp only [hred]
  rfl

theorem extend_name (hk : tok.kind = .ident)
    (hred : reduce tok.kind.strength s.stack e = (s.stack, e)) :
    s.extend e tok = { s with stage := .name (some e) tok } := by
  have hs : tok.kind.strength = Strength.send := by rw [hk]; rfl
  rw [hs] at hred
  unfold extend
  simp only [hk, TokenKind.binaryOp?, hred]

theorem extend_bracket (hk : tok.kind = .lbracket)
    (hred : reduce tok.kind.strength s.stack e = (s.stack, e)) :
    s.extend e tok = s.push (.index tok e) := by
  have hs : tok.kind.strength = Strength.index := by rw [hk]; rfl
  rw [hs] at hred
  unfold extend
  simp only [hk, TokenKind.binaryOp?, hred]

/-! ### What an expression stands on -/

/-- The operators on the stack wait for whatever binds more tightly than `k`. -/
structure Waits (k : Strength) (stack : List Frame) : Prop where
  lowest_le : Strength.lowest ≤ k
  keeps : ∀ j, k < j → ∀ e, reduce j stack e = (stack, e)

theorem waits_base (hb : Base stack) : Waits Strength.lowest stack :=
  ⟨Nat.le_refl _, fun j _ e => reduce_base hb j e⟩

theorem waits_unary (op : UnaryOp) (stack : List Frame) :
    Waits Strength.unary (.unary tok op :: stack) := by
  refine ⟨by decide, fun j hj e => ?_⟩
  rw [reduce, if_neg (Nat.not_le.mpr hj)]

theorem waits_binary (left : Expr) (op : BinaryOp) (stack : List Frame) :
    Waits op.rightStrength (.binary tok left op :: stack) := by
  refine ⟨op.lowest_le_rightStrength, fun j hj e => ?_⟩
  rw [reduce, if_neg (Nat.not_le.mpr hj)]

/-- The token is to begin an operand: it ends neither the program nor a bracket, and belongs to no
sign. -/
structure Awaits (t : ParseState) (tok : Token) : Prop where
  stage : t.stage = .start
  idle : t.stack = [] → tok.kind ≠ .terminator ∧ tok.kind ≠ .eof
  empty : ∀ top rest, t.stack = top :: rest → top.mayBeEmpty = true → tok.kind ≠ top.closer
  sign : tok.kind = .int → ∀ sign rest, t.stack ≠ .unary sign .negate :: rest

theorem awaits_push {f : Frame} (hf : f.mayBeEmpty = false)
    (hsign : tok.kind = .int → ∀ sign, f ≠ .unary sign .negate) : Awaits (t.push f) tok where
  stage := rfl
  idle h := absurd h (List.cons_ne_nil _ _)
  empty top rest h hempty := by
    cases h
    rw [hf] at hempty
    cases hempty
  sign hk sign rest h := hsign hk sign (List.cons.inj h).1

theorem reject_eq (s : ParseState) (tok : Token) (more : String) :
    s.reject tok more = { s with stage := .failed (tok.refusal more) } := by
  unfold reject Token.refusal
  cases tok.fault <;> rfl

/-- A token that begins no operand is refused where one is to begin. -/
theorem begin_refused (h : Awaits t tok) (hk : tok.kind ∉ TokenKind.openers) :
    t.begin literal tok = { t with stage := .failed (tok.refusal "") } := by
  rw [← reject_eq]
  unfold begin
  split
  case h_8 =>
    cases hstack : t.stack with
    | nil =>
      obtain ⟨ht, he⟩ := h.idle hstack
      exact if_neg fun hend => hend.elim ht he
    | cons top rest => exact if_neg fun hclose => h.empty top rest hstack hclose.1 hclose.2
  -- the other cases are the kinds that begin an operand
  all_goals simp_all [TokenKind.openers]

/-- The end of a bracket, behind its last expression. -/
theorem follows_bracketEnd {α : Type} {a : α} {next : α → ParseState} {top : Frame} {whole : Expr}
    (h : Ended toks) (htop : top.isBracket = true) (hwhole : top.closed? (some e) = some whole)
    (hbind : (first (ahead true toks)).kind.strength ≤ Strength.lowest)
    (hcomma : (first (ahead true toks)).kind = .comma → top.add? e = none)
    (hnext : next a = t.operand below whole) :
    Follows literal (t.operand (top :: below) e) toks next (bracketEnd top.closer a toks) := by
  have hin : (t.operand (top :: below) e).inBrackets = true := by
    simp [inBrackets, operand, htop]
  obtain ⟨tok, rest, hahead, hended, hnl⟩ := h.exists_ahead true
  refine Follows.of_ahead ?_ hin
  unfold bracketEnd
  rw [hahead, first_cons] at hbind hcomma
  rw [hahead]
  obtain ⟨hop, hname, hopen⟩ := not_binding hbind
  have hred : reduce Strength.lowest (t.operand (top :: below) e).stack e = (top :: below, e) :=
    reduce_base (base_cons htop below) _ e
  have hadd : (if tok.kind = .comma then top.add? e else none) = none := by
    split
    · next hk => exact hcomma hk
    · rfl
  -- the token binds nothing and adds no item, so it closes the bracket or is refused
  have hstep : (t.operand (top :: below) e).step literal tok =
      if tok.kind = top.closer then t.operand below whole
      else { t with stack := top :: below, stage := .failed (tok.refusal
        (", expected '" ++ top.closer.name ++ "'")) } := by
    rw [step_operand rfl (hin ▸ hnl), extend_eq_finish hop hname hopen, finish_top hred, hadd,
      close_eq rfl hwhole, reject_eq]
    rfl
  show Follows _ _ _ _ (if tok.kind = top.closer then _ else _)
  split
  · next hk =>
    rw [if_pos hk] at hstep
    refine follows_done (hended.tail ?_) ?_
    · rw [hk]
      exact (eof_ne_closer top).symm
    · rw [List.foldl_cons, hstep, hnext]
      rfl
  · next hk =>
    rw [if_neg hk] at hstep
    exact follows_fail_step hstep rfl rfl

end ParseState

end TextScript
