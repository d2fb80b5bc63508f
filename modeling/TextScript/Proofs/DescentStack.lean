/-
TextScript/Proofs/DescentStack.lean

The descent and the stack come to the same.

Each function of the descent follows the run of the parser if those that it calls do (`Agrees`),
and by induction on the budget all of them do (`agreement`).  A source read by descent is then the
source read by the parser, since the walks over literals are the scans of the lexer, and the code
in a literal is a source with a smaller budget.
-/
import TextScript.Proofs.Following

namespace TextScript

open Budgeted Descent

variable {literal : Token → Traced Expr} {s t : ParseState} {tok : Token} {e : Expr}
variable {toks rest : List Token} {below : List Frame} {nested : Bool} {k : Strength}
variable {limit : Int} {p : Position} {src : List Char}

/-! ### Functions of the descent -/

open ParseState

/-- How literals are read when embedded code is read by the language itself. -/
def ParseOptions.literals (o : ParseOptions) : Token → Traced Expr :=
  Interpolation.read (some (Source.reader o.inner)) o.limit

/-- With a budget of `n`, each function of the descent comes to what the parser comes to. -/
structure Agrees (n : Nat) (o : ParseOptions) : Prop where
  source : ∀ p src, ∀ parsed ∈ Descent.source n o p src, parsed = Source.parseAt o p src
  program : ∀ toks (t : ParseState), Ended toks → t.stage = .start → t.stack = [] →
    ∀ parsed ∈ Descent.program n o toks, (toks.foldl (step o.literals) t).parsed
      = ⟨t.done ++ parsed.program, parsed.failure, t.events ++ parsed.events⟩
  expression : ∀ nested k toks (t : ParseState), Ended toks → t.inBrackets = nested →
    Awaits t (first (ahead nested toks)) → Waits k t.stack →
    Follows o.literals t toks (t.operand t.stack) (Descent.expression n o nested k toks)
  operand : ∀ nested toks (t : ParseState), Ended toks → t.inBrackets = nested →
    Awaits t (first (ahead nested toks)) →
    Follows o.literals t toks (t.operand t.stack) (Descent.operand n o nested toks)
  onward : ∀ nested k e toks (t : ParseState), Ended toks → t.inBrackets = nested →
    Waits k t.stack →
    Follows o.literals (t.operand t.stack e) toks (t.operand t.stack)
      (Descent.onward n o nested k e toks)
  turn : ∀ nested e toks (t : ParseState), Ended toks → t.inBrackets = nested →
    Strength.lowest < (first (ahead nested toks)).kind.strength →
    reduce (first (ahead nested toks)).kind.strength t.stack e = (t.stack, e) →
    Follows o.literals (t.operand t.stack e) toks (t.operand t.stack)
      (Descent.turn n o nested e toks)
  message : ∀ nested receiver tok toks (t : ParseState), Ended toks → t.inBrackets = nested →
    Follows o.literals { t with stage := .name receiver tok } toks (t.operand t.stack)
      (Descent.message n o nested receiver tok toks)
  items : ∀ (g : Collector) items toks (t : ParseState) below, Ended toks → t.stage = .start →
    t.stack = g.frame items :: below →
    Follows o.literals t toks (fun es => t.operand below (g.result (items ++ es)))
      (Descent.items n o g.closer toks)
  parts : ∀ tok p cs,
    Only (Interpolation.readParts (some (Source.reader o.inner)) o.limit tok p cs)
      (Descent.parts n o tok p cs)
  embedded : ∀ tok code p,
    Only (Interpolation.readCode (some (Source.reader o.inner)) tok code p)
      (Descent.embedded n o tok code p)

variable {o : ParseOptions} {n : Nat}

/-- An expression leaves what binds no more tightly than what waits for it. -/
theorem onward_stops (n : Nat) (e : Expr) (toks : List Token) :
    Gives (fun r => (first (ahead nested r.2)).kind.strength ≤ k) (onward n o nested k e toks) := by
  induction n generalizing e toks with
  | zero => rw [onward]; exact gives_none
  | succ n ih =>
    rw [onward]
    split
    · exact (gives_trivial _).andThen fun r _ => ih r.1 r.2
    · next hk => exact gives_done (Nat.not_lt.mp hk)

theorem expression_stops (n : Nat) (toks : List Token) :
    Gives (fun r => (first (ahead nested r.2)).kind.strength ≤ k)
      (expression n o nested k toks) := by
  cases n with
  | zero => rw [expression]; exact gives_none
  | succ n =>
    rw [expression]
    exact (gives_trivial _).andThen fun r _ => onward_stops n r.1 r.2

theorem Agrees.expression_succ (h : Agrees n o) (hended : Ended toks) (hin : t.inBrackets = nested)
    (ha : Awaits t (first (ahead nested toks))) (hw : Waits k t.stack) :
    Follows o.literals t toks (t.operand t.stack) (Descent.expression (n + 1) o nested k toks) := by
  rw [Descent.expression]
  refine (h.operand nested toks t hended hin ha).andThen (gives_trivial _) (fun _ => ⟨rfl, rfl⟩) ?_
  intro e rest events hrest _
  exact h.onward nested k e rest (t.reported events) hrest hin hw

theorem Agrees.onward_succ (h : Agrees n o) (e : Expr) (hended : Ended toks)
    (hin : t.inBrackets = nested) (hw : Waits k t.stack) :
    Follows o.literals (t.operand t.stack e) toks (t.operand t.stack)
      (Descent.onward (n + 1) o nested k e toks) := by
  rw [Descent.onward]
  split
  · next hlt =>
    have hturn := h.turn nested e toks t hended hin (Nat.lt_of_le_of_lt hw.lowest_le hlt)
      (hw.keeps _ hlt e)
    refine hturn.andThen (gives_trivial _) (fun _ => ⟨rfl, rfl⟩) fun e' rest events hrest _ => ?_
    exact h.onward nested k e' rest (t.reported events) hrest hin hw
  · exact follows_done hended rfl

/-- What binds the front of the tokens is not the end of input. -/
theorem Ended.rest_of_binding (h : Ended (tok :: rest)) (hk : Strength.lowest < tok.kind.strength) :
    Ended rest := by
  refine h.tail fun he => ?_
  rw [he] at hk
  exact absurd hk (by decide)

/-- An operator's right operand, once it is read, is closed around by whatever comes next. -/
theorem Agrees.right_operand (h : Agrees n o) {f : Frame} {g : Expr → Expr} (hended : Ended toks)
    (hin : t.inBrackets = nested) (hf : f.isBracket = false ∧ f.mayBeEmpty = false)
    (hsign : (first (ahead nested toks)).kind = .int → ∀ sign, f ≠ .unary sign .negate)
    (hw : Waits k (f :: t.stack))
    (hred : ∀ j ≤ k, ∀ e, reduce j (f :: t.stack) e = reduce j t.stack (g e)) :
    Follows o.literals (t.push f) toks (t.operand t.stack)
      ((Descent.expression n o nested k toks).andThen fun (e, rest) => .done (g e, rest)) := by
  have hpush : (t.push f).inBrackets = nested := by
    rw [← hin]
    simp [inBrackets, push, hf.1]
  have hexpr := h.expression nested k toks (t.push f) hended hpush (awaits_push hf.2 hsign) hw
  refine hexpr.map (expression_stops n toks) (fun _ => ⟨rfl, rfl⟩) fun e rest events hrest hk => ?_
  exact foldl_closed (t := t.reported events) hrest hf.1 hin (hred _ hk e)

/-- What is between brackets that hold one expression. -/
theorem Agrees.bracket (h : Agrees n o) {f : Frame} {g : Expr → Expr} (hended : Ended toks)
    (hf : f.isBracket = true ∧ f.mayBeEmpty = false ∧ ∀ e, f.add? e = none)
    (hwhole : ∀ e, f.closed? (some e) = some (g e)) :
    Follows o.literals (t.push f) toks (t.operand t.stack)
      ((Descent.expression n o true Strength.lowest toks).andThen fun (e, rest) =>
        bracketEnd f.closer (g e) rest) := by
  have hpush : (t.push f).inBrackets = true := by
    simp [inBrackets, push, hf.1]
  have hsign : (first (ahead true toks)).kind = .int → ∀ sign, f ≠ .unary sign .negate := by
    rintro - sign rfl
    cases hf.1
  have hexpr := h.expression true Strength.lowest toks (t.push f) hended hpush
    (awaits_push hf.2.1 hsign) (waits_base (base_cons hf.1 _))
  refine hexpr.andThen (expression_stops n toks) (fun _ => ⟨rfl, rfl⟩) ?_
  intro e rest events hrest hk
  exact follows_bracketEnd (t := t.reported events) hrest hf.1 (hwhole e) hk (fun _ => hf.2.2 e) rfl

theorem Agrees.message_succ (h : Agrees n o) (receiver : Option Expr) (tok : Token)
    (hended : Ended toks) (hin : t.inBrackets = nested) :
    Follows o.literals { t with stage := .name receiver tok } toks (t.operand t.stack)
      (Descent.message (n + 1) o nested receiver tok toks) := by
  rw [Descent.message]
  dsimp only
  split
  · next hk =>
    obtain ⟨opening, rest, hahead, hrest, hnl⟩ := hended.exists_ahead nested
    rw [hahead, first_cons] at hk
    have hstep : step o.literals { t with stage := .name receiver tok } opening
        = t.push (.args receiver tok []) := by
      simp [ParseState.step, push, hk, isNewline_eq_false]
    have hitems := h.items (.args receiver tok) [] rest (t.push (.args receiver tok [])) t.stack
      (hrest.tail (by simp [hk])) rfl rfl
    refine Follows.of_ahead ?_ hin
    rw [hahead]
    refine (hitems.step hstep rfl rfl).map (gives_trivial _) (fun _ => ⟨rfl, rfl⟩) ?_
    intro es rest events _ _
    rfl
  · next hk => exact follows_done hended (foldl_name hended hin hk)

theorem Agrees.turn_succ (h : Agrees n o) (left : Expr) (hended : Ended toks)
    (hin : t.inBrackets = nested)
    (hbind : Strength.lowest < (first (ahead nested toks)).kind.strength)
    (hred : reduce (first (ahead nested toks)).kind.strength t.stack left = (t.stack, left)) :
    Follows o.literals (t.operand t.stack left) toks (t.operand t.stack)
      (Descent.turn (n + 1) o nested left toks) := by
  rw [Descent.turn]
  obtain ⟨tok, rest, hahead, hrest, hnl⟩ := hended.exists_ahead nested
  refine Follows.of_ahead ?_ hin
  rw [hahead, first_cons] at hbind hred
  have hafter := hrest.rest_of_binding hbind
  have hstep : (t.operand t.stack left).step o.literals tok
      = (t.operand t.stack left).extend left tok := step_operand rfl (hin ▸ hnl)
  simp only [hahead, first_cons, List.tail_cons]
  split
  · next op hop =>
    -- nothing on the stack binds as strongly, so the operand is that of the operator as it is
    rw [extend_operator (s := t.operand t.stack left) hop hred] at hstep
    split
    · next hassign =>
      rw [if_pos hassign] at hstep
      exact follows_fail_step hstep rfl rfl
    · next hassign =>
      rw [if_neg hassign] at hstep
      refine Follows.step ?_ hstep rfl rfl
      refine h.right_operand hafter hin ⟨rfl, rfl⟩ (fun _ _ => Frame.noConfusion)
        (waits_binary left op _) fun j hj e => ?_
      rw [reduce, if_pos hj]
  · next hop =>
    split
    · next hk =>
      rw [extend_name (s := t.operand t.stack left) hk hred] at hstep
      exact (h.message nested (some left) tok rest t hafter hin).step hstep rfl rfl
    · next hk =>
      rw [extend_bracket (s := t.operand t.stack left) hk hred] at hstep
      exact (h.bracket hafter ⟨rfl, rfl, fun _ => rfl⟩ fun _ => rfl).step hstep rfl rfl
    · next hname hopen =>
      exact absurd hbind (by rw [strength_of_other hop hname hopen]; decide)

/-- What does not end a bracket may begin one more item of it. -/
theorem awaits_item (g : Collector) {items : List Expr} (hs : t.stage = .start)
    (hstack : t.stack = g.frame items :: below) (hk : tok.kind ≠ g.closer) : Awaits t tok where
  stage := hs
  idle he := by
    rw [hstack] at he
    cases he
  empty top rest he _ := by
    rw [hstack] at he
    cases he
    rwa [g.closer_frame]
  sign _ sign rest he := by
    have hbracket := g.isBracket_frame items
    rw [hstack] at he
    rw [(List.cons.inj he).1] at hbracket
    cases hbracket

/-- A bracket ends where one more item could begin. -/
theorem step_closer (g : Collector) {items : List Expr} (hs : t.stage = .start)
    (hstack : t.stack = g.frame items :: below) (hnl : (tok.isNewline && t.inBrackets) = false)
    (hk : tok.kind = g.closer) : t.step literal tok = t.operand below (g.result items) := by
  obtain ⟨hopen, hterm, heof⟩ := g.closer_ends
  rw [← hk] at hopen hterm heof
  rw [step_begin hs hnl, begin_closing hopen hterm heof, hstack]
  dsimp only
  rw [if_pos ⟨g.mayBeEmpty_frame items, hk.trans (g.closer_frame items).symm⟩,
    close_eq hstack (g.closed?_frame items .none), Option.toList_none, List.append_nil]

/-- A comma adds the item to the bracket, and the next one is read in its place. -/
theorem step_comma (g : Collector) {items : List Expr} (hstack : t.stack = g.frame items :: below)
    (hk : tok.kind = .comma) :
    (t.operand t.stack e).step literal tok
      = { t with stack := g.frame (items ++ [e]) :: below, stage := .start } := by
  have hred : reduce Strength.lowest (t.operand t.stack e).stack e =
      (g.frame items :: below, e) := by
    show reduce Strength.lowest t.stack e = _
    rw [hstack]
    exact reduce_base (base_cons (g.isBracket_frame items) below) _ e
  rw [step_ender rfl (by simp [hk, TokenKind.enders]), finish_top hred, if_pos hk, g.add?_frame]
  rfl

theorem Agrees.items_succ (h : Agrees n o) (g : Collector) (items : List Expr) (hended : Ended toks)
    (hs : t.stage = .start) (hstack : t.stack = g.frame items :: below) :
    Follows o.literals t toks (fun es => t.operand below (g.result (items ++ es)))
      (Descent.items (n + 1) o g.closer toks) := by
  have hbracket := g.isBracket_frame items
  have hin : t.inBrackets = true := by simp [inBrackets, hstack, hbracket]
  rw [Descent.items]
  dsimp only
  -- the bracket is closed at once, or an item is read; behind the item stands a comma and there
  -- are more, or the bracket must be closed
  split
  · next hk =>
    obtain ⟨tok, rest, hahead, hrest, hnl⟩ := hended.exists_ahead true
    refine Follows.of_ahead ?_ hin
    rw [hahead, first_cons] at hk
    rw [hahead, List.tail_cons]
    refine follows_done (hrest.tail (hk ▸ g.closer_ends.2.2)) ?_
    rw [List.foldl_cons, step_closer g hs hstack (hin ▸ hnl) hk, List.append_nil]
  · next hk =>
    have hwaits : Waits Strength.lowest t.stack := by
      rw [hstack]
      exact waits_base (base_cons hbracket below)
    have hexpr :=
      h.expression true Strength.lowest toks t hended hin (awaits_item g hs hstack hk) hwaits
    refine hexpr.andThen (expression_stops n toks) (fun _ => ⟨rfl, rfl⟩) ?_
    intro e rest events hrest hstop
    split
    · next hcomma =>
      obtain ⟨comma, more, hahead, hmore, hnl⟩ := hrest.exists_ahead true
      rw [hahead, first_cons] at hcomma
      rw [hahead, List.tail_cons]
      have hstep : ((t.operand t.stack e).reported events).step o.literals comma
          = { t.reported events with stack := g.frame (items ++ [e]) :: below, stage := .start } :=
        step_comma (t := t.reported events) g hstack hcomma
      have hitems := h.items g (items ++ [e]) more
        { t.reported events with stack := g.frame (items ++ [e]) :: below, stage := .start } below
        (hmore.tail (by simp [hcomma])) rfl rfl
      refine Follows.of_ahead ?_ hin
      rw [hahead]
      refine (hitems.step hstep rfl rfl).map (gives_trivial _) (fun _ => ⟨rfl, rfl⟩) ?_
      intro es rest' events' _ _
      rw [List.append_assoc]
      rfl
    · next hcomma =>
      have hwhole : (g.frame items).closed? (some e) = some (g.result (items ++ [e])) :=
        g.closed?_frame items (some e)
      show Follows o.literals ((t.reported events).operand t.stack e) rest _
        (bracketEnd g.closer [e] rest)
      rw [← g.closer_frame items, hstack]
      exact follows_bracketEnd hrest hbracket hwhole hstop (fun hk => absurd hk hcomma) rfl

/-- A number, whether it takes the sign before it off the stack or not. -/
theorem follows_integer {sign : Option Token} (value : Int64 → Expr) (hended : Ended rest)
    (hstep : t.step literal tok = t.beginInteger tok)
    (hvalue : ∀ n, integer? tok.lit = some n → t.beginInteger tok = t.operand below (value n) ∧
      integer sign tok = .done (value n)) :
    Follows literal t (tok :: rest) (t.operand below)
      ((integer sign tok).andThen fun e => .done (e, rest)) := by
  cases hn : integer? tok.lit with
  | none =>
    have hfail : t.beginInteger tok = { t with stage := .failed (.unexpected
        ("integer \"" ++ tok.lit ++ "\" (out of range)") tok.place) } := by
      rw [beginInteger, hn]
      rfl
    rw [integer, hn, fail_andThen]
    exact follows_fail_step (hstep.trans hfail) rfl rfl
  | some n =>
    obtain ⟨hbegin, hint⟩ := hvalue n hn
    rw [hint, done_andThen]
    exact follows_done hended (by rw [List.foldl_cons, hstep, hbegin])

/-- A number with nothing before it that it could belong to. -/
theorem follows_number (hended : Ended rest) (hk : tok.kind = .int) (ha : Awaits t tok)
    (hstep : t.step literal tok = t.beginInteger tok) :
    Follows literal t (tok :: rest) (t.operand t.stack)
      ((integer none tok).andThen fun e => .done (e, rest)) := by
  refine follows_integer (.int tok) hended hstep fun n hn => ⟨?_, by rw [integer, hn]⟩
  rw [beginInteger, hn]
  dsimp only
  split
  · next sign below hstack => exact absurd hstack (ha.sign hk sign below)
  · rfl

/-- A number behind a minus sign takes that back from the stack. -/
theorem follows_negated (hended : Ended toks) (hin : t.inBrackets = nested)
    (hint : (first (ahead nested toks)).kind = .int) :
    Follows literal (t.push (.unary tok .negate)) toks (t.operand t.stack)
      ((integer (some tok) (first (ahead nested toks))).andThen fun e =>
        .done (e, (ahead nested toks).tail)) := by
  obtain ⟨num, rest, hahead, hrest, hnl⟩ := hended.exists_ahead nested
  have hpush : (t.push (.unary tok .negate)).inBrackets = nested := by
    rw [← hin]
    simp [inBrackets, push, Frame.isBracket]
  rw [hahead, first_cons] at hint
  refine Follows.of_ahead ?_ hpush
  rw [hahead, first_cons, List.tail_cons]
  refine follows_integer (negated tok num) (hrest.tail (by simp [hint])) ?_ fun n hn => ?_
  · rw [step_begin rfl (hpush ▸ hnl)]
    simp only [begin, hint]
  · refine ⟨?_, by rw [integer, hn]⟩
    rw [beginInteger, hn]
    rfl

/-- The parts of a literal, put together. -/
theorem andThen_assemble (tok : Token) (x : Traced (List Expr)) :
    andThen (some x) (assemble tok) = some (x.andThen fun parts =>
      match parts with
      | [whole] => .ok whole
      | parts => do
        .report (.literalRead tok.place (parts.length / 2))
        return .concat tok parts) := by
  obtain ⟨result, events⟩ := x
  cases result with
  | error f => rfl
  | ok parts =>
    rcases parts with - | ⟨whole, - | ⟨e, more⟩⟩
    · rfl
    · rfl
    · rfl

theorem follows_literal {x : Traced Expr} (hended : Ended rest) (hs : t.stage = .start)
    (hk : tok.kind = .text) (hx : literal tok = x) :
    Follows literal t (tok :: rest) (t.operand t.stack)
      ((blame tok.blame (some x)).andThen fun e => .done (e, rest)) := by
  have hstep : t.step literal tok = t.beginText literal tok := by
    rw [step_start hs (by simp [hk]), begin]
    simp only [hk]
  obtain ⟨result, events⟩ := x
  cases result with
  | ok e =>
    have hbegin : t.beginText literal tok = (t.operand t.stack e).reported events := by
      rw [beginText, hx]
      rfl
    rintro r ⟨⟩
    refine ⟨hended, ?_⟩
    rw [List.foldl_cons, hstep, hbegin]
    exact congrArg (fun more => rest.foldl (step literal) ((t.operand t.stack e).reported more))
      (List.append_nil events).symm
  | error f =>
    have hbegin : t.beginText literal tok
        = { t.reported events with stage := .failed (tok.blame f) } := by
      rw [beginText, hx]
      cases f <;> rfl
    rintro r ⟨⟩
    show (List.foldl (step literal) t (tok :: rest)).parsed
      = ⟨t.done, some (tok.blame f), t.events ++ events⟩
    rw [List.foldl_cons, hstep, foldl_of_failed (by rw [hbegin]), hbegin]
    rfl

theorem Agrees.operand_succ (h : Agrees n o) (hended : Ended toks) (hin : t.inBrackets = nested)
    (ha : Awaits t (first (ahead nested toks))) :
    Follows o.literals t toks (t.operand t.stack) (Descent.operand (n + 1) o nested toks) := by
  rw [Descent.operand]
  obtain ⟨tok, rest, hahead, hrest, hnl⟩ := hended.exists_ahead nested
  refine Follows.of_ahead ?_ hin
  rw [hahead, first_cons] at ha
  simp only [hahead, first_cons, List.tail_cons]
  have hbegin : t.step o.literals tok = t.begin o.literals tok := step_begin ha.stage (hin ▸ hnl)
  have hafter {kind : TokenKind} (hk : tok.kind = kind) (hne : kind ≠ .eof) : Ended rest :=
    hrest.tail (hk ▸ hne)
  -- one case for each kind of token that begins an operand: the stack machine's step on that
  -- token, then what the descent calls
  split
  · next hk =>
    have hstep : t.begin o.literals tok = { t with stage := .name none tok } := by
      simp only [begin, hk]
    exact (h.message nested none tok rest t (hafter hk (by decide)) hin).step
      (hbegin.trans hstep) rfl rfl
  · next hk =>
    have hstep : t.begin o.literals tok = t.beginInteger tok := by simp only [begin, hk]
    exact follows_number (hafter hk (by decide)) hk ha (hbegin.trans hstep)
  · next hk =>
    cases hparts : Descent.parts n o tok tok.place.next tok.lit.toList with
    | none => exact follows_none
    | some x =>
      have hx := h.parts tok tok.place.next tok.lit.toList x hparts
      rw [andThen_assemble]
      refine follows_literal (hafter hk (by decide)) ha.stage hk ?_
      rw [hx]
      rfl
  · next hk =>
    have hstep : t.begin o.literals tok = t.push (.unary tok .negate) := by simp only [begin, hk]
    have hrest := hafter hk (by decide)
    -- a numeral right behind the sign takes it in; any other operand is read under the sign
    split
    · next hint =>
      exact (follows_negated hrest hin hint).step (hbegin.trans hstep) rfl rfl
    · next hint =>
      refine (h.right_operand hrest hin ⟨rfl, rfl⟩ (fun hk _ _ => hint hk) (waits_unary .negate _)
        fun j hj e => ?_).step (hbegin.trans hstep) rfl rfl
      rw [reduce, if_pos hj]
  · next hk =>
    have hstep : t.begin o.literals tok = t.push (.unary tok .not) := by simp only [begin, hk]
    refine (h.right_operand (hafter hk (by decide)) hin ⟨rfl, rfl⟩ (fun _ _ h => by cases h)
      (waits_unary .not _) fun j hj e => ?_).step (hbegin.trans hstep) rfl rfl
    rw [reduce, if_pos hj]
  · next hk =>
    have hstep : t.begin o.literals tok = t.push .group := by simp only [begin, hk]
    exact (h.bracket (f := .group) (g := id) (hafter hk (by decide)) ⟨rfl, rfl, fun _ => rfl⟩
      fun _ => rfl).step (hbegin.trans hstep) rfl rfl
  · next hk =>
    have hstep : t.begin o.literals tok = t.push (.list tok []) := by simp only [begin, hk]
    have hitems := h.items (.list tok) [] rest (t.push (.list tok [])) t.stack
      (hafter hk (by decide)) rfl rfl
    refine (hitems.step (hbegin.trans hstep) rfl rfl).map (gives_trivial _) (fun _ => ⟨rfl, rfl⟩) ?_
    intro es rest events _ _
    rfl
  · next hident hint htext hminus hbang hlparen hlbracket =>
    have hopen : tok.kind ∉ TokenKind.openers := by
      simp only [TokenKind.openers, List.mem_cons, List.not_mem_nil, or_false, not_or]
      exact ⟨hident, hint, htext, hminus, hbang, hlparen, hlbracket⟩
    exact follows_fail_step (hbegin.trans (begin_refused ha hopen)) rfl rfl

/-! ### Literals and sources -/

theorem Agrees.embedded_succ (hinner : Agrees n o.inner) (tok : Token) (code : String)
    (p : Position) :
    Only (Interpolation.readCode (some (Source.reader o.inner)) tok code p)
      (Descent.embedded (n + 1) o tok code p) := by
  rw [Descent.embedded]
  unfold Interpolation.readCode
  split
  · exact only_some _
  · refine Only.andThen (only_some _) fun _ x hx => ?_
    obtain ⟨parsed, hparsed, rfl⟩ := Option.map_eq_some_iff.mp hx
    rw [hinner.source p code.toList parsed hparsed]
    rfl

theorem Agrees.parts_succ (h : Agrees n o) (tok : Token) (p : Position) (cs : List Char) :
    Only (Interpolation.readParts (some (Source.reader o.inner)) o.limit tok p cs)
      (Descent.parts (n + 1) o tok p cs) := by
  obtain ⟨seg, rest, rfl, hsize, rfl | ⟨cs, rfl⟩⟩ := exists_front cs
  · rw [List.append_nil] at hsize ⊢
    rw [parts_segment hsize, readParts_segment hsize]
    exact Only.andThen (only_some _) fun v => only_some _
  · rw [parts_open hsize, readParts_open hsize]
    refine Only.andThen (only_some _) fun v x hx => ?_
    obtain ⟨s, hs, hx⟩ := Option.bind_eq_some_iff.mp hx
    obtain rfl : s = Balance.code 1 o.limit cs := by
      rw [Balance.skipCode_sound (Nat.zero_le _) hs, List.drop_zero, Scan.shift_zero]
    cases hscan : Balance.code 1 o.limit cs with
    | stopped k why =>
      rw [hscan] at hx
      exact only_some _ x hx
    | closed k =>
      rw [hscan] at hx
      refine Only.andThen (h.embedded _ _ _) (fun e => ?_) x hx
      exact Only.andThen (h.parts _ _ _) fun more => only_some _

/-- A lexeme is the same within a budget. -/
theorem lexemeWithin_sound {lx : Lexeme} {ch : Char} {cs : List Char}
    (h : Lexer.lexemeWithin limit n ch cs = some lx) : lx = Lexer.lexeme limit ch cs := by
  unfold Lexer.lexemeWithin at h
  split at h
  · next hq =>
    -- a quote begins a literal, which the walk over its body finds
    obtain ⟨s, hs, rfl⟩ := Option.map_eq_some_iff.mp h
    obtain rfl := Balance.skipText_sound (Nat.zero_le _) hs
    rw [hq, Lexer.lexeme_quote, List.drop_zero, Scan.shift_zero, Lexer.textLexeme]
    unfold Lexer.literalLexeme
    cases Balance.text 0 limit cs <;> rfl
  · exact (Option.some.inj h).symm

theorem tokensWithin_sound {toks : List Token} (h : Lexer.tokensWithin limit n p src = some toks) :
    toks = Lexer.tokens limit p src := by
  induction n generalizing p src toks with
  | zero => cases h
  | succ n ih =>
    rw [Lexer.tokensWithin] at h
    dsimp only at h
    split at h
    · next hs =>
      cases h
      rw [Lexer.tokens_end hs]
    · next ch cs hs =>
      obtain ⟨lx, hlx, h⟩ := Option.bind_eq_some_iff.mp h
      obtain ⟨more, hmore, rfl⟩ := Option.map_eq_some_iff.mp h
      rw [Lexer.tokens_next hs, ih hmore, lexemeWithin_sound hlx]

theorem Agrees.source_succ (h : Agrees n o) (ho : o.embedded = none) (p : Position)
    (src : List Char) :
    ∀ parsed ∈ Descent.source (n + 1) o p src, parsed = Source.parseAt o p src := by
  intro parsed hparsed
  rw [Option.mem_def, Descent.source] at hparsed
  obtain ⟨toks, htoks, hprogram⟩ := Option.bind_eq_some_iff.mp hparsed
  obtain rfl := tokensWithin_sound htoks
  have hrun := h.program _ {} (ended_tokens _ _ _) rfl rfl parsed hprogram
  rw [parseAt_run ho]
  exact hrun.symm

/-- Outside of brackets, a terminator or the end of input is passed over where nothing has begun. -/
theorem step_idle (hs : t.stage = .start) (hstack : t.stack = [])
    (hk : tok.kind = .terminator ∨ tok.kind = .eof) : t.step literal tok = t := by
  have hin : (tok.isNewline && t.inBrackets) = false := by simp [inBrackets, hstack]
  rw [step_begin hs hin, begin]
  rcases hk with hk | hk <;> simp [hk, hstack]

/-- Outside of brackets, what binds nothing ends the expression. -/
theorem step_end (hstack : t.stack = []) (hbind : tok.kind.strength ≤ Strength.lowest) :
    (t.operand t.stack e).step literal tok =
      if tok.kind = .terminator ∨ tok.kind = .eof then
        { t with done := t.done ++ [e], stage := .start }
      else { t with done := t.done ++ [e], stage := .failed (tok.refusal "") } := by
  obtain ⟨stack, stage, done, events⟩ := t
  obtain rfl : stack = [] := hstack
  obtain ⟨hop, hname, hopen⟩ := not_binding hbind
  rw [step_operand rfl (Bool.and_false _), extend_eq_finish hop hname hopen]
  simp only [finish, reject_eq]
  rfl

/-- What ends an expression outside of brackets is read again where nothing has begun. -/
theorem foldl_end (hstack : t.stack = []) (hk : tok.kind = .terminator ∨ tok.kind = .eof) :
    (tok :: rest).foldl (step literal) (t.operand t.stack e)
      = (tok :: rest).foldl (step literal) { t with done := t.done ++ [e], stage := .start } := by
  have hbind : tok.kind.strength ≤ Strength.lowest := by
    rcases hk with hk | hk <;> rw [hk] <;> decide
  have hidle : step literal { t with done := t.done ++ [e], stage := .start } tok = _ :=
    step_idle rfl hstack hk
  rw [List.foldl_cons, List.foldl_cons, step_end hstack hbind, if_pos hk, hidle]

theorem Agrees.program_succ (h : Agrees n o) (hended : Ended toks) (hs : t.stage = .start)
    (hstack : t.stack = []) :
    ∀ parsed ∈ Descent.program (n + 1) o toks, (toks.foldl (step o.literals) t).parsed
      = ⟨t.done ++ parsed.program, parsed.failure, t.events ++ parsed.events⟩ := by
  intro parsed hparsed
  rw [Option.mem_def, Descent.program] at hparsed
  obtain ⟨turn, hturn, hparsed⟩ := Option.bind_eq_some_iff.mp hparsed
  unfold programTurn at hturn
  split at hturn
  · next hk =>
    -- behind the end of input there is nothing more to run over
    cases hturn
    cases hparsed
    cases hended with
    | more hne => exact absurd hk hne
    | last hlast =>
      rw [List.foldl_cons, step_idle hs hstack (.inr hlast)]
      simp [ParseState.parsed, failure?, hs]
  next heof =>
  split at hturn
  · next hk =>
    cases hturn
    obtain ⟨q, hq, rfl⟩ := Option.map_eq_some_iff.mp hparsed
    cases hended with
    | last hlast => exact absurd hlast heof
    | more _ hrest =>
      rw [first_cons] at hk
      rw [List.foldl_cons, step_idle hs hstack (.inl hk)]
      exact h.program _ t hrest hs hstack q hq
  next hterm =>
  have ha : Awaits t (first (ahead false toks)) := {
    stage := hs
    idle := fun _ => ⟨hterm, heof⟩
    empty := fun _ _ he => by rw [hstack] at he; cases he
    sign := fun _ _ _ he => by rw [hstack] at he; cases he }
  have hin : t.inBrackets = false := by simp [inBrackets, hstack]
  have hexpr := h.expression false Strength.lowest toks t hended hin ha
    (hstack ▸ waits_base base_nil)
  obtain ⟨r, hr, rfl⟩ := Option.map_eq_some_iff.mp hturn
  have hrun := hexpr r hr
  cases hres : r.result with
  | error f =>
    rw [hres] at hparsed hrun
    cases hparsed
    rw [List.append_nil]
    exact hrun
  | ok res =>
    obtain ⟨e, rest⟩ := res
    have hbind : (first rest).kind.strength ≤ Strength.lowest :=
      expression_stops n toks r (e, rest) hr hres
    rw [hres] at hparsed hrun
    obtain ⟨hrest, hrun⟩ := hrun
    rw [hrun]
    obtain ⟨tok, more, rfl⟩ : ∃ tok more, rest = tok :: more := by
      cases hrest <;> exact ⟨_, _, rfl⟩
    dsimp only at hparsed
    by_cases hk : (first (tok :: more)).kind = .terminator ∨ (first (tok :: more)).kind = .eof
    · rw [if_pos hk] at hparsed
      obtain ⟨q, hq, rfl⟩ := Option.map_eq_some_iff.mp hparsed
      have hrestart :
          (tok :: more).foldl (step o.literals) ((t.operand t.stack e).reported r.events) = _ :=
        foldl_end (t := t.reported r.events) hstack hk
      have hprogram := h.program (tok :: more)
        { t.reported r.events with done := t.done ++ [e], stage := .start } hrest rfl hstack q hq
      refine (congrArg ParseState.parsed hrestart).trans (hprogram.trans ?_)
      simp only [List.append_assoc, ParseState.reported]
    · rw [if_neg hk] at hparsed
      cases hparsed
      have hend : ((t.operand t.stack e).reported r.events).step o.literals tok = _ :=
        step_end (t := t.reported r.events) hstack hbind
      rw [first_cons] at hk
      rw [if_neg hk] at hend
      rw [List.foldl_cons, foldl_of_failed (by rw [hend]), hend]
      rfl

theorem agreement (n : Nat) (o : ParseOptions) (ho : o.embedded = none) : Agrees n o := by
  -- by induction on the budget: with none nothing is read, and with one more each part of the
  -- descent follows the stack machine if those that it calls do
  induction n generalizing o with
  | zero =>
    exact {
      source := fun _ _ _ h => by rw [Descent.source] at h; cases h
      program := fun _ _ _ _ _ _ h => by rw [Descent.program] at h; cases h
      expression := fun _ _ _ _ _ _ _ _ => by rw [Descent.expression]; exact follows_none
      operand := fun _ _ _ _ _ _ => by rw [Descent.operand]; exact follows_none
      onward := fun _ _ _ _ _ _ _ _ => by rw [Descent.onward]; exact follows_none
      turn := fun _ _ _ _ _ _ _ _ => by rw [Descent.turn]; exact follows_none
      message := fun _ _ _ _ _ _ _ => by rw [Descent.message]; exact follows_none
      items := fun _ _ _ _ _ _ _ _ => by rw [Descent.items]; exact follows_none
      parts := fun _ _ _ _ h => by rw [Descent.parts] at h; cases h
      embedded := fun _ _ _ _ h => by rw [Descent.embedded] at h; cases h }
  | succ n ih =>
    have h := ih o ho
    exact {
      source := h.source_succ ho
      program := fun _ _ => h.program_succ
      expression := fun _ _ _ _ => h.expression_succ
      operand := fun _ _ _ => h.operand_succ
      onward := fun _ _ e _ _ => h.onward_succ e
      turn := fun _ e _ _ => h.turn_succ e
      message := fun _ receiver tok _ _ => h.message_succ receiver tok
      items := fun g items _ _ _ => h.items_succ g items
      parts := h.parts_succ
      embedded := (ih o.inner ho).embedded_succ }

end TextScript
