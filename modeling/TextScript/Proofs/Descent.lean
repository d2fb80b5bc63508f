/-
TextScript/Proofs/Descent.lean

Reading as a descent: lexer, parser and literals as functions that call each other.

The parser keeps a stack.  The same reading can be given as a recursion: an expression is an
operand and then, turn by turn, whatever binds to it more tightly than what waits for it; an
operand may be a bracket with expressions in it, or a literal with codes in it that are sources
again.  No argument bounds these calls, so each takes one of a budget and hands on the rest, and
without a budget there is no outcome (`Budgeted`).

A reading of tokens gives what it has read and the tokens that are left.  Here is what it takes:
an operand, an expression, a turn and the items of a bracket each leave fewer tokens than they
were given, whatever the budget is (`consumption`).
-/
import TextScript.Proofs.Moves
import TextScript.Proofs.Skipping
import TextScript.Program.Source

namespace TextScript

/-! ### Outcomes with a budget -/

/-- What a computation with a budget comes to: nothing if the budget runs out, and a result or a
failure with the events up to there if it does not. -/
abbrev Budgeted (α : Type) := Option (Traced α)

namespace Budgeted

variable {α β : Type} {x : Budgeted α} {f : α → Budgeted β} {P : α → Prop} {Q : β → Prop}

/-- A result. -/
def done (a : α) : Budgeted α := some (.ok a)

/-- A failure. -/
def fail (f : Failure) : Budgeted α := some (.fail f)

/-- One computation after another. -/
def andThen (x : Budgeted α) (f : α → Budgeted β) : Budgeted β :=
  x.bind fun t =>
    match t.result with
    | .error e => some ⟨.error e, t.events⟩
    | .ok a => (f a).map fun u => ⟨u.result, t.events ++ u.events⟩

/-- The same computation with another failure. -/
def blame (f : Failure → Failure) (x : Budgeted α) : Budgeted α :=
  x.map fun t => { t with result := t.result.mapError f }

/-- The result, if there is one, is good. -/
def Gives (P : α → Prop) (x : Budgeted α) : Prop :=
  ∀ t a, x = some t → t.result = .ok a → P a

theorem gives_done {a : α} (h : P a) : Gives P (done a) := by
  rintro t b ⟨⟩ ⟨⟩
  exact h

theorem gives_fail (f : Failure) : Gives P (fail f) := by
  rintro t b ⟨⟩ ⟨⟩

theorem gives_none : Gives P none := by
  rintro t b ⟨⟩

theorem Gives.mono {R : α → Prop} (h : Gives P x) (hr : ∀ a, P a → R a) : Gives R x :=
  fun t a ht ha => hr a (h t a ht ha)

theorem gives_trivial (x : Budgeted α) : Gives (fun _ => True) x :=
  fun _ _ _ _ => trivial

/-- What two computations in a row give is what the second gives. -/
theorem Gives.andThen (hx : Gives P x) (hf : ∀ a, P a → Gives Q (f a)) : Gives Q (x.andThen f) := by
  intro t b ht hb
  obtain ⟨u, rfl, h⟩ := Option.bind_eq_some_iff.mp ht
  cases hu : u.result with
  | error e =>
    rw [hu] at h
    cases h
    cases hb
  | ok a =>
    rw [hu] at h
    obtain ⟨v, hv, rfl⟩ := Option.map_eq_some_iff.mp h
    exact hf a (hx u a rfl hu) v b hv hb

@[simp] theorem fail_andThen (failure : Failure) : (fail failure).andThen f = fail failure := rfl

@[simp] theorem done_andThen (a : α) : (done a).andThen f = f a := by
  show (f a).map (fun u => (⟨u.result, [] ++ u.events⟩ : Traced β)) = f a
  cases f a <;> rfl

/-- A computation and then another stay within their budgets if both do. -/
theorem andThen_ne_none (h : x ≠ none) (hx : Gives P x) (hf : ∀ a, P a → f a ≠ none) :
    x.andThen f ≠ none := by
  obtain ⟨t, rfl⟩ := Option.ne_none_iff_exists'.mp h
  simp only [andThen, Option.bind_some]
  cases ht : t.result with
  | error e => simp
  | ok a => simpa using hf a (hx t a rfl ht)

/-- Blaming a token takes nothing of the budget. -/
theorem blame_ne_none {g : Failure → Failure} (h : x ≠ none) : x.blame g ≠ none := by
  simpa [blame] using h

/-- It comes to `y` unless the budget runs out. -/
def Only (y : Traced α) (x : Budgeted α) : Prop :=
  ∀ z, x = some z → z = y

theorem only_some (y : Traced α) : Only y (some y) := by
  rintro z ⟨⟩
  rfl

/-- In a row, each of two computations comes to its own result if it comes to any. -/
theorem Only.andThen {y : Traced α} {g : α → Traced β} (hx : Only y x)
    (hf : ∀ a, Only (g a) (f a)) :
    Only (y.andThen g) (x.andThen f) := by
  intro z hz
  obtain ⟨u, rfl, h⟩ := Option.bind_eq_some_iff.mp hz
  obtain rfl := hx u rfl
  cases hu : u.result with
  | error e =>
    rw [hu] at h
    cases h
    simp only [Traced.andThen, hu]
  | ok a =>
    rw [hu] at h
    obtain ⟨v, hv, rfl⟩ := Option.map_eq_some_iff.mp h
    obtain rfl := hf a v hv
    simp only [Traced.andThen, hu]

end Budgeted

/-- A reading of tokens: what was read, and the tokens that are left. -/
abbrev Reading (α : Type) := Budgeted (α × List Token)

/-! ### Tokens -/

/-- How tightly a token binds what stands before it. -/
def TokenKind.strength (kind : TokenKind) : Strength :=
  match kind.binaryOp? with
  | some op => op.strength
  | none =>
    match kind with
    | .ident => Strength.send
    | .lbracket => Strength.index
    | _ => Strength.lowest

/-- What a token that cannot stand where it does fails with; `more` says what was expected. -/
def Token.refusal (tok : Token) (more : String) : Failure :=
  match tok.fault with
  | some f => f
  | _ => .unexpected (tok.describe ++ more) tok.place

/-- What a literal fails with: a failure without a description is reported at the literal. -/
def Token.blame (tok : Token) : Failure → Failure
  | .plain m =>
    .wrapped { code := .unexpectedToken, cls := .parse, message := m, place := tok.place }
      (.plain m)
  | f => f

namespace Lexer

/-- The lexeme of a literal, given how the scan of what follows its quote ended. -/
def literalLexeme (cs : List Char) : Scan → Lexeme
  | .closed n => ⟨.text, n + 2, none⟩
  | .stopped _ why => ⟨.illegal, cs.length + 1, some why⟩

/-- The lexeme that begins with `c` and goes on in `cs`. -/
def lexemeWithin (limit : Int) (budget : Nat) (c : Char) (cs : List Char) : Option Lexeme :=
  if c = '"' then (Balance.skipText limit cs budget 0 0).map (literalLexeme cs)
  else some (lexeme limit c cs)

/-- The tokens of a source that begins at a position. -/
def tokensWithin (limit : Int) : (budget : Nat) → Position → List Char → Option (List Token)
  | 0, _, _ => none
  | n + 1, p, src =>
    let gap := blankSize false src
    let p := p.advance (src.take gap)
    match src.drop gap with
    | [] => some [{ kind := .eof, place := p }]
    | c :: cs =>
      (lexemeWithin limit n c cs).bind fun lx =>
        let span := (c :: cs).take lx.size
        (tokensWithin limit n (p.advance span) ((c :: cs).drop lx.size)).map fun toks =>
          token limit lx span p :: toks

end Lexer

/-! ### The descent -/

namespace Descent

open Budgeted

/-- The tokens that are left to see; line ends between brackets are passed over. -/
def ahead (nested : Bool) (toks : List Token) : List Token :=
  if nested then toks.dropWhile Token.isNewline else toks

/-- The first token; behind the last one there is only the end of input. -/
def first (toks : List Token) : Token :=
  toks.headD { kind := .eof }

/-- The end of a bracket that stands for `a`. -/
def bracketEnd {α : Type} (closer : TokenKind) (a : α) (toks : List Token) : Reading α :=
  let next := ahead true toks
  if (first next).kind = closer then .done (a, next.tail)
  else .fail ((first next).refusal (", expected '" ++ closer.name ++ "'"))

/-- An integer, with the minus sign directly before it if there is one. -/
def integer (sign : Option Token) (tok : Token) : Budgeted Expr :=
  match ParseState.integer? tok.lit with
  | none =>
    .fail (.unexpected ("integer \"" ++ tok.lit ++ "\" (out of range)") tok.place)
  | some n =>
    match sign with
    | none => .done (.int tok n)
    | some sign => .done (negated sign tok n)

/-- One turn over a program, where `read` reads an expression: it ends, or goes on behind a
terminator or with what is left behind an expression. -/
def programTurn (read : Reading Expr) (toks : List Token) :
    Option (Turn Parsed (Program × List Event × List Token)) :=
  if (first toks).kind = .eof then some (.stop ⟨[], none, []⟩)
  else if (first toks).kind = .terminator then some (.goOn ([], [], toks.tail))
  else
    read.map fun t =>
      match t.result with
      | .error f => .stop ⟨[], some f, t.events⟩
      | .ok (e, rest) =>
        if (first rest).kind = .terminator ∨ (first rest).kind = .eof then
          .goOn ([e], t.events, rest)
        else .stop ⟨[e], some ((first rest).refusal ""), t.events⟩

/-- What the parts of a literal are put together to. -/
def assemble (tok : Token) (parts : List Expr) : Budgeted Expr :=
  match parts with
  | [whole] => .done whole
  | parts => some ⟨.ok (.concat tok parts), [.literalRead tok.place (parts.length / 2)]⟩

mutual

/-- The program of a source that begins at a position. -/
def source : (budget : Nat) → ParseOptions → Position → List Char → Option Parsed
  | 0, _, _, _ => none
  | n + 1, o, p, src => (Lexer.tokensWithin o.limit n p src).bind fun toks => program n o toks

/-- Expressions with terminators behind them, up to the end of input or the first failure. -/
def program : (budget : Nat) → ParseOptions → List Token → Option Parsed
  | 0, _, _ => none
  | n + 1, o, toks =>
    (programTurn (expression n o false Strength.lowest toks) toks).bind fun
      | .stop parsed => some parsed
      | .goOn (es, events, rest) =>
        (program n o rest).map fun parsed =>
          { parsed with program := es ++ parsed.program, events := events ++ parsed.events }

/-- An operand with whatever binds to it more tightly than `k`. -/
def expression : (budget : Nat) → ParseOptions → (nested : Bool) → (k : Strength) → List Token →
    Reading Expr
  | 0, _, _, _, _ => none
  | n + 1, o, nested, k, toks =>
    (operand n o nested toks).andThen fun (e, rest) => onward n o nested k e rest

/-- The operand at the front: a name, a number, a literal, a bracket, or a sign with its operand. -/
def operand : (budget : Nat) → ParseOptions → (nested : Bool) → List Token → Reading Expr
  | 0, _, _, _ => none
  | n + 1, o, nested, toks =>
    let tok := first (ahead nested toks)
    let rest := (ahead nested toks).tail
    match tok.kind with
    | .ident => message n o nested none tok rest
    | .int => (integer none tok).andThen fun e => .done (e, rest)
    | .text =>
      (((parts n o tok tok.place.next tok.lit.toList).andThen (assemble tok)).blame
        tok.blame).andThen
        fun e => .done (e, rest)
    | .minus =>
      let next := ahead nested rest
      if (first next).kind = .int then
        (integer (some tok) (first next)).andThen fun e => .done (e, next.tail)
      else
        (expression n o nested Strength.unary rest).andThen fun (e, rest) =>
          .done (.unary tok .negate e, rest)
    | .bang =>
      (expression n o nested Strength.unary rest).andThen fun (e, rest) =>
        .done (.unary tok .not e, rest)
    | .lparen =>
      (expression n o true Strength.lowest rest).andThen fun (e, rest) => bracketEnd .rparen e rest
    | .lbracket =>
      (items n o .rbracket rest).andThen fun (es, rest) => .done (.list tok es, rest)
    | _ => .fail (tok.refusal "")

/-- Behind an operand: turn by turn whatever binds to it more tightly than `k`. -/
def onward : (budget : Nat) → ParseOptions → (nested : Bool) → (k : Strength) → Expr → List Token →
    Reading Expr
  | 0, _, _, _, _, _ => none
  | n + 1, o, nested, k, e, toks =>
    if k < (first (ahead nested toks)).kind.strength then
      (turn n o nested e toks).andThen fun (e, rest) => onward n o nested k e rest
    else .done (e, toks)

/-- One turn: an operator with its right operand, a message, or an index. -/
def turn : (budget : Nat) → ParseOptions → (nested : Bool) → Expr → List Token → Reading Expr
  | 0, _, _, _, _ => none
  | n + 1, o, nested, left, toks =>
    let tok := first (ahead nested toks)
    let rest := (ahead nested toks).tail
    match tok.kind.binaryOp? with
    | some op =>
      if op = .assign ∧ !left.isBareName then
        .fail
          (.unexpected ("'=' after " ++ left.render ++ " (can only assign to a name)") tok.place)
      else
        (expression n o nested op.rightStrength rest).andThen fun (right, rest) =>
          .done (.binary tok left op right, rest)
    | none =>
      match tok.kind with
      | .ident => message n o nested (some left) tok rest
      | .lbracket =>
        (expression n o true Strength.lowest rest).andThen fun (e, rest) =>
          bracketEnd .rbracket (.index tok left e) rest
      | _ => .fail (tok.refusal "")

/-- A message, with its arguments if a parenthesis opens them. -/
def message : (budget : Nat) → ParseOptions → (nested : Bool) → Option Expr → Token → List Token →
    Reading Expr
  | 0, _, _, _, _, _ => none
  | n + 1, o, nested, receiver, tok, toks =>
    let next := ahead nested toks
    if (first next).kind = .lparen then
      (items n o .rparen next.tail).andThen fun (es, rest) =>
        .done (Frame.message receiver tok true es, rest)
    else .done (Frame.message receiver tok false [], toks)

/-- Expressions with commas between them, up to the end of their bracket. -/
def items : (budget : Nat) → ParseOptions → (closer : TokenKind) → List Token → Reading (List Expr)
  | 0, _, _, _ => none
  | n + 1, o, closer, toks =>
    let next := ahead true toks
    if (first next).kind = closer then .done ([], next.tail)
    else
      (expression n o true Strength.lowest toks).andThen fun (e, rest) =>
        let next := ahead true rest
        if (first next).kind = .comma then
          (items n o closer next.tail).andThen fun (es, rest) => .done (e :: es, rest)
        else bracketEnd closer [e] rest

/-- The parts of a literal's body: segments and embedded expressions in turn. -/
def parts : (budget : Nat) → ParseOptions → Token → Position → List Char → Budgeted (List Expr)
  | 0, _, _, _, _ => none
  | n + 1, o, tok, p, cs =>
    let size := Interpolation.segmentSize cs
    let segment := cs.take size
    andThen (some (.lift (Escape.decodeAt p segment))) fun value =>
      match cs.drop size with
      | '#' :: '{' :: rest =>
        (Balance.skipCode o.limit rest n 1 0 0).bind fun
          | .stopped _ why => fail (Interpolation.unbalanced o.limit tok why)
          | .closed k =>
            let codePlace := p.advance (segment ++ ['#', '{'])
            let code := rest.take k
            (embedded n o tok (String.ofList code) codePlace).andThen fun e =>
              (parts n o tok (codePlace.advance (code ++ ['}'])) (rest.drop (k + 1))).andThen
                fun more => .done (.text tok value :: e :: more)
      | _ => .done [.text tok value]

/-- The expression of an interpolation's code: a source of its own, unless it is blank. -/
def embedded : (budget : Nat) → ParseOptions → Token → (code : String) → Position → Budgeted Expr
  | 0, _, _, _, _ => none
  | n + 1, o, tok, code, p =>
    if Text.isBlankString code then .done (.text tok .empty)
    else
      andThen (some (.report (.codeHanded code p))) fun _ =>
        (source n o.inner p code.toList).map (Parsed.single p)

end

variable {nested : Bool} {toks rest more : List Token} {tok : Token} {o : ParseOptions} {n : Nat}

/-! ### Parts of a body -/

/-- A body without blocks is its one segment. -/
theorem parts_segment {p : Position} {seg : List Char}
    (h : Interpolation.segmentSize seg = seg.length) :
    parts (n + 1) o tok p seg =
      andThen (some (.lift (Escape.decodeAt p seg))) fun v => .done [.text tok v] := by
  rw [parts]
  simp only [h, List.take_length, List.drop_length]

/-- A body with a block is a segment, the code of the block, and the rest. -/
theorem parts_open {p : Position} {seg cs : List Char}
    (h : Interpolation.segmentSize (seg ++ '#' :: '{' :: cs) = seg.length) :
    parts (n + 1) o tok p (seg ++ '#' :: '{' :: cs) =
      andThen (some (.lift (Escape.decodeAt p seg))) fun v =>
        (Balance.skipCode o.limit cs n 1 0 0).bind fun
          | .stopped _ why => fail (Interpolation.unbalanced o.limit tok why)
          | .closed k =>
            (embedded n o tok (String.ofList (cs.take k)) (p.advance (seg ++ ['#', '{']))).andThen
              fun e =>
              (parts n o tok ((p.advance (seg ++ ['#', '{'])).advance (cs.take k ++ ['}']))
                (cs.drop (k + 1))).andThen fun more => .done (.text tok v :: e :: more) := by
  rw [parts]
  simp only [h, List.take_left, List.drop_left]

/-! ### What is left -/

@[simp] theorem first_cons (tok : Token) (rest : List Token) : first (tok :: rest) = tok := rfl

/-- `Takes rest toks`: the tokens go on with `rest` behind at least one token that is not the end of
input. -/
structure Takes (rest toks : List Token) : Prop where
  before : ∃ read, (∀ tok ∈ read, tok.kind ≠ .eof) ∧ toks = read ++ rest
  length_lt : rest.length < toks.length

/-- Taking some tokens and then some more takes tokens. -/
theorem Takes.trans (h : Takes more rest) (h' : Takes rest toks) : Takes more toks := by
  obtain ⟨read, hread, hrest⟩ := h.before
  obtain ⟨read', hread', htoks⟩ := h'.before
  refine ⟨⟨read' ++ read, ?_, ?_⟩, Nat.lt_trans h.length_lt h'.length_lt⟩
  · intro tok hmem
    exact (List.mem_append.mp hmem).elim (hread' tok) (hread tok)
  · rw [htoks, hrest, List.append_assoc]

theorem takes_cons (h : tok.kind ≠ .eof) (rest : List Token) : Takes rest (tok :: rest) :=
  ⟨⟨[tok], by simpa using h, rfl⟩, Nat.lt_succ_self _⟩

/-- The token that is seen next, if it is not the end of input, can be taken. -/
theorem takes_first (h : (first (ahead nested toks)).kind ≠ .eof) :
    Takes (ahead nested toks).tail toks := by
  induction toks with
  | nil => cases nested <;> exact absurd rfl h
  | cons tok rest ih =>
    by_cases hskip : nested = true ∧ tok.isNewline = true
    · -- a line end is passed over, and what is behind it taken
      obtain ⟨rfl, hnl⟩ := hskip
      have hahead : ahead true (tok :: rest) = ahead true rest := by
        simp [ahead, hnl]
      have hkind : tok.kind ≠ .eof := by
        intro hk
        simp [Token.isNewline, hk] at hnl
      rw [hahead] at h ⊢
      exact (ih h).trans (takes_cons hkind rest)
    · have hahead : ahead nested (tok :: rest) = tok :: rest := by
        cases nested <;> simp_all [ahead, List.dropWhile_cons]
      rw [hahead] at h ⊢
      exact takes_cons h rest

/-- Behind line ends that do not count, a token of a known kind is taken. -/
theorem takes_of_kind {kind : TokenKind} (h : (first (ahead nested toks)).kind = kind)
    (hk : kind ≠ .eof) : Takes (ahead nested toks).tail toks :=
  takes_first (h ▸ hk)

/-- What ends at a closing bracket takes at least that. -/
theorem gives_bracketEnd {α : Type} {closer : TokenKind} {a : α} (hc : closer ≠ .eof) :
    Gives (fun r => Takes r.2 toks) (bracketEnd closer a toks) := by
  unfold bracketEnd
  dsimp only
  split
  · next h => exact gives_done (takes_of_kind h hc)
  · exact gives_fail _

/-- A turn over a program that goes on has taken a terminator or an expression. -/
theorem programTurn_takes {read : Reading Expr} {es : Program} {events : List Event}
    (hread : Gives (fun r => Takes r.2 toks) read)
    (h : programTurn read toks = some (.goOn (es, events, rest))) : Takes rest toks := by
  unfold programTurn at h
  split at h
  · cases h
  split at h
  · next hk =>
    cases h
    have hk : (first (ahead false toks)).kind = .terminator := hk
    exact takes_of_kind hk (by decide)
  · obtain ⟨t, ht, h⟩ := Option.map_eq_some_iff.mp h
    cases hres : t.result with
    | error f =>
      rw [hres] at h
      cases h
    | ok r =>
      rw [hres] at h
      dsimp only at h
      split at h
      · cases h
        exact hread t r ht hres
      · cases h

/-- Each reading leaves fewer tokens than it was given.  A turn over a program goes on from fewer;
the turns behind an operand are those of `turn`, and a turn over the items of a bracket begins
with an expression. -/
structure Consumes (n : Nat) : Prop where
  program : ∀ o toks es events rest,
    programTurn (expression n o false Strength.lowest toks) toks = some (.goOn (es, events, rest)) →
      Takes rest toks
  expression : ∀ o nested k toks, Gives (fun r => Takes r.2 toks) (expression n o nested k toks)
  operand : ∀ o nested toks, Gives (fun r => Takes r.2 toks) (operand n o nested toks)
  onward : ∀ o nested k e toks,
    Gives (fun r => r.2 = toks ∨ Takes r.2 toks) (onward n o nested k e toks)
  turn : ∀ o nested e toks, Gives (fun r => Takes r.2 toks) (turn n o nested e toks)
  message : ∀ o nested receiver tok toks,
    Gives (fun r => r.2 = toks ∨ Takes r.2 toks) (message n o nested receiver tok toks)
  items : ∀ o closer toks, closer ≠ .eof →
    Gives (fun r => Takes r.2 toks) (items n o closer toks)

/-- A step that takes tokens may be followed by one that takes none. -/
theorem Takes.of_or (h : Takes rest toks) (h' : more = rest ∨ Takes more rest) :
    Takes more toks := by
  rcases h' with rfl | h'
  · exact h
  · exact h'.trans h

/-- An expression takes its first operand. -/
theorem Consumes.expression_succ (h : Consumes n) (o : ParseOptions) (nested : Bool) (k : Strength)
    (toks : List Token) :
    Gives (fun r => Takes r.2 toks) (Descent.expression (n + 1) o nested k toks) := by
  rw [Descent.expression]
  refine (h.operand o nested toks).andThen fun ⟨e, rest⟩ hrest => ?_
  exact (h.onward o nested k e rest).mono fun r hr => hrest.of_or hr

/-- An operand begins with a token that it takes, whatever else it takes behind that. -/
theorem Consumes.operand_succ (h : Consumes n) (o : ParseOptions) (nested : Bool)
    (toks : List Token) :
    Gives (fun r => Takes r.2 toks) (Descent.operand (n + 1) o nested toks) := by
  rw [Descent.operand]
  dsimp only
  split
  · next hk =>
    have htok := takes_of_kind hk (by decide)
    exact (h.message _ _ _ _ _).mono fun r hr => htok.of_or hr
  · next hk =>
    have htok := takes_of_kind hk (by decide)
    exact (gives_trivial _).andThen fun e _ => gives_done htok
  · next hk =>
    have htok := takes_of_kind hk (by decide)
    exact (gives_trivial _).andThen fun e _ => gives_done htok
  · next hk =>
    have htok := takes_of_kind hk (by decide)
    split
    · next hint =>
      have hnum := takes_of_kind hint (by decide)
      exact (gives_trivial _).andThen fun e _ => gives_done (hnum.trans htok)
    · exact (h.expression _ _ _ _).andThen fun r hr => gives_done (hr.trans htok)
  · next hk =>
    have htok := takes_of_kind hk (by decide)
    exact (h.expression _ _ _ _).andThen fun r hr => gives_done (hr.trans htok)
  · next hk =>
    have htok := takes_of_kind hk (by decide)
    refine (h.expression _ _ _ _).andThen fun r hr => ?_
    exact (gives_bracketEnd (by decide)).mono fun _ hend => (hend.trans hr).trans htok
  · next hk =>
    have htok := takes_of_kind hk (by decide)
    exact (h.items _ _ _ (by decide)).andThen fun r hr => gives_done (hr.trans htok)
  · exact gives_fail _

/-- Going on behind an operand takes tokens or leaves all. -/
theorem Consumes.onward_succ (h : Consumes n) (o : ParseOptions) (nested : Bool) (k : Strength)
    (e : Expr) (toks : List Token) :
    Gives (fun r => r.2 = toks ∨ Takes r.2 toks) (Descent.onward (n + 1) o nested k e toks) := by
  rw [Descent.onward]
  split
  · refine (h.turn o nested e toks).andThen fun r hr => ?_
    exact (h.onward _ _ _ _ _).mono fun _ hmore => .inr (hr.of_or hmore)
  · exact gives_done (.inl rfl)

/-- A turn behind an operand takes the operator. -/
theorem Consumes.turn_succ (h : Consumes n) (o : ParseOptions) (nested : Bool) (e : Expr)
    (toks : List Token) :
    Gives (fun r => Takes r.2 toks) (Descent.turn (n + 1) o nested e toks) := by
  rw [Descent.turn]
  dsimp only
  split
  · next op hop =>
    have htok : Takes (ahead nested toks).tail toks :=
      takes_first fun hk => by simp [hk, TokenKind.binaryOp?] at hop
    split
    · exact gives_fail _
    · exact (h.expression _ _ _ _).andThen fun r hr => gives_done (hr.trans htok)
  · split
    · next hk =>
      have htok := takes_of_kind hk (by decide)
      exact (h.message _ _ _ _ _).mono fun r hr => htok.of_or hr
    · next hk =>
      have htok := takes_of_kind hk (by decide)
      refine (h.expression _ _ _ _).andThen fun r hr => ?_
      exact (gives_bracketEnd (by decide)).mono fun _ hend => (hend.trans hr).trans htok
    · exact gives_fail _

/-- A message takes its arguments, if it has any. -/
theorem Consumes.message_succ (h : Consumes n) (o : ParseOptions) (nested : Bool)
    (receiver : Option Expr) (tok : Token) (toks : List Token) :
    Gives (fun r => r.2 = toks ∨ Takes r.2 toks)
      (Descent.message (n + 1) o nested receiver tok toks) := by
  rw [Descent.message]
  dsimp only
  split
  · next hk =>
    have hopen := takes_of_kind hk (by decide)
    exact (h.items _ _ _ (by decide)).andThen fun r hr => gives_done (.inr (hr.trans hopen))
  · exact gives_done (.inl rfl)

/-- A row of items takes its closing bracket. -/
theorem Consumes.items_succ (h : Consumes n) (o : ParseOptions) (closer : TokenKind)
    (toks : List Token) (hc : closer ≠ .eof) :
    Gives (fun r => Takes r.2 toks) (Descent.items (n + 1) o closer toks) := by
  rw [Descent.items]
  dsimp only
  split
  · next hk => exact gives_done (takes_of_kind hk hc)
  · refine (h.expression _ _ _ _).andThen fun r hr => ?_
    split
    · next hk =>
      have hcomma := takes_of_kind hk (by decide)
      exact (h.items _ _ _ hc).andThen fun r' hmore =>
        gives_done ((hmore.trans hcomma).trans hr)
    · exact (gives_bracketEnd hc).mono fun _ hend => hend.trans hr

/-- Whatever the budget, no reading goes on without taking a token. -/
theorem consumption (n : Nat) : Consumes n := by
  induction n with
  | zero =>
    exact {
      program := fun _ _ _ _ _ => programTurn_takes (by rw [Descent.expression]; exact gives_none)
      expression := fun _ _ _ _ => by rw [Descent.expression]; exact gives_none
      operand := fun _ _ _ => by rw [Descent.operand]; exact gives_none
      onward := fun _ _ _ _ _ => by rw [Descent.onward]; exact gives_none
      turn := fun _ _ _ _ => by rw [Descent.turn]; exact gives_none
      message := fun _ _ _ _ _ => by rw [Descent.message]; exact gives_none
      items := fun _ _ _ _ => by rw [Descent.items]; exact gives_none }
  | succ n ih =>
    exact {
      program := fun _ _ _ _ _ => programTurn_takes (ih.expression_succ _ _ _ _)
      expression := ih.expression_succ
      operand := ih.operand_succ
      onward := ih.onward_succ
      turn := ih.turn_succ
      message := ih.message_succ
      items := ih.items_succ }

end Descent

end TextScript
