/-
TextScript/Proofs/Operands.lean

What an operand is, and that the parser reads it so.

An operand is a primary with signs in front of it and suffixes behind.  Suffixes bind tighter than
signs: each is a function on what stands before it, and a row of them is their composition, so
that the leftmost is innermost (`Suffixes`).  A minus directly before an integer is no sign but
part of the number, also for the suffixes behind it (`Operand.negative`).

Primaries and suffixes leave the stack as it was (`Primary.leaves`, `Suffixes.leaves`).  Signs
stay on it until something looser than a sign comes, so that an operand as a whole is found by
whatever closes operators at the strength of a sign or below (`Operand.reads`).
-/
import TextScript.Proofs.InContext

namespace TextScript

open ParseState

/-! ### Grammar -/

/-- `Primary literal toks e`: the tokens are a primary and stand for `e`.  What is between
brackets is only asked to be expressions of their own. -/
inductive Primary (literal : Token → Traced Expr) : List Token → Expr → Prop
  | int {tok : Token} {n : Int64} :
      tok.kind = .int → integer? tok.lit = some n → Primary literal [tok] (.int tok n)
  | name {tok : Token} :
      tok.kind = .ident → Primary literal [tok] (.message ⟨tok, tok.lit, false⟩ [])
  | call {tok opening closing : Token} {toks : List Token} {es : List Expr} :
      tok.kind = .ident → opening.kind = .lparen → Items literal toks es → closing.kind = .rparen →
      Primary literal (tok :: opening :: (toks ++ [closing])) (.message ⟨tok, tok.lit, true⟩ es)
  | text {tok : Token} {e : Expr} :
      tok.kind = .text → (literal tok).result = .ok e → Primary literal [tok] e
  | list {opening closing : Token} {toks : List Token} {es : List Expr} :
      opening.kind = .lbracket → Items literal toks es → closing.kind = .rbracket →
      Primary literal (opening :: (toks ++ [closing])) (.list opening es)
  | group {opening closing : Token} {toks : List Token} {e : Expr} :
      opening.kind = .lparen → Alone literal toks e → closing.kind = .rparen →
      Primary literal (opening :: (toks ++ [closing])) e

/-- `Suffix literal toks f`: behind an operand `e`, the tokens make it `f e`. -/
inductive Suffix (literal : Token → Traced Expr) : List Token → (Expr → Expr) → Prop
  | send {tok : Token} :
      tok.kind = .ident → Suffix literal [tok] fun e => .send tok e ⟨tok, tok.lit, false⟩ []
  | call {tok opening closing : Token} {toks : List Token} {es : List Expr} :
      tok.kind = .ident → opening.kind = .lparen → Items literal toks es → closing.kind = .rparen →
      Suffix literal (tok :: opening :: (toks ++ [closing])) fun e =>
        .send tok e ⟨tok, tok.lit, true⟩ es
  | index {opening closing : Token} {toks : List Token} {position : Expr} :
      opening.kind = .lbracket → Alone literal toks position → closing.kind = .rbracket →
      Suffix literal (opening :: (toks ++ [closing])) fun e => .index opening e position

/-- Any number of suffixes, the first of them innermost. -/
inductive Suffixes (literal : Token → Traced Expr) : List Token → (Expr → Expr) → Prop
  | nil : Suffixes literal [] id
  | cons {toks rest : List Token} {f g : Expr → Expr} :
      Suffix literal toks f → Suffixes literal rest g → Suffixes literal (toks ++ rest) (g ∘ f)

/-- The number that a minus sign makes of the integer behind it; it has the column of the sign. -/
def negated (sign tok : Token) (n : Int64) : Expr :=
  .int { tok with lit := "-" ++ tok.lit, place := ⟨tok.place.line, sign.place.column⟩ } (-n)

/-- `Operand literal toks e`: the tokens are signs, a primary and suffixes, and stand for `e`. -/
inductive Operand (literal : Token → Traced Expr) : List Token → Expr → Prop
  | plain {toks rest : List Token} {e : Expr} {f : Expr → Expr} :
      Primary literal toks e → Suffixes literal rest f → Operand literal (toks ++ rest) (f e)
  | negative {sign tok : Token} {n : Int64} {rest : List Token} {f : Expr → Expr} :
      sign.kind = .minus → tok.kind = .int → integer? tok.lit = some n → Suffixes literal rest f →
      Operand literal (sign :: tok :: rest) (f (negated sign tok n))
  | signed {sign : Token} {op : UnaryOp} {toks : List Token} {e : Expr} :
      sign.kind.unaryOp? = some op → (op = .negate → ∀ tok ∈ toks.head?, tok.kind ≠ .int) →
      Operand literal toks e → Operand literal (sign :: toks) (.unary sign op e)

/-- No operator between two operands binds tighter than a sign. -/
theorem BinaryOp.rightStrength_le_unary (op : BinaryOp) : op.rightStrength ≤ Strength.unary := by
  cases op <;> simp [rightStrength, strength, Strength.unary, Strength.lowest]

namespace ParseState

variable {literal : Token → Traced Expr} {s t : ParseState} {tok : Token} {e : Expr}
variable {stack : List Frame} {done : Program} {toks rest : List Token} {k : Strength}

/-! ### Primaries and suffixes -/

/-- What binds tighter than a sign closes nothing. -/
theorem reduce_of_unary_lt (hk : Strength.unary < k) (stack : List Frame) (e : Expr) :
    reduce k stack e = (stack, e) := by
  cases stack with
  | nil => rfl
  | cons f rest =>
    cases f with
    | unary tok op => simp [reduce, Nat.not_le.mpr hk]
    | binary tok left op =>
      simp [reduce, Nat.not_le.mpr (Nat.lt_of_le_of_lt op.rightStrength_le_unary hk)]
    | group => rfl
    | index => rfl
    | list => rfl
    | args => rfl

/-- The stack does not wait for a number to negate, or the tokens do not begin with one. -/
def NoSign (t : ParseState) (toks : List Token) : Prop :=
  ∀ tok ∈ toks.head?, tok.kind = .int → ∀ sign rest, t.stack ≠ .unary sign .negate :: rest

/-- What begins with no sign has no sign at the front of its beginning. -/
theorem NoSign.front (h : NoSign t (toks ++ rest)) : NoSign t toks := fun tok htok => h tok (by
  rw [List.head?_append, Option.mem_def.mp htok]
  rfl)

theorem step_int (hs : t.stage = .start) (hk : tok.kind = .int) :
    t.step literal tok = t.beginInteger tok := by
  rw [step_start hs (by simp [hk])]
  simp [begin, hk]

/-- An integer is held as itself, if no minus waits for it. -/
theorem leaves_int {n : Int64} (hs : t.stage = .start) (hk : tok.kind = .int)
    (hn : integer? tok.lit = some n) (hsign : ∀ sign rest, t.stack ≠ .unary sign .negate :: rest) :
    Leaves (t.step literal tok) t.stack t.done (.int tok n) := by
  rw [step_int hs hk, beginInteger, hn]
  dsimp only
  split
  · next sign rest hstack => exact absurd hstack (hsign sign rest)
  · exact ⟨rfl, rfl, rfl⟩

/-- An integer behind a minus is held as one number, and the minus is gone from the stack. -/
theorem leaves_negated {sign : Token} {n : Int64} {below : List Frame} (hs : t.stage = .start)
    (hstack : t.stack = .unary sign .negate :: below) (hk : tok.kind = .int)
    (hn : integer? tok.lit = some n) :
    Leaves (t.step literal tok) below t.done (negated sign tok n) := by
  rw [step_int hs hk, beginInteger, hn, hstack]
  exact ⟨rfl, rfl, rfl⟩

/-- A literal is held as what it is read as. -/
theorem leaves_text (hs : t.stage = .start) (hk : tok.kind = .text)
    (he : (literal tok).result = .ok e) : Leaves (t.step literal tok) t.stack t.done e := by
  rw [step_start hs (by simp [hk])]
  simp only [begin, hk, beginText, he]
  exact ⟨rfl, rfl, rfl⟩

theorem step_name (hs : t.stage = .start) (hk : tok.kind = .ident) :
    t.step literal tok = { t with stage := .name none tok } := by
  rw [step_start hs (by simp [hk])]
  simp [begin, hk]

theorem step_send (hs : s.stage.held? = some e) (hk : tok.kind = .ident) :
    s.step literal tok = { s with stage := .name (some e) tok } := by
  rw [step_held hs (by simp [hk]) (by simp [hk])]
  simp only [extend, hk, TokenKind.binaryOp?,
    reduce_of_unary_lt (by decide : Strength.unary < Strength.send)]

/-- Arguments in parentheses behind a name. -/
theorem leaves_call {receiver : Option Expr} {name opening closing : Token} {es : List Expr}
    (hname : t.step literal name = { t with stage := .name receiver name })
    (hopen : opening.kind = .lparen) (h : Items literal toks es) (hclose : closing.kind = .rparen) :
    Leaves ((name :: opening :: (toks ++ [closing])).foldl (step literal) t) t.stack t.done
      (Frame.message receiver name true es) := by
  have hstep : step literal { t with stage := .name receiver name } opening
      = t.push (.args receiver name []) := by
    simp [step, push, hopen, isNewline_eq_false]
  have hstack : (t.push (.args receiver name [])).stack
      = (Collector.args receiver name).frame [] :: t.stack := rfl
  rw [List.foldl_cons, hname, List.foldl_cons, hstep]
  exact h.read rfl hstack hclose

/-- A list is held once its bracket is closed. -/
theorem leaves_list {opening closing : Token} {es : List Expr} (hs : t.stage = .start)
    (hopen : opening.kind = .lbracket) (h : Items literal toks es)
    (hclose : closing.kind = .rbracket) :
    Leaves ((opening :: (toks ++ [closing])).foldl (step literal) t) t.stack t.done
      (.list opening es) := by
  have hstep : t.step literal opening = t.push (.list opening []) := by
    rw [step_start hs (by simp [hopen])]
    simp [begin, hopen]
  have hstack : (t.push (.list opening [])).stack = (Collector.list opening).frame [] :: t.stack :=
    rfl
  rw [List.foldl_cons, hstep]
  exact h.read rfl hstack hclose

/-- An expression in brackets is held without them. -/
theorem leaves_group {opening closing : Token} (hs : t.stage = .start)
    (hopen : opening.kind = .lparen) (h : Alone literal toks e) (hclose : closing.kind = .rparen) :
    Leaves ((opening :: (toks ++ [closing])).foldl (step literal) t) t.stack t.done e := by
  have hstep : t.step literal opening = t.push .group := by
    rw [step_start hs (by simp [hopen])]
    simp [begin, hopen]
  obtain ⟨s, hstack, hdone, hrun⟩ := h.close (t := t.push .group) rfl rfl rfl hclose
  rw [List.foldl_cons, hstep, hrun]
  simp only [close, hstack]
  exact ⟨rfl, rfl, hdone⟩

/-- An index in brackets is put around what was held. -/
theorem leaves_index {opening closing : Token} {target : Expr} (hs : Leaves s stack done target)
    (hopen : opening.kind = .lbracket) (h : Alone literal toks e)
    (hclose : closing.kind = .rbracket) :
    Leaves ((opening :: (toks ++ [closing])).foldl (step literal) s) stack done
      (.index opening target e) := by
  have hstep : s.step literal opening = s.push (.index opening target) := by
    rw [step_held hs.held (by simp [hopen]) (by simp [hopen])]
    simp only [extend, hopen, TokenKind.binaryOp?,
      reduce_of_unary_lt (by decide : Strength.unary < Strength.index)]
  obtain ⟨s', hstack, hdone, hrun⟩ :=
    h.close (t := s.push (.index opening target)) rfl rfl rfl hclose
  rw [List.foldl_cons, hstep, hrun]
  simp only [close, hstack]
  exact ⟨rfl, hs.stack_eq, hdone.trans hs.done_eq⟩

end ParseState

variable {literal : Token → Traced Expr} {s t : ParseState} {e : Expr} {f : Expr → Expr}
variable {stack : List Frame} {done : Program} {toks rest : List Token}

/-- A primary leaves its expression, and the stack as it was. -/
theorem Primary.leaves (h : Primary literal toks e) (hs : t.stage = .start)
    (hsign : NoSign t toks) :
    Leaves (toks.foldl (step literal) t) t.stack t.done e := by
  cases h with
  | int hk hn => exact leaves_int hs hk hn (hsign _ rfl hk)
  | name hk =>
    rw [List.foldl_cons, List.foldl_nil, step_name hs hk]
    exact ⟨rfl, rfl, rfl⟩
  | call hk hopen hitems hclose => exact leaves_call (step_name hs hk) hopen hitems hclose
  | text hk he => exact leaves_text hs hk he
  | list hopen hitems hclose => exact leaves_list hs hopen hitems hclose
  | group hopen halone hclose => exact leaves_group hs hopen halone hclose

/-- A suffix is applied to the operand at hand, whatever waits for that. -/
theorem Suffix.leaves (h : Suffix literal toks f) (hs : Leaves s stack done e) :
    Leaves (toks.foldl (step literal) s) stack done (f e) := by
  cases h with
  | send hk =>
    rw [List.foldl_cons, List.foldl_nil, step_send hs.held hk]
    exact ⟨rfl, hs.stack_eq, hs.done_eq⟩
  | call hk hopen hitems hclose =>
    rw [← hs.stack_eq, ← hs.done_eq]
    exact leaves_call (step_send hs.held hk) hopen hitems hclose
  | index hopen halone hclose => exact leaves_index hs hopen halone hclose

/-- Suffixes are put around what was held, one after the other. -/
theorem Suffixes.leaves (h : Suffixes literal toks f) (hs : Leaves s stack done e) :
    Leaves (toks.foldl (step literal) s) stack done (f e) := by
  induction h generalizing s e with
  | nil => exact hs
  | cons hfirst _ ih =>
    rw [List.foldl_append]
    exact ih (hfirst.leaves hs)

/-! ### Operands -/

/-- There are two signs. -/
theorem sign_cases {op : UnaryOp} {sign : Token} (hop : sign.kind.unaryOp? = some op) :
    sign.kind = .minus ∧ op = .negate ∨ sign.kind = .bang ∧ op = .not := by
  unfold TokenKind.unaryOp? at hop
  split at hop
  · next hk => exact .inl ⟨hk, (Option.some.inj hop).symm⟩
  · next hk => exact .inr ⟨hk, (Option.some.inj hop).symm⟩
  · cases hop

/-- A sign waits on the stack for its operand. -/
theorem step_sign {op : UnaryOp} {sign : Token} (hs : t.stage = .start)
    (hop : sign.kind.unaryOp? = some op) : t.step literal sign = t.push (.unary sign op) := by
  rcases sign_cases hop with ⟨hk, rfl⟩ | ⟨hk, rfl⟩
  · rw [step_start hs (by simp [hk])]
    simp [begin, hk]
  · rw [step_start hs (by simp [hk])]
    simp [begin, hk]

/-- An operand is found by whatever closes operators no tighter than a sign. -/
theorem Operand.reads (h : Operand literal toks e) (hs : t.stage = .start) (hsign : NoSign t toks) :
    Reads literal Strength.unary t toks e := by
  induction h generalizing t with
  | @plain toks rest e f hprimary hsuffixes =>
    refine Leaves.reads ?_ _
    rw [List.foldl_append]
    exact hsuffixes.leaves (hprimary.leaves hs hsign.front)
  | @negative sign tok n rest f hminus hk hn hsuffixes =>
    have hstep : t.step literal sign = t.push (.unary sign .negate) :=
      step_sign hs (by rw [hminus]; rfl)
    -- the number takes the sign back from the stack, before any suffix comes
    refine Leaves.reads ?_ _
    rw [List.foldl_cons, List.foldl_cons, hstep]
    exact hsuffixes.leaves (leaves_negated rfl rfl hk hn)
  | @signed sign op toks e hop hint _ ih =>
    -- the sign waits on the stack, and is closed around whatever the rest is found to be
    have hstep : t.step literal sign = t.push (.unary sign op) := step_sign hs hop
    have hnext : NoSign (t.push (.unary sign op)) toks := by
      intro tok htok hk sign' rest heq
      cases heq
      exact hint rfl tok htok hk
    obtain ⟨c, hheld, hdone, hred⟩ := ih rfl hnext
    rw [← hstep] at hheld
    refine ⟨c, hheld, ?_, fun j hlow hj => ?_⟩
    · rw [List.foldl_cons, hstep, hdone]
      rfl
    · rw [List.foldl_cons, hstep, hred j hlow hj]
      exact if_pos hj

end TextScript
