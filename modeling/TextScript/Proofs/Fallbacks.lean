/-
TextScript/Proofs/Fallbacks.lean

What evaluation falls back on.

At four places the evaluator has a branch for trees that no source gives: a node it does not know,
an assignment to something that has no name, an operator in front of its operand that is neither
of the two, and an operator between integers that is none of theirs.  `Eval.evalWith` is the
evaluator with these branches left open, as `Fallbacks`; with the failures of the evaluator in
them it is the evaluator (`evalWith_standard`).  On a well-formed tree it makes no difference what
they are (`evalWith_eq`), so a program that was read never comes to one of them, in whatever
scopes and with whatever services.
-/
import TextScript.Proofs.Evaluation
import TextScript.Proofs.WellFormed

namespace TextScript

/-- What to do with trees that no source gives. -/
structure Fallbacks where
  /-- A node of the embedding program. -/
  node : String → Action Value
  /-- An assignment, at its token, to something that has no name. -/
  target : Token → Action Value
  /-- An operator in front of a value. -/
  sign : String → Value → Except Failure Value
  /-- An operator between integers. -/
  integers : BinaryOp → Int64 → Int64 → Except Failure Value

/-- The failures of the evaluator. -/
def Fallbacks.standard : Fallbacks where
  node _ := .fail (.simple .type "cannot evaluate node")
  target tok :=
    (Action.fail (.make .unexpectedToken (some [("Token", .text "assignment target")]))).placedAt
      tok
  sign s v := .error (.unknownMethod s v.kind [])
  integers op _ _ := .error (.unknownMethod op.symbol "Integer" [])

namespace Eval

/-- Applies an operator to one value. -/
def unaryWith (fb : Fallbacks) (op : UnaryOp) (v : Value) : Except Failure Value :=
  match op, v with
  | .not, v => .ok (.bool !v.truthy)
  | .negate, .int n => .ok (.int (-n))
  | .negate, v => .error (.argumentType "-" "an integer" v.kind)
  | .other s, v => fb.sign s v

/-- Applies an operator to two integers. -/
def integersWith (fb : Fallbacks) (op : BinaryOp) (l r : Int64) : Except Failure Value :=
  match op with
  | .add => .ok (.int (l + r))
  | .sub => .ok (.int (l - r))
  | .mul => .ok (.int (l * r))
  | .div => if r = 0 then .error (.simple .type "division by zero") else .ok (.int (l / r))
  | .rem => if r = 0 then .error (.simple .type "division by zero") else .ok (.int (l % r))
  | .spaceship => .ok (.int (Int64.ofInt (compareInts l r)))
  | .lt | .gt | .lte | .gte => .ok (.bool (ordered op (compareInts l r)))
  | .range => .ok (.range ⟨l, r, false⟩)
  | .xrange => .ok (.range ⟨l, r, true⟩)
  | op => fb.integers op l r

/-- Applies an operator to two values. -/
def binaryWith (fb : Fallbacks) (sv : Services) (op : BinaryOp) (l r : Value) : Traced Value :=
  match op, l, r with
  | op, .text t, r => textWith sv op t r
  | .eq, l, r => .ok (.bool (l.same r))
  | .notEq, l, r => .ok (.bool (!l.same r))
  | op, .int a, .int b => .lift (integersWith fb op a b)
  | op, .int _, r => .fail (.argumentType op.symbol "an integer" r.kind)
  | op, l, _ => .fail (.argumentType op.symbol "an integer" l.kind)

mutual

/-- Evaluates an expression, with the fallbacks left open. -/
def evalWith (fb : Fallbacks) (sv : Services) : Expr → Action Value
  | .int _ n => pure (.int n)
  | .text _ t => pure (.text t)
  | .concat tok parts => do
    let vs ← evalAllWith fb sv parts
    (concatenate sv vs).placedAt tok
  | .list _ items => do
    let vs ← evalAllWith fb sv items
    .settle (.list vs)
  | .message head args =>
    if head.name = concatenateName then do
      let vs ← evalAllWith fb sv args
      (concatenate sv vs).placedAt head.tok
    else (lookUp head.name args.length).placedAt head.tok
  | .send _ receiver head args => do
    let recv ← evalWith fb sv receiver
    let vs ← evalAllWith fb sv args
    (send sv recv head.name vs).placedAt head.tok
  | .unary tok op operand => do
    let v ← evalWith fb sv operand
    (Action.lift (unaryWith fb op v)).placedAt tok
  | .binary tok left .assign right =>
    match left with
    | .message head _ => do
      let v ← evalWith fb sv right
      .bindName head.name v
    | _ => fb.target tok
  | .binary _ left .and right => do
    let l ← evalWith fb sv left
    if l.truthy then evalWith fb sv right else return l
  | .binary _ left .or right => do
    let l ← evalWith fb sv left
    if l.truthy then return l else evalWith fb sv right
  | .binary tok left op right => do
    let l ← evalWith fb sv left
    let r ← evalWith fb sv right
    (Action.ofTraced (binaryWith fb sv op l r)).placedAt tok
  | .host tok source run => (runHost source run).placedAt tok
  | .index tok target position => do
    let t ← evalWith fb sv target
    let i ← evalWith fb sv position
    let v ← (Action.ofTraced (indexBy sv t i)).placedAt tok
    .settle v
  | .foreign label => fb.node label

/-- Evaluates expressions in order. -/
def evalAllWith (fb : Fallbacks) (sv : Services) : List Expr → Action (List Value)
  | [] => pure []
  | e :: es => do
    let v ← evalWith fb sv e
    let vs ← evalAllWith fb sv es
    return v :: vs

end

/-- Evaluates the rest of a program, given the value so far. -/
def evalFromWith (fb : Fallbacks) (sv : Services) (last : Value) : Program → Action Value
  | [] => pure last
  | e :: es => do
    let v ← reporting e (evalWith fb sv e)
    evalFromWith fb sv v es

/-- Evaluates a program, with the fallbacks left open. -/
def evalProgramWith (fb : Fallbacks) (sv : Services) (p : Program) : Action Value :=
  evalFromWith fb sv .nil p

variable {fb : Fallbacks} {sv : Services} {tok : Token} {left right : Expr}

/-! ### Operators -/

theorem unaryWith_eq {op : UnaryOp} (h : fb = .standard ∨ op = .negate ∨ op = .not) (v : Value) :
    unaryWith fb op v = unary op v := by
  cases op with
  | not => rfl
  | negate => cases v <;> rfl
  | other s =>
    obtain rfl : fb = .standard := h.resolve_right (by simp)
    rfl

theorem integersWith_eq {op : BinaryOp} (h : fb = .standard ∨ op ∈ BinaryOp.known)
    (h₁ : op ≠ .assign) (h₂ : op ≠ .and) (h₃ : op ≠ .or) (h₄ : op ≠ .eq) (h₅ : op ≠ .notEq)
    (l r : Int64) : integersWith fb op l r = integers op l r := by
  rcases h with rfl | hop
  · cases op <;> rfl
  · cases op with
    | other s => simp [BinaryOp.known] at hop
    | assign => exact absurd rfl h₁
    | and => exact absurd rfl h₂
    | or => exact absurd rfl h₃
    | eq => exact absurd rfl h₄
    | notEq => exact absurd rfl h₅
    | _ => rfl

theorem binaryWith_eq {op : BinaryOp} (h : fb = .standard ∨ op ∈ BinaryOp.known)
    (h₁ : op ≠ .assign) (h₂ : op ≠ .and) (h₃ : op ≠ .or) (l r : Value) :
    binaryWith fb sv op l r = binary sv op l r := by
  -- the two go by the same cases, and a fallback stands in that of two integers alone
  fun_cases binary sv op l r with
  | case1 op r t => rfl
  | case2 l r hno =>
    rw [binaryWith]
    exact hno
  | case3 l r hno =>
    rw [binaryWith]
    exact hno
  | case4 op a b h₄ h₅ =>
    rw [binaryWith, integersWith_eq h h₁ h₂ h₃ h₄ h₅]
    · exact h₄
    · exact h₅
  | case5 op a r h₄ h₅ hno =>
    rw [binaryWith]
    · exact h₄
    · exact h₅
    · exact hno
  | case6 op l r htext h₄ h₅ hint hints =>
    rw [binaryWith]
    · exact h₄
    · exact h₅
    · exact htext
    · exact hint
    · exact hints

/-! ### Trees -/

/-- What is evaluated at an assignment to something that has no name. -/
theorem evalWith_no_target (h : ∀ head args, left ≠ .message head args) :
    evalWith fb sv (.binary tok left .assign right) = fb.target tok := by
  rw [evalWith]
  exact h

theorem evalWith_operator {op : BinaryOp} (h₁ : op ≠ .assign) (h₂ : op ≠ .and) (h₃ : op ≠ .or) :
    evalWith fb sv (.binary tok left op right) = (do
      let l ← evalWith fb sv left
      let r ← evalWith fb sv right
      (Action.ofTraced (binaryWith fb sv op l r)).placedAt tok) := by
  rw [evalWith]
  · exact h₁
  · exact h₂
  · exact h₃

/-- An operator is evaluated with any fallbacks as without, if its sides are. -/
theorem evalWith_binary {op : BinaryOp}
    (h : fb = .standard ∨ op ∈ BinaryOp.known ∧ (op = .assign → left.isBareName = true))
    (hleft : evalWith fb sv left = eval sv left) (hright : evalWith fb sv right = eval sv right) :
    evalWith fb sv (.binary tok left op right) = eval sv (.binary tok left op right) := by
  cases operatorCase left op with
  | assign hname => rw [hname, evalWith, eval, hright]
  | noTarget hother =>
    have hstandard : fb = .standard := by
      refine h.resolve_right fun ⟨_, hbare⟩ => ?_
      cases left with
      | message head args => exact hother head args rfl
      | _ => exact absurd (hbare rfl) (by simp [Expr.isBareName])
    rw [evalWith_no_target hother, eval_no_target hother, hstandard]
    rfl
  | and => rw [evalWith, eval, hleft, hright]
  | or => rw [evalWith, eval, hleft, hright]
  | both h₁ h₂ h₃ =>
    rw [evalWith_operator h₁ h₂ h₃, eval_operator h₁ h₂ h₃, hleft, hright]
    simp only [binaryWith_eq (h.imp_right And.left) h₁ h₂ h₃]

mutual

/-- With the failures of the evaluator as fallbacks, every tree is evaluated as the evaluator does
it, and a well-formed one with any fallbacks. -/
theorem evalWith_eq (fb : Fallbacks) (sv : Services) (e : Expr)
    (h : fb = .standard ∨ e.WellFormed) :
    evalWith fb sv e = eval sv e := by
  -- a well-formed node has well-formed parts; only `foreign` nodes, and operators and targets that
  -- no well-formed node has, come to a fallback
  cases e with
  | int => rw [evalWith, eval]
  | text => rw [evalWith, eval]
  | concat tok parts =>
    have hparts : fb = .standard ∨ ∀ e ∈ parts, e.WellFormed := by
      refine h.imp_right fun h => ?_
      cases h with
      | concat _ _ _ hall => exact hall
    rw [evalWith, eval, evalAllWith_eq fb sv parts hparts]
  | list tok items =>
    have hitems : fb = .standard ∨ ∀ e ∈ items, e.WellFormed := by
      refine h.imp_right fun h => ?_
      cases h with
      | list hall => exact hall
    rw [evalWith, eval, evalAllWith_eq fb sv items hitems]
  | message head args =>
    have hargs : fb = .standard ∨ ∀ e ∈ args, e.WellFormed := by
      refine h.imp_right fun h => ?_
      cases h with
      | message _ hall => exact hall
    rw [evalWith, eval, evalAllWith_eq fb sv args hargs]
  | send tok receiver head args =>
    have hparts : fb = .standard ∨ receiver.WellFormed ∧ ∀ e ∈ args, e.WellFormed := by
      refine h.imp_right fun h => ?_
      cases h with
      | send hreceiver _ hall => exact ⟨hreceiver, hall⟩
    rw [evalWith, eval, evalWith_eq fb sv receiver (hparts.imp_right And.left),
      evalAllWith_eq fb sv args (hparts.imp_right And.right)]
  | unary tok op operand =>
    have hparts : fb = .standard ∨ (op = .negate ∨ op = .not) ∧ operand.WellFormed := by
      refine h.imp_right fun h => ?_
      cases h with
      | unary hop hoperand => exact ⟨hop, hoperand⟩
    rw [evalWith, eval, evalWith_eq fb sv operand (hparts.imp_right And.right)]
    simp only [unaryWith_eq (hparts.imp_right And.left)]
  | binary tok left op right =>
    have hparts : fb = .standard ∨ (op ∈ BinaryOp.known ∧ (op = .assign → left.isBareName = true)) ∧
        left.WellFormed ∧ right.WellFormed := by
      refine h.imp_right fun h => ?_
      cases h with
      | binary hop hassign hleft hright => exact ⟨⟨hop, hassign⟩, hleft, hright⟩
    exact evalWith_binary (hparts.imp_right And.left)
      (evalWith_eq fb sv left (hparts.imp_right fun h => h.2.1))
      (evalWith_eq fb sv right (hparts.imp_right fun h => h.2.2))
  | host => rw [evalWith, eval]
  | index tok target position =>
    have hparts : fb = .standard ∨ target.WellFormed ∧ position.WellFormed := by
      refine h.imp_right fun h => ?_
      cases h with
      | index htarget hposition => exact ⟨htarget, hposition⟩
    rw [evalWith, eval, evalWith_eq fb sv target (hparts.imp_right And.left),
      evalWith_eq fb sv position (hparts.imp_right And.right)]
  | foreign label =>
    obtain rfl : fb = .standard := h.resolve_right nofun
    rw [evalWith, eval, Fallbacks.standard]

theorem evalAllWith_eq (fb : Fallbacks) (sv : Services) (es : List Expr)
    (h : fb = .standard ∨ ∀ e ∈ es, e.WellFormed) : evalAllWith fb sv es = evalAll sv es := by
  cases es with
  | nil => rw [evalAllWith, evalAll]
  | cons e es =>
    rw [evalAllWith, evalAll,
      evalWith_eq fb sv e (h.imp_right fun h => (List.forall_mem_cons.mp h).1),
      evalAllWith_eq fb sv es (h.imp_right fun h => (List.forall_mem_cons.mp h).2)]

end

/-! ### Programs -/

theorem evalFromWith_eq {prog : Program} (h : fb = .standard ∨ ∀ e ∈ prog, e.WellFormed)
    (v : Value) : evalFromWith fb sv v prog = evalFrom sv v prog := by
  induction prog generalizing v with
  | nil => rfl
  | cons e prog ih =>
    have hrest := ih (h.imp_right fun h => (List.forall_mem_cons.mp h).2)
    rw [evalFromWith, evalFrom,
      evalWith_eq fb sv e (h.imp_right fun h => (List.forall_mem_cons.mp h).1)]
    simp only [hrest]

end Eval

/-- A source that is accepted gives well-formed trees, down to those in its interpolations.  So the
branches that the evaluator has for other trees are never taken: whatever stood there, in whatever
scopes and with whatever services, the program would be evaluated as it is.

That no child is missing is carried by the type `Expr`, whose nodes have all their parts.  Where
there is no expression to be had the parser records a failure instead: its stage is then `failed`,
which stands for a missing node together with its recorded error, and the source is not accepted. -/
theorem accepted_source_wellFormed {o : ParseOptions} {src : List Char} {prog : Program}
    (ho : o.embedded = none) (h : (Source.parse o src).toTraced.result = .ok prog) :
    (∀ e ∈ prog, e.WellFormed) ∧
      (∀ (fb : Fallbacks) (sv : Services),
        Eval.evalProgramWith fb sv prog = Eval.evalProgram sv prog) ∧
      ∀ (sv : Services) (p : Program),
        Eval.evalProgramWith .standard sv p = Eval.evalProgram sv p := by
  have hwell := parse_wellFormed ho h
  exact ⟨hwell, fun fb sv => Eval.evalFromWith_eq (.inr hwell) _,
    fun sv p => Eval.evalFromWith_eq (.inl rfl) _⟩

/-- An assignment, with another one in the literal on its right side. -/
theorem accepted_source_wellFormed_assignment :
    let src := "a = -b c([\"d#\x7be = !1\x7d\"])".toList
    let prog := (Source.parse {} src).program
    (Source.parse {} src).toTraced.result = .ok prog ∧ prog.length = 1 ∧
      (∀ e ∈ prog, e.WellFormed) ∧
      ∀ (fb : Fallbacks) (sv : Services),
        Eval.evalProgramWith fb sv prog = Eval.evalProgram sv prog := by
  intro src prog
  have h : (Source.parse {} src).toTraced.result = .ok prog := by
    have hok : (Source.parse {} src).failure = none := by decide +kernel
    rw [Parsed.toTraced, hok]
  obtain ⟨hwell, hsame, -⟩ := accepted_source_wellFormed rfl h
  exact ⟨h, by decide +kernel, hwell, hsame⟩

end TextScript
