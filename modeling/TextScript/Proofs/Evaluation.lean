/-
TextScript/Proofs/Evaluation.lean

How an evaluation goes on.

An action that fails ends the evaluation, and one that comes to a value hands the scopes on.
Trees are evaluated node by node, and only an operator between two sides has more than one way: an
assignment uses the name on its left side and nothing else of it, two operators may leave their
right side alone, and all others evaluate both sides.  `OperatorCase` tells these ways apart, once
for all that is proved node by node.
-/
import TextScript.Eval

namespace TextScript

variable {α β : Type}

/-! ### One action after another -/

namespace Action

variable {x : Action α} {f : α → Action β}

theorem bind_error {e : Failure} {s s' : EvalState} (h : x s = (.error e, s')) :
    (x >>= f) s = (.error e, s') := by
  show andThen x f s = _
  unfold andThen
  rw [h]

theorem bind_ok {a : α} {s s' : EvalState} (h : x s = (.ok a, s')) : (x >>= f) s = f a s' := by
  show andThen x f s = _
  unfold andThen
  rw [h]

theorem bind_andThen {γ : Type} (x : Action α) (f : α → Action β) (g : β → Action γ) :
    (x >>= f) >>= g = x >>= fun a => f a >>= g := by
  funext s
  show andThen (andThen x f) g s = andThen x (fun a => andThen (f a) g) s
  unfold andThen
  rcases x s with ⟨e | a, s'⟩ <;> rfl

end Action

/-! ### Operators -/

/-- How an operator between two sides is evaluated. -/
inductive OperatorCase (left : Expr) : BinaryOp → Prop
  | assign {head : MessageHead} {args : List Expr} :
      left = .message head args → OperatorCase left .assign
  /-- There is no assigning to what is not a name. -/
  | noTarget : (∀ head args, left ≠ .message head args) → OperatorCase left .assign
  | and : OperatorCase left .and
  | or : OperatorCase left .or
  /-- Both sides are evaluated. -/
  | both {op : BinaryOp} : op ≠ .assign → op ≠ .and → op ≠ .or → OperatorCase left op

theorem operatorCase (left : Expr) (op : BinaryOp) : OperatorCase left op := by
  cases op with
  | assign =>
    by_cases hname : ∃ head args, left = .message head args
    · obtain ⟨head, args, rfl⟩ := hname
      exact .assign rfl
    · exact .noTarget fun head args h => hname ⟨head, args, h⟩
  | and => exact .and
  | or => exact .or
  | _ => exact .both (by simp) (by simp) (by simp)

namespace Eval

variable {sv : Services} {tok : Token} {left right : Expr} {op : BinaryOp}

theorem eval_no_target (h : ∀ head args, left ≠ .message head args) :
    eval sv (.binary tok left .assign right)
      = (Action.fail
          (.make .unexpectedToken (some [("Token", .text "assignment target")]))).placedAt tok := by
  rw [eval]
  exact h

theorem eval_operator (h₁ : op ≠ .assign) (h₂ : op ≠ .and) (h₃ : op ≠ .or) :
    eval sv (.binary tok left op right) = (do
      let l ← eval sv left
      let r ← eval sv right
      (Action.ofTraced (binary sv op l r)).placedAt tok) := by
  rw [eval]
  · exact h₁
  · exact h₂
  · exact h₃

end Eval

end TextScript
