/-
TextScript/Proofs/Assignments.lean

What evaluation may change.

Assignments are expressions, so they may stand anywhere in a tree, also before something that
fails or in a part that is never evaluated.  `Expr.assigned` lists the names on the left of an `=`
node, wherever it is, and evaluation changes the bindings of these names in the innermost scope
and nothing else.  `Action.Keeps names x` says this of one action, whether it comes to a value or
fails: single actions keep all names but the one that they bind, an action behind another keeps
what both keep, and so the names of a tree are those of its parts (`eval_keeps`).
-/
import TextScript.Proofs.Evaluation

namespace TextScript

/-! ### Assigned names -/

namespace Expr

/-- The name that an operator assigns to, given its left side. -/
def target : BinaryOp → Expr → List String
  | .assign, message head _ => [head.name]
  | _, _ => []

mutual

/-- The names on the left side of an `=` node of the tree, at any depth. -/
def assigned : Expr → List String
  | message _ args => assignedAll args
  | send _ receiver _ args => receiver.assigned ++ assignedAll args
  | int _ _ => []
  | text _ _ => []
  | concat _ parts => assignedAll parts
  | unary _ _ operand => operand.assigned
  | binary _ left op right => target op left ++ (left.assigned ++ right.assigned)
  | index _ indexed position => indexed.assigned ++ position.assigned
  | list _ items => assignedAll items
  | host _ _ _ => []
  | foreign _ => []

/-- The names on the left side of an `=` node of one of the trees. -/
def assignedAll : List Expr → List String
  | [] => []
  | e :: es => e.assigned ++ assignedAll es

end

/-- A row of expressions assigns what one of them assigns. -/
theorem mem_assignedAll {name : String} {es : List Expr} :
    name ∈ assignedAll es ↔ ∃ e ∈ es, name ∈ e.assigned := by
  induction es with
  | nil => simp [assignedAll]
  | cons e es ih => simp [assignedAll, ih]

end Expr

/-! ### Bindings that are kept -/

/-- `Keeps names before after`: the enclosing scopes are the same, and in the innermost one every
other name than these has the value that it had, or none as before. -/
structure Env.Keeps (names : List String) (before after : Env) : Prop where
  outer : after.outer = before.outer
  inner : ∀ name, name ∉ names → after.inner.get? name = before.inner.get? name

theorem Env.keeps_refl (names : List String) (e : Env) : e.Keeps names e :=
  ⟨rfl, fun _ _ => rfl⟩

/-- One change after another keeps what both keep. -/
theorem Env.Keeps.append {first more : List String} {e₁ e₂ e₃ : Env} (h : e₁.Keeps first e₂)
    (h' : e₂.Keeps more e₃) : e₁.Keeps (first ++ more) e₃ := by
  refine ⟨h'.outer.trans h.outer, fun name hname => ?_⟩
  rw [List.mem_append, not_or] at hname
  exact (h'.inner name hname.2).trans (h.inner name hname.1)

/-- Less may be said to be kept. -/
theorem Env.Keeps.mono {names more : List String} {e₁ e₂ : Env} (h : e₁.Keeps names e₂)
    (hsub : names ⊆ more) : e₁.Keeps more e₂ :=
  ⟨h.outer, fun name hname => h.inner name fun hmem => hname (hsub hmem)⟩

namespace Action

variable {α β : Type} {names more : List String} {x : Action α} {f : α → Action β}

/-- Whether the action comes to a value or fails, it leaves all bindings as they were but those of
these names in the innermost scope. -/
def Keeps (names : List String) (x : Action α) : Prop :=
  ∀ s : EvalState, s.env.Keeps names (x s).2.env

/-- Less may be said to be kept. -/
theorem Keeps.mono (h : x.Keeps names) (hsub : names ⊆ more) : x.Keeps more :=
  fun s => (h s).mono hsub

theorem keeps_pure (a : α) : Keeps [] (pure a : Action α) :=
  fun s => s.env.keeps_refl []

theorem keeps_fail (e : Failure) : Keeps [] (fail e : Action α) :=
  fun s => s.env.keeps_refl []

theorem keeps_lift (r : Except Failure α) : Keeps [] (lift r) :=
  fun s => s.env.keeps_refl []

theorem keeps_ofTraced (t : Traced α) : Keeps [] (ofTraced t) :=
  fun s => s.env.keeps_refl []

theorem keeps_env : Keeps [] env :=
  fun s => s.env.keeps_refl []

/-- Marks are no bindings. -/
theorem keeps_settle (v : Value) : Keeps [] (settle v) :=
  fun _ => ⟨rfl, fun _ _ => rfl⟩

theorem keeps_adopt (v : Value) : Keeps [] (adopt v) :=
  fun _ => ⟨rfl, fun _ _ => rfl⟩

/-- Binding a name changes that name in the innermost scope and nothing else. -/
theorem keeps_bindName (name : String) (v : Value) : Keeps [name] (bindName name v) := by
  refine fun s => ⟨rfl, fun other hother => ?_⟩
  exact Scope.get?_set_of_ne s.env.inner v (List.ne_of_not_mem_cons hother)

/-- One computation after another changes what one of the two changes. -/
theorem Keeps.bind (h : x.Keeps names) (hf : ∀ a, (f a).Keeps more) :
    (x >>= f).Keeps (names ++ more) := by
  intro s
  have hx := h s
  rcases hs : x s with ⟨e | a, s'⟩ <;> rw [hs] at hx
  · -- what comes after a failure does not take place
    rw [bind_error hs]
    exact hx.mono (List.subset_append_left names more)
  · rw [bind_ok hs]
    exact hx.append (hf a s')

/-- An action that keeps everything may come before another one, or after it. -/
theorem Keeps.after (hf : ∀ a, (f a).Keeps more) (h : x.Keeps []) : (x >>= f).Keeps more :=
  h.bind hf

/-- What comes after a computation and changes nothing makes no difference. -/
theorem Keeps.before (h : x.Keeps names) (hf : ∀ a, (f a).Keeps []) : (x >>= f).Keeps names := by
  have hboth := h.bind hf
  rwa [List.append_nil] at hboth

/-- Giving a failure a place changes no scope. -/
theorem Keeps.placedAt (h : x.Keeps names) (tok : Token) : (x.placedAt tok).Keeps names := by
  intro s
  have hx := h s
  unfold Action.placedAt
  rcases hs : x s with ⟨e | a, s'⟩ <;> rw [hs] at hx <;> exact hx

end Action

/-! ### Trees -/

namespace Eval

open TextScript.Action

variable {sv : Services} {left right : Expr}

/-- Sending a message changes no scope. -/
theorem send_keeps (sv : Services) (recv : Value) (name : String) (args : List Value) :
    (send sv recv name args).Keeps [] := by
  unfold send
  split
  · exact keeps_ofTraced _
  · split
    · exact keeps_lift _
    · exact keeps_pure _
    · exact keeps_pure _
    · exact keeps_fail _

/-- Looking a name up changes no scope. -/
theorem lookUp_keeps (name : String) (n : Nat) : (lookUp name n).Keeps [] := by
  refine Keeps.after (fun env => ?_) keeps_env
  split
  · exact keeps_fail _
  · split
    · exact keeps_fail _
    · exact keeps_pure _

/-- Host code is given the values of names, not the scopes. -/
theorem runHost_keeps (source : String) (run : Bindings → Except Failure Value) :
    (runHost source run).Keeps [] := by
  refine Keeps.after (fun env => ?_) keeps_env
  split
  · exact keeps_adopt _
  · exact keeps_fail _

/-- An operator keeps what its sides keep, but for the name that it assigns to. -/
theorem binary_keeps (tok : Token) (op : BinaryOp) (hleft : (eval sv left).Keeps left.assigned)
    (hright : (eval sv right).Keeps right.assigned) :
    (eval sv (.binary tok left op right)).Keeps (Expr.binary tok left op right).assigned := by
  rw [Expr.assigned]
  cases operatorCase left op with
  | @assign head args hname =>
    subst hname
    rw [eval]
    -- the value is evaluated before its name is bound, and the target is not evaluated at all
    refine (hright.bind fun v => keeps_bindName head.name v).mono fun name hname => ?_
    simp only [Expr.target, List.mem_append, List.mem_singleton] at hname ⊢
    exact hname.elim (fun h => .inr (.inr h)) .inl
  | noTarget hother =>
    rw [eval_no_target hother]
    exact ((keeps_fail _).placedAt tok).mono (List.nil_subset _)
  | and =>
    rw [eval]
    refine hleft.bind fun l => ?_
    -- the right operand may be left out, and then changes nothing
    split
    · exact hright
    · exact (keeps_pure l).mono (List.nil_subset _)
  | or =>
    rw [eval]
    refine hleft.bind fun l => ?_
    split
    · exact (keeps_pure l).mono (List.nil_subset _)
    · exact hright
  | both h₁ h₂ h₃ =>
    rw [eval_operator h₁ h₂ h₃]
    refine (hleft.bind fun l => hright.before fun r => ?_).mono (List.subset_append_right _ _)
    exact (keeps_ofTraced _).placedAt tok

mutual

/-- Evaluating a tree changes no binding but those of the names that it assigns to. -/
theorem eval_keeps (sv : Services) (e : Expr) : (eval sv e).Keeps e.assigned := by
  cases e with
  | int tok n => exact keeps_pure _
  | text tok t => exact keeps_pure _
  | concat tok parts =>
    rw [eval]
    exact (evalAll_keeps sv parts).before fun vs => (keeps_lift _).placedAt tok
  | list tok items =>
    rw [eval]
    exact (evalAll_keeps sv items).before fun vs => keeps_settle _
  | message head args =>
    rw [eval, Expr.assigned]
    split
    · exact (evalAll_keeps sv args).before fun vs => (keeps_lift _).placedAt head.tok
    · exact ((lookUp_keeps _ _).placedAt head.tok).mono (List.nil_subset _)
  | send tok receiver head args =>
    rw [eval, Expr.assigned]
    refine (eval_keeps sv receiver).bind fun recv => (evalAll_keeps sv args).before fun vs => ?_
    exact (send_keeps sv recv head.name vs).placedAt head.tok
  | unary tok op operand =>
    rw [eval, Expr.assigned]
    exact (eval_keeps sv operand).before fun v => (keeps_lift _).placedAt tok
  | binary tok left op right => exact binary_keeps tok op (eval_keeps sv left) (eval_keeps sv right)
  | host tok source run =>
    rw [eval]
    exact (runHost_keeps source run).placedAt tok
  | index tok target position =>
    rw [eval, Expr.assigned]
    refine (eval_keeps sv target).bind fun t => (eval_keeps sv position).before fun i => ?_
    exact ((keeps_ofTraced _).placedAt tok).before fun v => keeps_settle v
  | foreign label =>
    rw [eval]
    exact keeps_fail _

/-- A row of expressions, evaluated one after the other, changes what they assign. -/
theorem evalAll_keeps (sv : Services) (es : List Expr) :
    (evalAll sv es).Keeps (Expr.assignedAll es) := by
  cases es with
  | nil => exact keeps_pure _
  | cons e es =>
    rw [evalAll, Expr.assignedAll]
    exact (eval_keeps sv e).bind fun v => (evalAll_keeps sv es).before fun vs => keeps_pure _

end

/-! ### Programs -/

theorem reporting_keeps {names : List String} {x : Action Value} (h : x.Keeps names) (e : Expr) :
    (reporting e x).Keeps names := by
  intro s
  have hx := h s
  unfold reporting
  rcases hs : x s with ⟨f | v, s'⟩ <;> rw [hs] at hx <;> exact hx

/-- A program changes what its expressions assign. -/
theorem evalFrom_keeps (sv : Services) (v : Value) (prog : Program) :
    (evalFrom sv v prog).Keeps (Expr.assignedAll prog) := by
  induction prog generalizing v with
  | nil => exact keeps_pure v
  | cons e prog ih =>
    rw [evalFrom, Expr.assignedAll]
    exact (reporting_keeps (eval_keeps sv e) e).bind fun w => ih w

/-- Evaluation changes only what the tree assigns.  Whether it comes to a value or fails on the
way, the enclosing scopes are as before, and so is every name in the innermost scope that is not
on the left of an `=` node somewhere in the tree.  This holds of single trees and of programs.  An
assignment whose right side fails is not made: its name is as before, unless the right side itself
assigns to it. -/
theorem evaluation_changes_assigned (sv : Services) (s : EvalState) :
    (∀ e, (eval sv e s).2.env.outer = s.env.outer ∧
      ∀ name, name ∉ e.assigned → (eval sv e s).2.env.inner.get? name = s.env.inner.get? name) ∧
    (∀ prog : Program, (evalProgram sv prog s).2.env.outer = s.env.outer ∧
      ∀ name, (∀ e ∈ prog, name ∉ e.assigned) →
        (evalProgram sv prog s).2.env.inner.get? name = s.env.inner.get? name) ∧
    ∀ tok head args right f s', eval sv right s = (.error f, s') →
      eval sv (.binary tok (.message head args) .assign right) s = (.error f, s') ∧
      (head.name ∉ right.assigned → s'.env.inner.get? head.name = s.env.inner.get? head.name) := by
  refine ⟨fun e => ?_, fun prog => ?_, fun tok head args right f s' hfail => ?_⟩
  · have hkeeps := eval_keeps sv e s
    exact ⟨hkeeps.outer, hkeeps.inner⟩
  · have hkeeps : s.env.Keeps (Expr.assignedAll prog) (evalProgram sv prog s).2.env :=
      evalFrom_keeps sv .nil prog s
    refine ⟨hkeeps.outer, fun name hname => hkeeps.inner name fun hmem => ?_⟩
    obtain ⟨e, he, hassigned⟩ := Expr.mem_assignedAll.mp hmem
    exact hname e he hassigned
  · have hkeeps := eval_keeps sv right s
    rw [hfail] at hkeeps
    rw [eval]
    exact ⟨bind_error hfail, hkeeps.inner head.name⟩

/-- A list that assigns `x` and then fails at a name that is not bound: `y` and the enclosing
scope are as before.  The assignment of that unbound name to `y` is not made either. -/
theorem evaluation_changes_assigned_in_list :
    let x : MessageHead := ⟨.none, "x", false⟩
    let y : MessageHead := ⟨.none, "y", false⟩
    let missing := Expr.message ⟨.none, "missing", false⟩ []
    let items := Expr.list .none [.binary .none (.message x []) .assign (.int .none 1), missing]
    let s : EvalState :=
      { env := { inner := [("x", .int 7), ("y", .int 5)], outer := [Scope.root] } }
    let after := (eval {} items s).2.env
    (eval {} items s).1.isOk = false ∧ (after.inner.get? "x").any (·.same (.int 1)) = true ∧
      after.inner.get? "y" = some (.int 5) ∧ after.outer = [Scope.root] ∧
      ∃ f s', eval {} missing s = (.error f, s') ∧
        eval {} (.binary .none (.message y []) .assign missing) s = (.error f, s') ∧
        s'.env.inner.get? "y" = some (.int 5) := by
  intro x y missing items s after
  obtain ⟨hsingle, -, hfailed⟩ := evaluation_changes_assigned {} s
  obtain ⟨houter, hinner⟩ := hsingle items
  obtain ⟨hfail, hkept⟩ := hfailed .none y [] missing _ _ rfl
  refine ⟨by decide +kernel, by decide +kernel, ?_, houter, _, _, rfl, hfail, ?_⟩
  · exact hinner "y" (by decide)
  · exact hkept (by decide)

end Eval

end TextScript
