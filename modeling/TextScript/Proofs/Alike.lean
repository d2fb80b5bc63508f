/-
TextScript/Proofs/Alike.lean

Trees that are evaluated alike.

Evaluation passes the tokens of a tree on to failures and to what it reports, and never looks at
them: from the same scopes, two trees that differ in their tokens leave the same scopes and come
to the same value, or to failures that differ in their places (`eval_alike`).  Two actions that
come to the same in this sense are `Alike`.  All steps of an evaluation are, and whatever puts
actions together keeps it so, so each form of tree is evaluated alike if its parts are, and
programs if their expressions are (`evalFrom_alike_of`).
-/
import Mathlib.Data.List.Forall2
import TextScript.Proofs.Evaluation
import TextScript.Proofs.Unplaced

namespace TextScript

variable {α β : Type} {sv : Services}

/-! ### Actions that come to the same -/

/-- A failure that is given a place is the same but for it. -/
theorem Failure.unplaced_placeAt (f : Failure) (p : Position) :
    (f.placeAt p).unplaced = f.unplaced := by
  have hreport : ∀ r : Report,
      { (if r.place.line = 0 ∧ 0 < p.line then { r with place := p } else r) with
        place := Position.unknown } = { r with place := Position.unknown } := by
    intro r
    split <;> rfl
  cases f with
  | plain m => rfl
  | coded r => exact congrArg Failure.coded (hreport r)
  | wrapped r c => exact congrArg (Failure.wrapped · c) (hreport r)

namespace Action

/-- The same value, or failures that differ in their places, and the same scopes. -/
structure Same (a b : Except Failure α × EvalState) : Prop where
  result : a.1.mapError Failure.unplaced = b.1.mapError Failure.unplaced
  scopes : a.2.env = b.2.env

/-- From the same scopes, the actions come to the same. -/
def Alike (x y : Action α) : Prop :=
  ∀ s t : EvalState, s.env = t.env → Same (x s) (y t)

variable {x y z : Action α} {f g : α → Action β}

theorem Same.symm {a b : Except Failure α × EvalState} (h : Same a b) : Same b a :=
  ⟨h.result.symm, h.scopes.symm⟩

theorem Same.trans {a b c : Except Failure α × EvalState} (h : Same a b)
    (h' : Same b c) : Same a c :=
  ⟨h.result.trans h'.result, h.scopes.trans h'.scopes⟩

theorem Alike.trans (h : x.Alike y) (h' : y.Alike z) : x.Alike z := by
  intro s t hst
  exact (h s t hst).trans (h' t t rfl)

theorem Alike.symm (h : x.Alike y) : y.Alike x := by
  intro s t hst
  exact (h t s hst.symm).symm

theorem alike_lift (r : Except Failure α) : (lift r).Alike (lift r) :=
  fun _ _ hst => ⟨rfl, hst⟩

theorem alike_pure (a : α) : Alike (pure a : Action α) (pure a) :=
  alike_lift (.ok a)

theorem alike_fail (e : Failure) : Alike (fail e : Action α) (fail e) :=
  alike_lift (.error e)

theorem alike_ofTraced (t : Traced α) : (ofTraced t).Alike (ofTraced t) :=
  fun _ _ hst => ⟨rfl, hst⟩

theorem alike_env : env.Alike env :=
  fun _ _ hst => ⟨congrArg (Except.mapError Failure.unplaced ∘ Except.ok) hst, hst⟩

theorem alike_bindName (name : String) (v : Value) : (bindName name v).Alike (bindName name v) :=
  fun _ _ hst => ⟨rfl, congrArg (fun e => e.set name v) hst⟩

theorem alike_settle (v : Value) : (settle v).Alike (settle v) := by
  rintro ⟨env, events⟩ ⟨_, events'⟩ rfl
  exact ⟨rfl, rfl⟩

theorem alike_adopt (v : Value) : (adopt v).Alike (adopt v) := by
  rintro ⟨env, events⟩ ⟨_, events'⟩ rfl
  exact ⟨rfl, rfl⟩

/-- Two actions that are alike fail both, or come to one value. -/
theorem Alike.cases {s t : EvalState} (h : x.Alike y) (hst : s.env = t.env) :
    (∃ e e' s' t', x s = (.error e, s') ∧ y t = (.error e', t') ∧ e.unplaced = e'.unplaced ∧
      s'.env = t'.env) ∨
      ∃ a s' t', x s = (.ok a, s') ∧ y t = (.ok a, t') ∧ s'.env = t'.env := by
  obtain ⟨hres, henv⟩ := h s t hst
  rcases hx : x s with ⟨e | a, s'⟩ <;> rcases hy : y t with ⟨e' | b, t'⟩ <;>
    rw [hx, hy] at hres henv
  · exact .inl ⟨e, e', s', t', rfl, rfl, Except.error.inj hres, henv⟩
  · cases hres
  · cases hres
  · cases hres
    exact .inr ⟨a, s', t', rfl, rfl, henv⟩

/-- Computations in a row are alike if the first are, and the second for each value. -/
theorem Alike.bind (h : x.Alike y) (hfg : ∀ a, (f a).Alike (g a)) : (x >>= f).Alike (y >>= g) := by
  intro s t hst
  rcases h.cases hst with ⟨e, e', s', t', hx, hy, he, henv⟩ | ⟨a, s', t', hx, hy, henv⟩
  · rw [bind_error hx, bind_error hy]
    exact ⟨congrArg Except.error he, henv⟩
  · rw [bind_ok hx, bind_ok hy]
    exact hfg a s' t' henv

/-- Placing the failures of an action makes no other difference. -/
theorem same_placedAt (x : Action α) (tok : Token) (s : EvalState) :
    Same (x.placedAt tok s) (x s) := by
  unfold Action.placedAt
  rcases x s with ⟨e | a, s'⟩
  · exact ⟨congrArg Except.error (Failure.unplaced_placeAt e tok.place), rfl⟩
  · exact ⟨rfl, rfl⟩

/-- Where a failure is placed makes no difference. -/
theorem Alike.placedAt (h : x.Alike y) (tok tok' : Token) :
    (x.placedAt tok).Alike (y.placedAt tok') := by
  intro s t hst
  exact ((same_placedAt x tok s).trans (h s t hst)).trans (same_placedAt y tok' t).symm

end Action

/-! ### Trees without tokens -/

/-- The head of a message without its token. -/
def MessageHead.bare (head : MessageHead) : MessageHead :=
  { head with tok := .none }

mutual

/-- The tree without its tokens. -/
def Expr.bare : Expr → Expr
  | .message head args => .message head.bare (Expr.bareAll args)
  | .send _ receiver head args => .send .none receiver.bare head.bare (Expr.bareAll args)
  | .int _ value => .int .none value
  | .text _ value => .text .none value
  | .concat _ parts => .concat .none (Expr.bareAll parts)
  | .unary _ op operand => .unary .none op operand.bare
  | .binary _ left op right => .binary .none left.bare op right.bare
  | .index _ target position => .index .none target.bare position.bare
  | .list _ items => .list .none (Expr.bareAll items)
  | .host _ source run => .host .none source run
  | .foreign label => .foreign label

/-- The trees without their tokens. -/
def Expr.bareAll : List Expr → List Expr
  | [] => []
  | e :: es => e.bare :: Expr.bareAll es

end

@[simp] theorem Expr.bareAll_eq (es : List Expr) : Expr.bareAll es = es.map Expr.bare := by
  induction es with
  | nil => rfl
  | cons e es ih => rw [Expr.bareAll, ih, List.map_cons]

mutual

/-- What the place of a token is makes no difference once there is no token. -/
theorem Expr.bare_unplaced (e : Expr) : e.unplaced.bare = e.bare := by
  cases e with
  | message head args =>
    simp only [unplaced, bare, MessageHead.unplaced, MessageHead.bare, bareAll_unplacedAll]
  | send tok receiver head args =>
    simp only [unplaced, bare, MessageHead.unplaced, MessageHead.bare, bareAll_unplacedAll,
      bare_unplaced receiver]
  | int tok n => rfl
  | text tok v => rfl
  | concat tok parts => simp only [unplaced, bare, bareAll_unplacedAll]
  | unary tok op operand => simp only [unplaced, bare, bare_unplaced operand]
  | binary tok left op right => simp only [unplaced, bare, bare_unplaced left, bare_unplaced right]
  | index tok target position =>
    simp only [unplaced, bare, bare_unplaced target, bare_unplaced position]
  | list tok items => simp only [unplaced, bare, bareAll_unplacedAll]
  | host tok source run => rfl
  | foreign label => rfl

theorem Expr.bareAll_unplacedAll (es : List Expr) :
    Expr.bareAll (Expr.unplacedAll es) = Expr.bareAll es := by
  cases es with
  | nil => rfl
  | cons e es => rw [unplacedAll, bareAll, bareAll, bare_unplaced e, bareAll_unplacedAll es]

end

/-- Programs that differ in their places differ in their tokens only. -/
theorem map_bare_of_unplaced {prog prog' : Program}
    (h : prog.map Expr.unplaced = prog'.map Expr.unplaced) :
    prog.map Expr.bare = prog'.map Expr.bare := by
  have hbare (es : List Expr) : es.map Expr.bare = (es.map Expr.unplaced).map Expr.bare := by
    simp [Expr.bare_unplaced]
  rw [hbare, h, ← hbare]

/-- Only a message is a message without its places. -/
theorem Expr.bare_ne_message {e : Expr} (h : ∀ head args, e ≠ .message head args)
    (head : MessageHead) (args : List Expr) : e.bare ≠ .message head args := by
  cases e with
  | message head' args' => exact absurd rfl (h head' args')
  | _ => exact fun heq => by cases heq

namespace Eval

open TextScript.Action

/-! ### Steps of evaluation -/

theorem concatenate_alike (sv : Services) (parts : List Value) :
    (concatenate sv parts).Alike (concatenate sv parts) :=
  alike_lift _

/-- What a message comes to does not hang on what was reported before. -/
theorem send_alike (sv : Services) (recv : Value) (name : String) (args : List Value) :
    (send sv recv name args).Alike (send sv recv name args) := by
  unfold send
  split
  · exact alike_ofTraced _
  · split
    · exact alike_lift _
    · exact alike_pure _
    · exact alike_pure _
    · exact alike_fail _

/-- Nor does what a name is bound to. -/
theorem lookUp_alike (name : String) (n : Nat) : (lookUp name n).Alike (lookUp name n) := by
  unfold lookUp
  apply alike_env.bind
  intro env
  split
  · exact alike_fail _
  · split
    · exact alike_fail _
    · exact alike_pure _

/-- Nor does what host code comes to. -/
theorem runHost_alike (source : String) (run : Bindings → Except Failure Value) :
    (runHost source run).Alike (runHost source run) := by
  unfold runHost
  apply alike_env.bind
  intro env
  split
  · exact alike_adopt _
  · exact alike_fail _

/-! ### Forms of trees -/

section Forms

variable {tok tok' : Token}
variable {e e' left right receiver receiver' target target' position position' : Expr}
variable {es es' : List Expr} {head head' : MessageHead} {op : BinaryOp}

/-- A row of expressions, from its first and the rest. -/
theorem evalAll_cons_alike (h : (eval sv e).Alike (eval sv e'))
    (hs : (evalAll sv es).Alike (evalAll sv es')) :
    (evalAll sv (e :: es)).Alike (evalAll sv (e' :: es')) := by
  rw [evalAll, evalAll]
  apply h.bind
  intro v
  exact hs.bind fun vs => alike_pure _

/-- A concatenation is alike if its parts are. -/
theorem concat_alike (h : (evalAll sv es).Alike (evalAll sv es')) (tok tok' : Token) :
    (eval sv (.concat tok es)).Alike (eval sv (.concat tok' es')) := by
  rw [eval, eval]
  exact h.bind fun vs => (concatenate_alike sv vs).placedAt _ _

/-- A literal with interpolations is evaluated like the message that it stands for. -/
theorem eval_concatenate (hname : head.name = concatenateName) :
    eval sv (.message head es) = eval sv (.concat head.tok es) := by
  rw [eval, eval, if_pos hname]

/-- So is a call, of the same name with as many arguments. -/
theorem message_alike (hname : head.name = head'.name) (hlen : es.length = es'.length)
    (h : (evalAll sv es).Alike (evalAll sv es')) :
    (eval sv (.message head es)).Alike (eval sv (.message head' es')) := by
  by_cases hconcat : head.name = concatenateName
  · rw [eval_concatenate hconcat, eval_concatenate (hname ▸ hconcat)]
    exact concat_alike h _ _
  · rw [eval, eval, ← hname, ← hlen, if_neg hconcat, if_neg hconcat]
    exact (lookUp_alike _ _).placedAt _ _

/-- So is a message to a receiver. -/
theorem sent_alike (hname : head.name = head'.name)
    (hreceiver : (eval sv receiver).Alike (eval sv receiver'))
    (h : (evalAll sv es).Alike (evalAll sv es')) :
    (eval sv (.send tok receiver head es)).Alike (eval sv (.send tok' receiver' head' es')) := by
  rw [eval, eval, ← hname]
  apply hreceiver.bind
  intro recv
  exact h.bind fun vs => (send_alike sv recv head.name vs).placedAt _ _

/-- So is a list. -/
theorem list_alike (h : (evalAll sv es).Alike (evalAll sv es')) :
    (eval sv (.list tok es)).Alike (eval sv (.list tok' es')) := by
  rw [eval, eval]
  exact h.bind fun vs => alike_settle _

/-- So is an index. -/
theorem index_alike (htarget : (eval sv target).Alike (eval sv target'))
    (hposition : (eval sv position).Alike (eval sv position')) :
    (eval sv (.index tok target position)).Alike (eval sv (.index tok' target' position')) := by
  rw [eval, eval]
  apply htarget.bind
  intro t
  apply hposition.bind
  intro i
  exact ((alike_ofTraced _).placedAt _ _).bind fun v => alike_settle v

/-- An operator is evaluated alike without the tokens of its sides, if these are. -/
theorem binary_alike (hleft : (eval sv left).Alike (eval sv left.bare))
    (hright : (eval sv right).Alike (eval sv right.bare)) :
    (eval sv (.binary tok left op right)).Alike
      (eval sv (.binary tok' left.bare op right.bare)) := by
  cases operatorCase left op with
  | @assign head args hname =>
    -- the left side is not evaluated, only its name is used
    rw [hname, Expr.bare, eval, eval]
    exact hright.bind fun v => alike_bindName head.name v
  | noTarget hother =>
    rw [eval_no_target hother, eval_no_target (Expr.bare_ne_message hother)]
    exact (alike_fail _).placedAt _ _
  | and =>
    rw [eval, eval]
    apply hleft.bind
    intro l
    split
    · exact hright
    · exact alike_pure l
  | or =>
    rw [eval, eval]
    apply hleft.bind
    intro l
    split
    · exact alike_pure l
    · exact hright
  | both h₁ h₂ h₃ =>
    rw [eval_operator h₁ h₂ h₃, eval_operator h₁ h₂ h₃]
    apply hleft.bind
    intro l
    apply hright.bind
    intro r
    exact (alike_ofTraced _).placedAt _ _

end Forms

/-! ### Trees -/

mutual

/-- A tree is evaluated like the tree without tokens. -/
theorem eval_bare (sv : Services) (e : Expr) : (eval sv e).Alike (eval sv e.bare) := by
  cases e with
  | int tok n => exact alike_pure _
  | text tok t => exact alike_pure _
  | concat tok parts => exact concat_alike (evalAll_bare sv parts) _ _
  | list tok items => exact list_alike (evalAll_bare sv items)
  | message head args =>
    have hlen : args.length = (Expr.bareAll args).length := by simp
    exact message_alike rfl hlen (evalAll_bare sv args)
  | send tok receiver head args =>
    exact sent_alike rfl (eval_bare sv receiver) (evalAll_bare sv args)
  | unary tok op operand =>
    rw [Expr.bare, eval, eval]
    exact (eval_bare sv operand).bind fun v => (alike_lift _).placedAt _ _
  | binary tok left op right => exact binary_alike (eval_bare sv left) (eval_bare sv right)
  | host tok source run =>
    rw [Expr.bare, eval, eval]
    exact (runHost_alike source run).placedAt _ _
  | index tok target position => exact index_alike (eval_bare sv target) (eval_bare sv position)
  | foreign label => exact alike_fail _

theorem evalAll_bare (sv : Services) (es : List Expr) :
    (evalAll sv es).Alike (evalAll sv (Expr.bareAll es)) := by
  cases es with
  | nil => exact alike_pure _
  | cons e es => exact evalAll_cons_alike (eval_bare sv e) (evalAll_bare sv es)

end

/-- Trees that differ in their tokens only are evaluated alike. -/
theorem eval_alike {e e' : Expr} (h : e.bare = e'.bare) : (eval sv e).Alike (eval sv e') := by
  have h₁ := eval_bare sv e
  have h₂ := eval_bare sv e'
  rw [h] at h₁
  exact h₁.trans h₂.symm

/-! ### Programs -/

/-- What is reported makes no difference. -/
theorem reporting_alike {x y : Action Value} (h : x.Alike y) (e e' : Expr) :
    (reporting e x).Alike (reporting e' y) := by
  intro s t hst
  unfold reporting
  rcases h.cases hst with ⟨f, f', s', t', hx, hy, hf, henv⟩ | ⟨v, s', t', hx, hy, henv⟩
  · rw [hx, hy]
    exact ⟨congrArg Except.error hf, henv⟩
  · rw [hx, hy]
    exact ⟨rfl, henv⟩

/-- Programs are evaluated alike if their expressions are. -/
theorem evalFrom_alike_of {prog prog' : Program}
    (h : List.Forall₂ (fun e e' => (eval sv e).Alike (eval sv e')) prog prog') (v : Value) :
    (evalFrom sv v prog).Alike (evalFrom sv v prog') := by
  induction h generalizing v with
  | nil => exact alike_pure v
  | cons he _ ih =>
    rw [evalFrom, evalFrom]
    exact (reporting_alike he _ _).bind fun w => ih w

/-- Programs that differ in their tokens only are evaluated alike. -/
theorem evalFrom_bare {prog prog' : Program} (h : prog.map Expr.bare = prog'.map Expr.bare)
    (v : Value) :
    (evalFrom sv v prog).Alike (evalFrom sv v prog') := by
  rw [← List.forall₂_eq_eq_eq, List.forall₂_map_left_iff, List.forall₂_map_right_iff] at h
  exact evalFrom_alike_of (h.imp fun e e' he => eval_alike he) v

end Eval

end TextScript
