/-
TextScript/Proofs/Sessions.lean

A session goes the same way in one piece or in two.

The two pieces give the expressions of the whole, but for places, and evaluation never looks at
these: the whole is evaluated like the expressions of the first piece followed by those of the
second (`evalFrom_alike`), and evaluating these in a row is evaluating them one list after the
other (`evalFrom_append`).  What was evaluated before is left in the scopes, and its value is
forgotten as soon as there is another one.
-/
import TextScript.Proofs.Alike
import TextScript.Proofs.Joining
import TextScript.Session

namespace TextScript

variable {sv : Services}

namespace Eval

open TextScript.Action

/-! ### Programs -/

/-- Programs that differ in their places are evaluated alike. -/
theorem evalFrom_alike {prog prog' : Program} (h : prog.map Expr.unplaced = prog'.map Expr.unplaced)
    (v : Value) : (evalFrom sv v prog).Alike (evalFrom sv v prog') :=
  evalFrom_bare (map_bare_of_unplaced h) v

/-- Programs one after the other are evaluated one after the other. -/
theorem evalFrom_append (sv : Services) (v : Value) (prog₁ prog₂ : Program) :
    evalFrom sv v (prog₁ ++ prog₂) = evalFrom sv v prog₁ >>= fun w => evalFrom sv w prog₂ := by
  induction prog₁ generalizing v with
  | nil => rfl
  | cons e prog₁ ih =>
    rw [List.cons_append, evalFrom, evalFrom, Action.bind_andThen]
    exact congrArg _ (funext fun w => ih w)

/-- The value before a program is forgotten, if there is anything in the program. -/
theorem evalFrom_forgets {prog : Program} (h : prog ≠ []) (v w : Value) :
    evalFrom sv v prog = evalFrom sv w prog := by
  cases prog with
  | nil => exact absurd rfl h
  | cons e prog => rw [evalFrom, evalFrom]

/-- The value before a program has no bearing on the scopes after it. -/
theorem evalFrom_env (prog : Program) (v w : Value) (s : EvalState) :
    (evalFrom sv v prog s).2 = (evalFrom sv w prog s).2 := by
  cases prog with
  | nil => rfl
  | cons e prog => rw [evalFrom_forgets (List.cons_ne_nil e prog) v w]

variable {prog prog₁ prog₂ : Program} {first mid : EvalState}

/-- If the first of two pieces fails, then so does the whole. -/
theorem evalFrom_stops (whole : EvalState) {f : Failure}
    (hprog : prog.map Expr.unplaced = (prog₁ ++ prog₂).map Expr.unplaced)
    (hfirst : evalFrom sv .nil prog₁ first = (.error f, mid)) (henv : whole.env = first.env) :
    Same (evalFrom sv .nil prog whole) (.error f, mid) := by
  have halike : Same (evalFrom sv .nil prog whole) (evalFrom sv .nil (prog₁ ++ prog₂) first) :=
    evalFrom_alike hprog .nil whole first henv
  rw [evalFrom_append, bind_error hfirst] at halike
  exact halike

/-- Otherwise the whole leaves the scopes that the second piece leaves after the first, and comes
to the same if there is anything in it. -/
theorem evalFrom_goes_on (whole second : EvalState) {w : Value}
    (hprog : prog.map Expr.unplaced = (prog₁ ++ prog₂).map Expr.unplaced)
    (hfirst : evalFrom sv .nil prog₁ first = (.ok w, mid)) (henv : whole.env = first.env)
    (hsecond : mid.env = second.env) :
    (evalFrom sv .nil prog whole).2.env = (evalFrom sv .nil prog₂ second).2.env ∧
      (prog₂ ≠ [] → Same (evalFrom sv .nil prog whole) (evalFrom sv .nil prog₂ second)) := by
  have halike : Same (evalFrom sv .nil prog whole) (evalFrom sv .nil (prog₁ ++ prog₂) first) :=
    evalFrom_alike hprog .nil whole first henv
  rw [evalFrom_append, bind_ok hfirst] at halike
  have hrest := halike.trans (evalFrom_alike rfl w mid second hsecond)
  constructor
  · rw [hrest.scopes, evalFrom_env prog₂ w .nil]
  · intro hne
    rwa [evalFrom_forgets hne w .nil] at hrest

end Eval

/-! ### Sessions -/

/-- Whatever engine a session has, the place of code makes no difference to what it is read as: the
engine is not given it. -/
theorem HostEngine.reader_placeless (engine : HostEngine) : engine.reader.Placeless := by
  intro code q₁ q₂
  unfold HostEngine.reader
  dsimp only
  split
  · rfl
  · rfl

namespace Session

variable {s : Session} {src : List Char} {prog : Program}

theorem parseOptions_placeless (s : Session) : s.parseOptions.Placeless := by
  intro read h
  unfold parseOptions at h
  dsimp only at h
  split at h
  · cases h
    exact s.host.reader_placeless
  · cases h

/-- Evaluates a source and then, if that does not fail, another one. -/
def evalThen (s : Session) (src₁ src₂ : List Char) : Traced Value × Session :=
  let (t, s') := s.eval src₁
  match t.result with
  | .error _ => (t, s')
  | .ok _ => s'.eval src₂

theorem eval_of_run {r : Except Failure Value} {st : EvalState}
    (h : (s.parse src).result = .ok prog) (hrun : Eval.evalFrom s.services .nil prog
      { env := s.env, events := (s.parse src).events } = (r, st)) :
    s.eval src = (⟨r, st.events⟩, { s with env := st.env }) := by
  unfold eval
  simp only [h, Eval.evalProgram, hrun]

theorem parse_of_failure_none (h : (Source.parse s.parseOptions src).failure = none) :
    (s.parse src).result = .ok (Source.parse s.parseOptions src).program := by
  rw [parse, Parsed.toTraced, h]

/-- Splitting a source at a line end into two that are accepted makes no difference, apart from
places: not to the expressions, nor to the bindings that evaluation leaves, nor to the value or
the failure it comes to if there is anything in the second of the two. -/
theorem split_at_line_end (s : Session) (src₁ src₂ : List Char) (prog₁ prog₂ : Program)
    (h₁ : (s.parse src₁).result = .ok prog₁) (h₂ : (s.parse src₂).result = .ok prog₂) :
    (∃ prog, (s.parse (src₁ ++ '\n' :: src₂)).result = .ok prog ∧
      prog.map Expr.unplaced = (prog₁ ++ prog₂).map Expr.unplaced) ∧
    (s.eval (src₁ ++ '\n' :: src₂)).2 = (s.evalThen src₁ src₂).2 ∧
    (prog₂ ≠ [] →
      (s.eval (src₁ ++ '\n' :: src₂)).1.result.mapError Failure.unplaced
        = (s.evalThen src₁ src₂).1.result.mapError Failure.unplaced) := by
  have hjoin : (s.parse (src₁ ++ '\n' :: src₂)).outcome (List.map Expr.unplaced)
      = some ((prog₁ ++ prog₂).map Expr.unplaced) := parse_join s.parseOptions_placeless h₁ h₂
  obtain ⟨prog, hparse, hprog⟩ := Traced.ok_of_outcome hjoin
  refine ⟨⟨prog, hparse, hprog⟩, ?_⟩
  let whole : EvalState := { env := s.env, events := (s.parse (src₁ ++ '\n' :: src₂)).events }
  obtain ⟨r, st, hrun⟩ : ∃ r st, Eval.evalFrom s.services .nil prog whole = (r, st) := ⟨_, _, rfl⟩
  rw [eval_of_run hparse hrun]
  unfold evalThen
  rcases hfirst : Eval.evalFrom s.services .nil prog₁
    { env := s.env, events := (s.parse src₁).events } with ⟨f | w, mid⟩
  · -- the first piece fails, so the second one is not evaluated
    have hsame := Eval.evalFrom_stops whole hprog hfirst rfl
    rw [hrun] at hsame
    rw [eval_of_run h₁ hfirst]
    exact ⟨congrArg (fun env => { s with env }) hsame.scopes, fun _ => hsame.result⟩
  · let later : Session := { s with env := mid.env }
    have hparse₂ : (later.parse src₂).result = .ok prog₂ := h₂
    let second : EvalState := { env := mid.env, events := (later.parse src₂).events }
    obtain ⟨r', st', hrun'⟩ : ∃ r st, Eval.evalFrom s.services .nil prog₂ second = (r, st) :=
      ⟨_, _, rfl⟩
    obtain ⟨henv, hsame⟩ := Eval.evalFrom_goes_on whole second hprog hfirst rfl rfl
    rw [hrun, hrun'] at henv hsame
    rw [eval_of_run h₁ hfirst]
    show _ = (later.eval src₂).2 ∧ (_ → _ = (later.eval src₂).1.result.mapError _)
    rw [eval_of_run hparse₂ hrun']
    exact ⟨congrArg (fun env => { s with env }) henv, fun hne => (hsame hne).result⟩

/-- An engine for code that is a decimal numeral. -/
def numeralEngine : HostEngine where
  compile code :=
    match Numeral.natural? 10 code.toList with
    | some n => .ok fun _ => .ok (.number (Int64.ofNat n))
    | none => .error (.plain "unexpected token")

/-- The assignment of a literal whose code is handed to the engine of the session, and on the next
line the name that it binds. -/
theorem split_at_line_end_numeral :
    let s : Session := { settings.interpolation := Settings.hostEngine, host := numeralEngine }
    let src₁ := "a = \"#\x7b 12 \x7d\"".toList
    let src₂ := "a".toList
    let prog₁ := (Source.parse s.parseOptions src₁).program
    let prog₂ := (Source.parse s.parseOptions src₂).program
    (s.parse src₁).result = .ok prog₁ ∧ (s.parse src₂).result = .ok prog₂ ∧ prog₂ ≠ [] ∧
      (s.eval (src₁ ++ '\n' :: src₂)).2 = (s.evalThen src₁ src₂).2 ∧
      (s.eval (src₁ ++ '\n' :: src₂)).1.result.mapError Failure.unplaced
        = (s.evalThen src₁ src₂).1.result.mapError Failure.unplaced ∧
      (s.evalThen src₁ src₂).1.result.toOption.any (·.same (.text (.ofString "12"))) = true := by
  intro s src₁ src₂ prog₁ prog₂
  have h₁ : (s.parse src₁).result = .ok prog₁ := parse_of_failure_none (by decide +kernel)
  have h₂ : (s.parse src₂).result = .ok prog₂ := parse_of_failure_none (by decide +kernel)
  have hlen : prog₂.length = 1 := by decide +kernel
  have hne : prog₂ ≠ [] := List.ne_nil_of_length_pos (by omega)
  obtain ⟨-, henv, hres⟩ := split_at_line_end s src₁ src₂ prog₁ prog₂ h₁ h₂
  exact ⟨h₁, h₂, hne, henv, hres hne, by decide +kernel⟩

end Session

end TextScript
