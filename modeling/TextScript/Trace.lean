/-
TextScript/Trace.lean

What happens on the way to a result: the events that a reader or an evaluator reports as it works. A
traced computation has a result or a failure, and in either case all events up to there, in order.
-/
import TextScript.Failure.Basic

namespace TextScript

/-- Something worth reporting. -/
inductive Event where
  /-- A literal with this many interpolations was read; it begins at `place`. -/
  | literalRead (place : Position) (interpolations : Nat)
  /-- The code of an interpolation, which begins at `place`, was handed to its reader. -/
  | codeHanded (code : String) (place : Position)
  /-- The code of an interpolation was compiled by the embedding program's engine. -/
  | codeCompiled (place : Position) (source : String)
  /-- A template was rendered. -/
  | formatRendered (directives args length : Nat)
  /-- An expression of a program failed. -/
  | evaluationFailed (expression failure : String)
deriving DecidableEq, Repr

/-- A line of a log: its message and its named values. -/
structure LogEntry where
  message : String
  attributes : List (String × String)
deriving DecidableEq, Repr

/-- The log entry of an event. Handing code over is not logged. -/
def Event.log? : Event → Option LogEntry
  | literalRead place n => some
    { message := "interpolated literal parsed"
      attributes :=
        [("at", place.render), ("segments", toString (n + 1)), ("interpolations", toString n)] }
  | codeHanded _ _ => none
  | codeCompiled place source => some
    { message := "embedded expression compiled"
      attributes := [("at", place.render), ("source", source)] }
  | formatRendered directives args length => some
    { message := "format rendered"
      attributes :=
        [("directives", toString directives), ("args", toString args),
         ("length", toString length)] }
  | evaluationFailed expression failure => some
    { message := "evaluation failed"
      attributes := [("expression", expression), ("error", failure)] }

/-- A result or a failure, with the events up to there. -/
structure Traced (α : Type) where
  result : Except Failure α
  events : List Event := []

namespace Traced

variable {α β : Type}

/-- A result without events. -/
def ok (a : α) : Traced α :=
  ⟨.ok a, []⟩

/-- A failure without events. -/
def fail (f : Failure) : Traced α :=
  ⟨.error f, []⟩

/-- A result or a failure without events. -/
def lift (r : Except Failure α) : Traced α :=
  ⟨r, []⟩

/-- One computation after another. -/
def andThen (x : Traced α) (f : α → Traced β) : Traced β :=
  match x.result with
  | .error e => ⟨.error e, x.events⟩
  | .ok a => ⟨(f a).result, x.events ++ (f a).events⟩

instance : Monad Traced where
  pure := ok
  bind := andThen

/-- Reports an event. -/
def report (e : Event) : Traced Unit :=
  ⟨.ok (), [e]⟩

@[simp] theorem result_pure (a : α) : (pure a : Traced α).result = .ok a := rfl

theorem result_bind (x : Traced α) (f : α → Traced β) :
    (x >>= f).result = x.result.bind fun a => (f a).result := by
  show (andThen x f).result = _
  unfold andThen
  cases x.result <;> rfl

end Traced

end TextScript
