/-
TextScript/Format/Render.lean

Rendering a template with arguments. The template is read once from the left; each insertion and
each block takes the next argument, and the body of a block is rendered with arguments of its own.
Nothing is returned of a rendering that fails.

An engine may bound the size of its output. The bound is tested before each item, at the end of each
body, and before a value is written, so that no padding is made that would not fit.

The renderer asks for the members of a value and for what a block makes of each, and takes the
answers in any monad (`renderWith`). With an engine they are what its conversions give (`render`).
-/
import TextScript.Format.Directive
import TextScript.Text.Builder
import TextScript.Trace
import TextScript.Value.Capability

namespace TextScript

/-- A renderer of templates. An output bound of zero or less means none. -/
structure Engine where
  caps : Capabilities := .native
  maxOutput : Int := 0

instance : Inhabited Engine := ⟨{}⟩

/-- The greatest width of an insertion: two to the twentieth. -/
def maxWidth : Nat := 1048576

/-- What has been rendered so far, and how many directives took an argument. -/
structure Output where
  out : Builder := {}
  directives : Nat := 0

namespace Engine

/-- The failure of an output that would exceed a bound. -/
def tooLarge (bound : Int) : Failure :=
  .make .outputTooLarge (some [("Max", .number bound)])

/-- The greatest width that an insertion may ask for. -/
def widthLimit (e : Engine) : Nat :=
  if 0 < e.maxOutput then min e.maxOutput.toNat maxWidth else maxWidth

/-- The number that a run of digits writes. Once past the bound it no longer grows, so that a long
run stays small. -/
def widthOf (bound : Nat) (digits : List Int) : Nat :=
  digits.foldl (fun w d => if w ≤ bound then w * 10 + (d - 0x30).toNat else w) 0

/-- Whether an output of some size exceeds the engine's bound. -/
def exceeds (e : Engine) (size : Nat) : Bool :=
  0 < e.maxOutput && e.maxOutput < size

/-- Fails if the output exceeds the bound. -/
def checkSize (e : Engine) (o : Output) : Except Failure Unit :=
  if e.exceeds o.out.length then .error (tooLarge e.maxOutput) else .ok ()

/-- The next of the arguments, after `used` of them. -/
def nextArg (args : List Value) (used : Nat) (spelling : List Int) : Except Failure Value :=
  match args[used]? with
  | some v => .ok v
  | none => .error (.make .argumentUnderflow (some
      [("Directive", .text (Text.mk spelling).toString), ("Index", .number (used + 1)),
       ("Count", .number args.length)]))

/-- A text padded with spaces to a width; a longer text is kept whole. -/
def padded (t : Text) (width : Nat) (left : Bool) : List Int :=
  let spaces := List.replicate (width - t.length) (pointOf ' ')
  if left then t.points ++ spaces else spaces ++ t.points

/-- Writes the text of a value, padded to a width. -/
def insert (e : Engine) (v : Value) (width : Nat) (left : Bool) (o : Output) :
    Except Failure Output := do
  let t ← e.caps.textOf v
  if e.widthLimit < width then .error (tooLarge e.widthLimit)
  else if e.exceeds (o.out.length + max width t.length) then .error (tooLarge e.maxOutput)
  else .ok { o with out := o.out.write (padded t width left) }

/-- The arguments that a block gives to its body for one member. -/
def bodyArgs (e : Engine) (mode : BlockMode) (member : Value) : Except Failure (List Value) :=
  match mode with
  | .each => .ok [member]
  | .splat => e.caps.membersOf member
  | .pairs => (e.caps.halvesOf member).map fun (a, b) => [a, b]

/-- What a renderer asks about values: their members, and the arguments that a block gives to its
body for one of them. -/
structure Answers (m : Type → Type) where
  membersOf : Value → m (List Value)
  bodyArgs : BlockMode → Value → m (List Value)

/-- What an engine answers. -/
def answers (e : Engine) : Answers (Except Failure) :=
  { membersOf := e.caps.membersOf, bodyArgs := e.bodyArgs }

/-- Renders a template, after `used` of its arguments have been taken, as questions are answered. -/
def renderWith {m : Type → Type} [Monad m] [MonadLiftT (Except Failure) m] (ask : Answers m)
    (e : Engine) (src : List Int) (args : List Value) (used : Nat) (o : Output) : m Output :=
  match src with
  | [] => do
    e.checkSize o
    return o
  | c :: cs => do
    e.checkSize o
    let rest := (c :: cs).drop (Directive.read c cs).2
    match _h : (Directive.read c cs).1 with
    | .copy points => renderWith ask e rest args used { o with out := o.out.write points }
    | .insert spelling digits left =>
      let v ← nextArg args used spelling
      let o ← e.insert v (widthOf e.widthLimit digits) left
        { o with directives := o.directives + 1 }
      renderWith ask e rest args (used + 1) o
    | .block mode spelling body =>
      let v ← nextArg args used spelling
      let members ← ask.membersOf v
      let o ← members.foldlM (fun o member => do
        let inner ← ask.bodyArgs mode member
        renderWith ask e body inner 0 o) { o with directives := o.directives + 1 }
      renderWith ask e rest args (used + 1) o
termination_by src.length
decreasing_by
  all_goals
    have hpos := Directive.read_size_pos c cs
    first
      | exact Directive.read_body_lt _h
      | (simp only [List.length_drop, List.length_cons]; omega)

/-- Renders a template, after `used` of its arguments have been taken. -/
def render (e : Engine) (src : List Int) (args : List Value) (used : Nat) (o : Output) :
    Except Failure Output :=
  renderWith e.answers e src args used o

/-- Renders a template with arguments. -/
def format (e : Engine) (tmpl : Text) (args : List Value) : Traced Text :=
  match e.render tmpl.points args 0 {} with
  | .error f => .fail f
  | .ok o => ⟨.ok o.out.text, [.formatRendered o.directives args.length o.out.length]⟩

end Engine

end TextScript
