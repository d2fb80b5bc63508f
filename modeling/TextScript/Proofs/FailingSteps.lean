/-
TextScript/Proofs/FailingSteps.lean

The step that a rendering fails at.

A rendering can fail at five kinds of steps: taking an argument, enumerating a value, splitting
one, converting one to text, and adding to the output.  `StopsAt` says which step of which item it
is: all that comes before has been rendered, in the template, in the members of a block and in the
body.  A rendering fails exactly if there is such a step (`StopsAt.render`, `exists_stopsAt`).

The conversions may fail with whatever they like.  All that is asked of their failures is whether
they count as the cause that belongs to the step, and then they are passed on as they are; else
they are wrapped in a report of that cause (`Failure.ensure`).  Either way the failure counts as
the cause of its step, and the conversion's own failure is still there to be unwrapped.  A failure
that the catalogue does not describe and that wraps another is a report without a cause of its
own, and one that wraps several is a chain of them, in the order in which they are looked through.
-/
import TextScript.Proofs.Arguments

namespace TextScript

namespace Failure

variable {code : Code} {f own : Failure} {data : Data}

/-- A failure, and all that is left when it is unwrapped. -/
inductive Reaches : Failure → Failure → Prop
  | self (f : Failure) : Reaches f f
  | cause {r : Report} {c f : Failure} : Reaches c f → Reaches (wrapped r c) f

theorem report_make_code (code : Code) (data : Option Data) :
    (Report.make code data).code = code := by
  unfold Report.make
  split <;> rfl

theorem make_hasCode (h : code ≠ .unnamed) (data : Option Data) :
    (make code data).hasCode code = true := by
  unfold make
  split <;> simp [hasCode, report_make_code, h]

theorem ensure_hasCode (h : code ≠ .unnamed) (f : Failure) (data : Data) :
    (f.ensure code data).hasCode code = true := by
  unfold ensure
  split
  · next hcode => exact hcode
  · simp [wrap, hasCode, report_make_code, h]

theorem ensure_reaches (f : Failure) (code : Code) (data : Data) :
    (f.ensure code data).Reaches f := by
  unfold ensure
  split
  · exact .self f
  · exact .cause (.self f)

theorem ensure_of_hasCode (h : f.hasCode code = true) (data : Data) : f.ensure code data = f :=
  if_pos h

end Failure

/-! ### Steps -/

/-- A step of a rendering at which it can fail, with the failure of the conversion that it needed.
Without a way to split values, splitting fails without one. -/
inductive RenderStep where
  | take
  | enumerate (own : Failure)
  | split (own : Option Failure)
  | convert (own : Failure)
  | size

namespace RenderStep

/-- The cause that belongs to a step. -/
def code : RenderStep → Code
  | take => .argumentUnderflow
  | enumerate _ => .notEnumerable
  | split _ => .notAPair
  | convert _ => .stringify
  | size => .outputTooLarge

theorem code_ne_unnamed (step : RenderStep) : step.code ≠ .unnamed := by
  cases step <;> exact nofun

/-- The failure of the conversion that a step needed. -/
def own? : RenderStep → Option Failure
  | take | size => none
  | enumerate own | convert own => some own
  | split own => own

/-- The failure counts as the cause of the step.  What the conversion failed with can be unwrapped
from it, and is the failure itself if it counts as that cause already. -/
structure Blames (step : RenderStep) (f : Failure) : Prop where
  hasCode : f.hasCode step.code = true
  own : ∀ own, step.own? = some own → f.Reaches own ∧ (own.hasCode step.code = true → f = own)

theorem blames_ensure (step : RenderStep) {own : Failure} (h : step.own? = some own) (data : Data) :
    step.Blames (own.ensure step.code data) where
  hasCode := Failure.ensure_hasCode step.code_ne_unnamed own data
  own := by
    intro own' heq
    obtain rfl : own = own' := Option.some.inj (h.symm.trans heq)
    exact ⟨Failure.ensure_reaches _ _ _, fun hcode => Failure.ensure_of_hasCode hcode data⟩

theorem blames_make (step : RenderStep) (h : step.own? = none) (data : Option Data) :
    step.Blames (.make step.code data) where
  hasCode := Failure.make_hasCode step.code_ne_unnamed data
  own := by
    intro own heq
    rw [h] at heq
    cases heq

end RenderStep

/-- `caps.ArgsStop mode member step`: the arguments of a body are not made of a member, for this
step. -/
inductive Capabilities.ArgsStop (caps : Capabilities) : BlockMode → Value → RenderStep → Prop
  | members {member : Value} {own : Failure} : caps.toSequence member = .error own →
      ArgsStop caps .splat member (.enumerate own)
  | halves {member : Value} {own : Failure} {toPair : Value → Except Failure (Value × Value)} :
      caps.toPair? = some toPair → toPair member = .error own →
      ArgsStop caps .pairs member (.split (some own))
  | unsplit {member : Value} : caps.toPair? = none → ArgsStop caps .pairs member (.split none)

namespace Engine

variable {e : Engine} {src rest body : List Int} {args inner : List Value} {used : Nat}
variable {o o' : Output}
variable {v member : Value} {d : Directive} {mode : BlockMode} {step : RenderStep} {f own : Failure}

/-- `e.InsertStops v width o step`: the text of a value is not added to the output, for this
step. -/
inductive InsertStops (e : Engine) (v : Value) (width : Nat) (o : Output) : RenderStep → Prop
  | text {own : Failure} : e.caps.toText v = .error own → InsertStops e v width o (.convert own)
  | large {t : Text} : e.caps.toText v = .ok t →
      e.widthLimit < width ∨ e.exceeds (o.out.length + max width t.length) = true →
      InsertStops e v width o .size

/-- `e.TakesUp src args used o d rest v`: the rendering comes to the item `d`, which takes the
argument `v`. -/
structure TakesUp (e : Engine) (src : List Int) (args : List Value) (used : Nat) (o : Output)
    (d : Directive) (rest : List Int) (v : Value) : Prop where
  fits : e.exceeds o.out.length = false
  begins : Begins src d rest
  takes : d.spelling?.isSome = true
  given : args[used]? = some v

/-- `e.StopsAt src args used o step`: with the first `used` of its arguments taken and `o` put
out, the rendering of `src` fails at this step. -/
inductive StopsAt (e : Engine) : List Int → List Value → Nat → Output → RenderStep → Prop
  /-- Too much has been put out already. -/
  | full {src : List Int} {args : List Value} {used : Nat} {o : Output} :
      e.exceeds o.out.length = true → StopsAt e src args used o .size
  /-- An item finds no argument. -/
  | missing {src rest : List Int} {args : List Value} {used : Nat} {o : Output} {d : Directive} :
      e.exceeds o.out.length = false → Begins src d rest → d.spelling?.isSome = true →
      args.length ≤ used → StopsAt e src args used o .take
  /-- An insertion fails. -/
  | insert {src w digits rest : List Int} {left : Bool} {args : List Value} {used : Nat}
      {o : Output} {v : Value} {step : RenderStep} :
      e.TakesUp src args used o (.insert w digits left) rest v →
      e.InsertStops v (widthOf e.widthLimit digits) o step → StopsAt e src args used o step
  /-- The argument of a block has no members. -/
  | block {src w body rest : List Int} {mode : BlockMode} {args : List Value} {used : Nat}
      {o : Output} {v : Value} {own : Failure} :
      e.TakesUp src args used o (.block mode w body) rest v → e.caps.toSequence v = .error own →
      StopsAt e src args used o (.enumerate own)
  /-- A member does not give its arguments to the body; those before it have been rendered. -/
  | member {src w body rest : List Int} {mode : BlockMode} {args before after : List Value}
      {used : Nat} {o o' : Output} {v member : Value} {step : RenderStep} :
      e.TakesUp src args used o (.block mode w body) rest v →
      e.caps.toSequence v = .ok (before ++ member :: after) →
      before.foldlM (e.renderMember mode body) { o with directives := o.directives + 1 } = .ok o' →
      e.caps.ArgsStop mode member step → StopsAt e src args used o step
  /-- The body fails for a member. -/
  | body {src w body rest : List Int} {mode : BlockMode} {args before after inner : List Value}
      {used : Nat} {o o' : Output} {v member : Value} {step : RenderStep} :
      e.TakesUp src args used o (.block mode w body) rest v →
      e.caps.toSequence v = .ok (before ++ member :: after) →
      before.foldlM (e.renderMember mode body) { o with directives := o.directives + 1 } = .ok o' →
      e.bodyArgs mode member = .ok inner → StopsAt e body inner 0 o' step →
      StopsAt e src args used o step
  /-- Behind a copy. -/
  | behindCopy {src points rest : List Int} {args : List Value} {used : Nat} {o : Output}
      {step : RenderStep} :
      e.exceeds o.out.length = false → Begins src (.copy points) rest →
      StopsAt e rest args used { o with out := o.out.write points } step →
      StopsAt e src args used o step
  /-- Behind an item that takes an argument. -/
  | behind {src rest : List Int} {args : List Value} {used : Nat} {o o' : Output} {d : Directive}
      {v : Value} {step : RenderStep} :
      e.TakesUp src args used o d rest v → e.work o d v = .ok o' →
      StopsAt e rest args (used + 1) o' step → StopsAt e src args used o step

/-! ### A rendering fails where it stops -/

/-- The rendering of an item that takes an argument, once it has it. -/
theorem TakesUp.render (h : e.TakesUp src args used o d rest v) :
    e.render src args used o = (e.work o d v).bind fun o => e.render rest args (used + 1) o := by
  obtain ⟨spelling, hspelling⟩ := Option.isSome_iff_exists.mp h.takes
  rw [render_taker h.begins hspelling, checkSize_fits h.fits]
  show (nextArg args used spelling).bind _ = _
  rw [nextArg_some h.given]
  rfl

theorem TakesUp.render_error (h : e.TakesUp src args used o d rest v)
    (hwork : e.work o d v = .error f) : e.render src args used o = .error f := by
  rw [h.render, hwork]
  rfl

theorem InsertStops.insert {width : Nat} {left : Bool} (h : e.InsertStops v width o step) :
    ∃ f, e.insert v width left { o with directives := o.directives + 1 } = .error f ∧
    step.Blames f := by
  cases h with
  | @text own htext =>
    refine ⟨_, ?_, (RenderStep.convert own).blames_ensure rfl [("Got", .text v.kind)]⟩
    rw [insert, Capabilities.textOf_error htext]
    rfl
  | @large t htext hlarge =>
    have htextOf := Capabilities.textOf_ok htext
    -- a width beyond the bound is refused first, whatever has been put out
    by_cases hwidth : e.widthLimit < width
    · exact ⟨_, insert_wide htextOf hwidth left, RenderStep.size.blames_make rfl _⟩
    · refine ⟨tooLarge e.maxOutput, ?_, RenderStep.size.blames_make rfl _⟩
      rw [insert_field htextOf (by omega), if_pos (hlarge.resolve_left hwidth)]

theorem ArgsStop.bodyArgs (h : e.caps.ArgsStop mode member step) :
    ∃ f, e.bodyArgs mode member = .error f ∧ step.Blames f := by
  cases h with
  | @members _ own h =>
    exact ⟨_, Capabilities.membersOf_error h, (RenderStep.enumerate own).blames_ensure rfl _⟩
  | @halves _ own _ hpair h =>
    refine ⟨_, ?_, (RenderStep.split (some own)).blames_ensure rfl [("Got", .text member.kind)]⟩
    rw [Engine.bodyArgs, Capabilities.halvesOf_error hpair h]
    rfl
  | unsplit hpair =>
    refine ⟨member.notAPair, ?_, (RenderStep.split none).blames_make rfl _⟩
    rw [Engine.bodyArgs, Capabilities.halvesOf_none hpair]
    rfl

/-- The work of a block fails for the first member that fails. -/
theorem work_member {w : List Int} {before after : List Value}
    (hmembers : e.caps.toSequence v = .ok (before ++ member :: after))
    (hbefore : before.foldlM (e.renderMember mode body)
      { o with directives := o.directives + 1 } = .ok o')
    (hmember : e.renderMember mode body o' member = .error f) :
    e.work o (.block mode w body) v = .error f := by
  rw [work, Capabilities.membersOf_ok hmembers]
  show List.foldlM (e.renderMember mode body) _ (before ++ member :: after) = _
  rw [List.foldlM_append, hbefore]
  show List.foldlM (e.renderMember mode body) o' (member :: after) = _
  rw [List.foldlM_cons, hmember]
  rfl

/-- A rendering that stops at a step fails, with a failure that counts as its cause. -/
theorem StopsAt.render (h : e.StopsAt src args used o step) :
    ∃ f, e.render src args used o = .error f ∧ step.Blames f := by
  -- by induction on the way to the step: through the items in front of it, and into bodies
  induction h with
  | full h => exact ⟨_, render_exceeded h _ _ _, RenderStep.size.blames_make rfl _⟩
  | @missing _ _ args used _ _ hfits hbegins htakes hnone =>
    obtain ⟨spelling, hspelling⟩ := Option.isSome_iff_exists.mp htakes
    refine ⟨Engine.missing spelling used args.length, ?_, RenderStep.take.blames_make rfl _⟩
    rw [render_taker hbegins hspelling, checkSize_fits hfits]
    show (nextArg args used spelling).bind _ = _
    rw [nextArg_none hnone]
    rfl
  | insert htakes hstops =>
    obtain ⟨f, hf, hblames⟩ := hstops.insert
    exact ⟨f, htakes.render_error hf, hblames⟩
  | @block _ _ _ _ _ _ _ _ v own htakes hown =>
    have hblames := (RenderStep.enumerate own).blames_ensure rfl [("Got", .text v.kind)]
    refine ⟨_, htakes.render_error ?_, hblames⟩
    rw [work, Capabilities.membersOf_error hown]
    rfl
  | member htakes hmembers hbefore hstops =>
    obtain ⟨f, hf, hblames⟩ := ArgsStop.bodyArgs hstops
    refine ⟨f, htakes.render_error (work_member hmembers hbefore ?_), hblames⟩
    rw [renderMember, hf]
    rfl
  | body htakes hmembers hbefore hinner _ ih =>
    obtain ⟨f, hf, hblames⟩ := ih
    refine ⟨f, htakes.render_error (work_member hmembers hbefore ?_), hblames⟩
    rw [renderMember, hinner]
    exact hf
  | behindCopy hfits hbegins _ ih =>
    obtain ⟨f, hf, hblames⟩ := ih
    refine ⟨f, ?_, hblames⟩
    rw [render_begins hbegins, checkSize_fits hfits]
    exact hf
  | behind htakes hwork _ ih =>
    obtain ⟨f, hf, hblames⟩ := ih
    refine ⟨f, ?_, hblames⟩
    rw [htakes.render, hwork]
    exact hf

/-! ### A rendering that fails stops somewhere -/

theorem exists_insertStops {width : Nat} {left : Bool}
    (h : e.insert v width left { o with directives := o.directives + 1 } = .error f) :
    ∃ step, e.InsertStops v width o step := by
  cases htext : e.caps.toText v with
  | error own => exact ⟨_, .text htext⟩
  | ok t =>
    have htextOf := Capabilities.textOf_ok htext
    by_cases hlarge : e.widthLimit < width ∨ e.exceeds (o.out.length + max width t.length) = true
    · exact ⟨_, .large htext hlarge⟩
    · obtain ⟨hwidth, hfits⟩ := not_or.mp hlarge
      rw [insert_field htextOf (by omega), if_neg hfits] at h
      cases h

theorem exists_argsStop (h : e.bodyArgs mode member = .error f) :
    ∃ step, e.caps.ArgsStop mode member step := by
  cases mode with
  | each => cases h
  | splat =>
    cases hmembers : e.caps.toSequence member with
    | error own => exact ⟨_, .members hmembers⟩
    | ok members =>
      rw [bodyArgs, Capabilities.membersOf_ok hmembers] at h
      cases h
  | pairs =>
    cases hpair : e.caps.toPair? with
    | none => exact ⟨_, .unsplit hpair⟩
    | some toPair =>
      cases hhalves : toPair member with
      | error own => exact ⟨_, .halves hpair hhalves⟩
      | ok halves =>
        rw [bodyArgs, Capabilities.halvesOf_ok hpair hhalves] at h
        cases h

/-- A fold fails at the first member that fails. -/
theorem foldlM_error {k : Output → Value → Except Failure Output} {members : List Value}
    (h : members.foldlM k o = .error f) :
    ∃ before member after o', members = before ++ member :: after ∧ before.foldlM k o = .ok o' ∧
      k o' member = .error f := by
  induction members generalizing o with
  | nil => cases h
  | cons member members ih =>
    rw [List.foldlM_cons] at h
    cases hfirst : k o member with
    | error g =>
      rw [hfirst] at h
      cases h
      exact ⟨[], member, members, o, rfl, rfl, hfirst⟩
    | ok o₁ =>
      rw [hfirst] at h
      obtain ⟨before, failing, after, o', rfl, hbefore, hfails⟩ := ih h
      refine ⟨member :: before, failing, after, o', rfl, ?_, hfails⟩
      rw [List.foldlM_cons, hfirst]
      exact hbefore

/-- The work of an insertion or of a block fails at some step of it. -/
theorem exists_stopsAt_work {src rest : List Int} {o : Output}
    (hbody : ∀ mode w body, d = .block mode w body →
      ∀ inner o f, e.render body inner 0 o = .error f →
      ∃ step, e.StopsAt body inner 0 o step)
    (htakes : e.TakesUp src args used o d rest v) (h : e.work o d v = .error f) :
    ∃ step, e.StopsAt src args used o step := by
  cases d with
  | copy points => cases htakes.takes
  | insert w digits left =>
    obtain ⟨step, hstops⟩ := exists_insertStops h
    exact ⟨step, .insert htakes hstops⟩
  | block mode w body =>
    cases hmembers : e.caps.toSequence v with
    | error own => exact ⟨_, .block htakes hmembers⟩
    | ok members =>
      rw [work, Capabilities.membersOf_ok hmembers] at h
      obtain ⟨before, member, after, o', rfl, hbefore, hmember⟩ := foldlM_error h
      rcases bind_eq_error.mp hmember with hargs | ⟨inner, hinner, hrender⟩
      · obtain ⟨step, hstops⟩ := exists_argsStop hargs
        exact ⟨step, .member htakes hmembers hbefore hstops⟩
      · obtain ⟨step, hstops⟩ := hbody mode w body rfl inner o' f hrender
        exact ⟨step, .body htakes hmembers hbefore hinner hstops⟩

/-- A rendering that begins with an item that takes an argument fails for want of it, at its work,
or behind it. -/
theorem exists_stopsAt_taker (hfits : e.exceeds o.out.length = false) (hbegins : Begins src d rest)
    (hspelling : d.spelling?.isSome = true)
    (hbody : ∀ mode w body, d = .block mode w body →
      ∀ inner o f, e.render body inner 0 o = .error f →
      ∃ step, e.StopsAt body inner 0 o step)
    (hrest : ∀ o f, e.render rest args (used + 1) o = .error f →
      ∃ step, e.StopsAt rest args (used + 1) o step)
    (h : e.render src args used o = .error f) : ∃ step, e.StopsAt src args used o step := by
  cases hgiven : args[used]? with
  | none => exact ⟨_, .missing hfits hbegins hspelling (List.getElem?_eq_none_iff.mp hgiven)⟩
  | some v =>
    have htakes : e.TakesUp src args used o d rest v := ⟨hfits, hbegins, hspelling, hgiven⟩
    rw [htakes.render] at h
    rcases bind_eq_error.mp h with hwork | ⟨o', hwork, hbehind⟩
    · exact exists_stopsAt_work hbody htakes hwork
    · obtain ⟨step, hstops⟩ := hrest o' f hbehind
      exact ⟨step, .behind htakes hwork hstops⟩

theorem exists_stopsAt_of_fits
    (h : e.exceeds o.out.length = false → ∃ step, e.StopsAt src args used o step) :
    ∃ step, e.StopsAt src args used o step := by
  cases hfull : e.exceeds o.out.length with
  | true => exact ⟨_, .full hfull⟩
  | false => exact h hfull

/-- A rendering that fails, fails at some step. -/
theorem exists_stopsAt (h : e.render src args used o = .error f) :
    ∃ step, e.StopsAt src args used o step := by
  induction src using template_induction generalizing args used o f with
  | done =>
    refine exists_stopsAt_of_fits fun hfits => ?_
    rw [render_nil, checkSize_fits hfits] at h
    cases h
  | copy src points rest hbegins ih =>
    refine exists_stopsAt_of_fits fun hfits => ?_
    rw [render_begins hbegins, checkSize_fits hfits] at h
    obtain ⟨step, hstops⟩ := ih h
    exact ⟨step, .behindCopy hfits hbegins hstops⟩
  | insert src w digits left rest hbegins ih =>
    refine exists_stopsAt_of_fits fun hfits => ?_
    exact exists_stopsAt_taker hfits hbegins rfl (fun _ _ _ heq => nomatch heq) (fun _ _ => ih) h
  | block src mode w body rest hbegins ihb ih =>
    -- the body is a template of its own, rendered from its first argument on
    refine exists_stopsAt_of_fits fun hfits => ?_
    refine exists_stopsAt_taker hfits hbegins rfl (fun _ _ _ heq => ?_) (fun _ _ => ih) h
    cases heq
    exact fun _ _ _ => ihb

/-! ### The failures of a template -/

/-- Every failure of a template is a failure of one of its steps, and nothing but the failure is
returned or reported.  Whatever the conversions fail with: the failure counts as the cause of the
step, which is a missing argument, a value without members, a value without halves or no way to
split values, a value without a text, or an output too large.  If a conversion failed, its own
failure is the one returned or can be unwrapped from it, and is the one returned if it counts as
that cause already. -/
theorem failures_blame_steps (e : Engine) (tmpl : Text) (args : List Value) :
    (∀ f, (e.format tmpl args).result = .error f →
      e.format tmpl args = .fail f ∧ ∃ step, e.StopsAt tmpl.points args 0 {} step) ∧
    ∀ step, e.StopsAt tmpl.points args 0 {} step →
      ∃ f, (e.format tmpl args).result = .error f ∧ f.hasCode step.code = true ∧
        ∀ own, step.own? = some own → f.Reaches own ∧ (own.hasCode step.code = true → f = own) := by
  refine ⟨fun f hfail => ?_, fun step hstops => ?_⟩
  · rw [format_result] at hfail
    have hrender := map_eq_error.mp hfail
    refine ⟨?_, exists_stopsAt hrender⟩
    rw [format, hrender]
  · obtain ⟨f, hrender, hblames⟩ := hstops.render
    refine ⟨f, ?_, hblames.hasCode, hblames.own⟩
    rw [format_result, hrender]
    rfl

/-- A conversion to text that fails, in the body of a block, with a failure of its own around a
report of another cause, and around one of the cause of the step. -/
theorem failures_blame_steps_wrapped :
    let own (code : Code) : Failure :=
      .wrapped { code := .unnamed, cls := .host, message := "context" } (.make code)
    let e (code : Code) : Engine :=
      ⟨{ toText := fun _ => .error (own code), toSequence := Value.toSequence, toPair? := none }, 0⟩
    let tmpl : Text := ⟨[0x25, 0x5B, 0x25, 0x73, 0x25, 0x5D]⟩
    (∃ f, ((e .notAPair).format tmpl [.list [.nil]]).result = .error f ∧
      f.hasCode .stringify = true ∧
      f.Reaches (own .notAPair)) ∧
    ((e .stringify).format tmpl [.list [.nil]]).result = .error (own .stringify) := by
  intro own e tmpl
  have hnone : ∀ d ∈ ([] : List Int), Directive.isDigit d = true := by decide
  have hopen : ¬ending <:+: [0x25, 0x73] := by decide
  have hvalue : Begins [0x25, 0x73] (.insert [0x25, 0x73] [] false) [] := .insert false hnone
  have hblock : Begins tmpl.points (.block .each [0x25, 0x5B] [0x25, 0x73]) [] := .block .each hopen
  have hstops : ∀ code, (e code).StopsAt tmpl.points [.list [.nil]] 0 {} (.convert (own code)) := by
    intro code
    have hinner : (e code).StopsAt [0x25, 0x73] [.nil] 0 { directives := 1 }
        (.convert (own code)) :=
      .insert ⟨rfl, hvalue, rfl, rfl⟩ (.text rfl)
    have hmembers : (e code).caps.toSequence (.list [.nil]) = .ok ([] ++ Value.nil :: []) := rfl
    exact .body ⟨rfl, hblock, rfl, rfl⟩ hmembers rfl rfl hinner
  constructor
  · obtain ⟨f, hfails, hcode, hown⟩ :=
      (failures_blame_steps (e .notAPair) tmpl [.list [.nil]]).2 _ (hstops .notAPair)
    exact ⟨f, hfails, hcode, (hown _ rfl).1⟩
  · obtain ⟨f, hfails, -, hown⟩ :=
      (failures_blame_steps (e .stringify) tmpl [.list [.nil]]).2 _ (hstops .stringify)
    rw [hfails, (hown _ rfl).2 rfl]

end Engine

end TextScript
