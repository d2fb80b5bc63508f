/-
TextScript/Proofs/Rendering.lean

Rendering in one pass is cutting the template and folding over its items.

The renderer reads a directive, writes, and goes on behind it, and enters itself for each member
of a block.  The other side has two stages: a template is cut into items once (`Cut`), and
`outputs` folds over them with a cursor into the arguments.  Neither knows of the other, so a code
point or an argument that is swallowed or taken twice would show.

An insertion's width is exact in the fold.  The renderer stops counting past the greatest width,
which makes no difference: a width beyond it is refused in either case (`widthOf_eq`,
`lt_widthOf`).
-/
import TextScript.Format.Render
import TextScript.Proofs.Templates

namespace TextScript

/-! ### The fold over items -/

/-- The number that a run of digits writes. -/
def decimal (digits : List Int) : Nat :=
  Numeral.value 10 (digits.map fun d => (d - 0x30).toNat)

/-- A text in a field of some width, filled up with spaces behind it or in front of it. -/
def field (t : Text) (width : Nat) (left : Bool) : List Int :=
  if left then t.points.rightpad width 0x20 else t.points.leftpad width 0x20

/-- What a block gives to its body for one member: the member, its members, or its two halves. -/
def memberArgs (caps : Capabilities) (member : Value) : BlockMode → Except Failure (List Value)
  | .each => .ok [member]
  | .splat => caps.membersOf member
  | .pairs => do
    let (first, second) ← caps.halvesOf member
    return [first, second]

/-- How many arguments an item takes. -/
def Item.takes : Item → Nat
  | .copy _ => 0
  | .insert .. => 1
  | .block .. => 1

mutual

/-- What an item adds to the output, with the cursor at `used`. -/
def Item.output (caps : Capabilities) (args : List Value) (used : Nat) :
    Item → Except Failure (List Int)
  | .copy points => .ok points
  | .insert spelling digits left => do
    let v ← Engine.nextArg args used spelling
    let t ← caps.textOf v
    if maxWidth < decimal digits then .error (Engine.tooLarge maxWidth)
    else .ok (field t (decimal digits) left)
  | .block mode spelling body => do
    let v ← Engine.nextArg args used spelling
    let members ← caps.membersOf v
    let parts ← members.mapM fun member => do
      let inner ← memberArgs caps member mode
      Item.outputs caps inner 0 body
    return parts.flatten

/-- What items add to the output, each with the cursor where the ones before it left it. -/
def Item.outputs (caps : Capabilities) (args : List Value) (used : Nat) :
    List Item → Except Failure (List Int)
  | [] => .ok []
  | item :: items => do
    let first ← item.output caps args used
    let rest ← Item.outputs caps args (used + item.takes) items
    return first ++ rest

end

/-! ### Adding to an output -/

/-- The code points written so far. -/
def Output.points (o : Output) : List Int := o.out.text.points

/-- `Writes o r added`: a rendering that began with the output `o` has added code points to it, or
failed, as `added` says. -/
def Writes (o : Output) (r : Except Failure Output) (added : Except Failure (List Int)) : Prop :=
  r.map Output.points = added.map (o.points ++ ·)

section Writes

variable {o : Output} {r : Except Failure Output} {added more : Except Failure (List Int)}
variable {f : Failure}

theorem writes_error : Writes o (.error f) (.error f) := rfl

theorem writes_ok {o' : Output} {ns : List Int} (h : o'.points = o.points ++ ns) :
    Writes o (.ok o') (.ok ns) :=
  congrArg Except.ok h

theorem writes_out (o : Output) (ns : List Int) :
    Writes o (.ok { o with out := o.out.write ns }) (.ok ns) :=
  writes_ok (by simp [Output.points])

/-- One rendering after another adds one after the other. -/
theorem Writes.bind {k : Output → Except Failure Output} (h : Writes o r added)
    (hk : ∀ o', Writes o' (k o') more) :
    Writes o (r.bind k) (added.bind fun first => more.bind fun rest => .ok (first ++ rest)) := by
  unfold Writes at *
  cases r with
  | error f =>
    cases added with
    | error g => exact h
    | ok ns => cases h
  | ok o' =>
    cases added with
    | error g => cases h
    | ok ns =>
      have hpoints : o'.points = o.points ++ ns := Except.ok.inj h
      have hmore := hk o'
      show (k o').map Output.points = _
      rw [hmore]
      cases more with
      | error g => rfl
      | ok rest => simp [Except.map, Except.bind, hpoints]

/-- A rendering for each of some values adds all of their parts. -/
theorem foldlM_writes {k : Output → Value → Except Failure Output}
    {part : Value → Except Failure (List Int)}
    (hk : ∀ o v, Writes o (k o v) (part v)) (vs : List Value) (o : Output) :
    Writes o (vs.foldlM k o) ((vs.mapM part).bind fun parts => .ok parts.flatten) := by
  induction vs generalizing o with
  | nil => exact writes_ok (by simp)
  | cons v vs ih =>
    have hall := (hk o v).bind ih
    rw [List.foldlM_cons, List.mapM_cons]
    cases hv : part v with
    | error f =>
      rw [hv] at hall
      exact hall
    | ok first =>
      rw [hv] at hall
      cases hvs : vs.mapM part with
      | error f =>
        rw [hvs] at hall
        exact hall
      | ok parts =>
        rw [hvs] at hall
        exact hall

end Writes

/-! ### One item of a rendering -/

namespace Engine

variable {e : Engine} {src points spelling digits body rest : List Int} {left : Bool}
variable {mode : BlockMode}
variable {args : List Value} {used : Nat} {o : Output} {items : List Item}

section Asking

variable {m : Type → Type} [Monad m] [MonadLiftT (Except Failure) m] {ask : Answers m}

/-- What the renderer does about one item, as questions are answered. -/
def renderItemWith (ask : Answers m) (e : Engine) (rest : List Int) (args : List Value) (used : Nat)
    (o : Output) : Directive → m Output
  | .copy points => renderWith ask e rest args used { o with out := o.out.write points }
  | .insert spelling digits left => do
    let v ← nextArg args used spelling
    let o ← e.insert v (widthOf e.widthLimit digits) left { o with directives := o.directives + 1 }
    renderWith ask e rest args (used + 1) o
  | .block mode spelling body => do
    let v ← nextArg args used spelling
    let members ← ask.membersOf v
    let o ← members.foldlM (fun o member => do
      let inner ← ask.bodyArgs mode member
      renderWith ask e body inner 0 o) { o with directives := o.directives + 1 }
    renderWith ask e rest args (used + 1) o

theorem renderWith_nil : renderWith ask e [] args used o = (do e.checkSize o; return o) := by
  rw [renderWith]

/-- A template is rendered item by item, with a check of the size before each. -/
theorem renderWith_begins {d : Directive} (h : Begins src d rest) :
    renderWith ask e src args used o = (do
      e.checkSize o
      renderItemWith ask e rest args used o d) := by
  obtain ⟨c, cs, rfl, hd, rfl⟩ := h.readsAs
  rw [renderWith]
  refine congrArg (liftM (e.checkSize o) >>= ·) (funext fun _ => ?_)
  split
  all_goals
    next heq =>
      rw [← hd, heq]
      rfl

end Asking

/-- Renders the body of a block for one member. -/
def renderMember (e : Engine) (mode : BlockMode) (body : List Int) (o : Output) (member : Value) :
    Except Failure Output :=
  (e.bodyArgs mode member).bind fun inner => e.render body inner 0 o

/-- What the renderer does about one item: it writes, and goes on with the rest. -/
def renderItem (e : Engine) (rest : List Int) (args : List Value) (used : Nat) (o : Output) :
    Directive → Except Failure Output
  | .copy points => e.render rest args used { o with out := o.out.write points }
  | .insert spelling digits left =>
    (nextArg args used spelling).bind fun v =>
      (e.insert v (widthOf e.widthLimit digits) left { o with directives := o.directives + 1 }).bind
        fun o => e.render rest args (used + 1) o
  | .block mode spelling body =>
    (nextArg args used spelling).bind fun v => (e.caps.membersOf v).bind fun members =>
      (members.foldlM (e.renderMember mode body) { o with directives := o.directives + 1 }).bind
        fun o => e.render rest args (used + 1) o

theorem render_nil : e.render [] args used o = (e.checkSize o).map fun _ => o := by
  rw [render, renderWith_nil]
  show (e.checkSize o).bind _ = _
  cases e.checkSize o <;> rfl

theorem format_result (e : Engine) (tmpl : Text) (args : List Value) :
    (e.format tmpl args).result = (e.render tmpl.points args 0 {}).map fun o => o.out.text := by
  rw [format]
  cases e.render tmpl.points args 0 {} <;> rfl

/-- The item by item rendering with an engine. -/
theorem render_begins {d : Directive} (h : Begins src d rest) :
    e.render src args used o = (e.checkSize o).bind fun _ => e.renderItem rest args used o d := by
  rw [render, renderWith_begins h]
  refine congrArg (e.checkSize o).bind (funext fun _ => ?_)
  cases d <;> rfl

/-! ### Widths -/

/-- The counting of a width against the exact number: they agree, or both are past the bound. -/
theorem foldl_width (bound : Nat) (digits : List Int) {w v : Nat}
    (h : w = v ∨ bound < w ∧ bound < v) :
    let counted := digits.foldl (fun w d => if w ≤ bound then w * 10 + (d - 0x30).toNat else w) w
    let exact := (digits.map fun d => (d - 0x30).toNat).foldl (fun v d => v * 10 + d) v
    counted = exact ∨ bound < counted ∧ bound < exact := by
  induction digits generalizing w v with
  | nil => exact h
  | cons d ds ih =>
    simp only [List.map_cons, List.foldl_cons]
    apply ih
    split
    · -- still counting, so both are the same number and stay so
      have hw : w = v := by omega
      exact .inl (by rw [hw])
    · have hw : bound < w := by omega
      have hv : bound < v := by omega
      exact .inr ⟨hw, by omega⟩

theorem widthOf_cases (bound : Nat) (digits : List Int) :
    widthOf bound digits = decimal digits ∨
      bound < widthOf bound digits ∧ bound < decimal digits :=
  foldl_width bound digits (.inl rfl)

/-- Up to the bound a width is exact. -/
theorem widthOf_eq {bound : Nat} (h : decimal digits ≤ bound) :
    widthOf bound digits = decimal digits := by
  rcases widthOf_cases bound digits with heq | ⟨-, hlt⟩
  · exact heq
  · omega

/-- Beyond the bound a width stays beyond it. -/
theorem lt_widthOf {bound : Nat} (h : bound < decimal digits) : bound < widthOf bound digits := by
  rcases widthOf_cases bound digits with heq | ⟨hlt, -⟩
  · omega
  · exact hlt

/-! ### Renderings without a bound -/

theorem exceeds_unbounded (h : e.maxOutput ≤ 0) (size : Nat) : e.exceeds size = false := by
  simp only [exceeds, Bool.and_eq_false_iff, decide_eq_false_iff_not]
  omega

theorem checkSize_fits (h : e.exceeds o.out.length = false) : e.checkSize o = .ok () := by
  rw [checkSize, h]
  rfl

theorem checkSize_full (h : e.exceeds o.out.length = true) :
    e.checkSize o = .error (tooLarge e.maxOutput) :=
  if_pos h

theorem checkSize_unbounded (h : e.maxOutput ≤ 0) (o : Output) : e.checkSize o = .ok () :=
  checkSize_fits (exceeds_unbounded h _)

theorem widthLimit_unbounded (h : e.maxOutput ≤ 0) : e.widthLimit = maxWidth := by
  rw [widthLimit, if_neg (by omega)]

/-! ### The fold describes the rendering -/

theorem bodyArgs_eq (mode : BlockMode) (member : Value) :
    e.bodyArgs mode member = memberArgs e.caps member mode := by
  cases mode with
  | each => rfl
  | splat => rfl
  | pairs =>
    show (e.caps.halvesOf member).map _ = (e.caps.halvesOf member).bind _
    cases e.caps.halvesOf member <;> rfl

theorem padded_eq_field (t : Text) (width : Nat) (left : Bool) :
    padded t width left = field t width left := by
  cases left <;> rfl

/-- An insertion writes the text of its argument in a field of the exact width. -/
theorem insert_writes (hmax : e.maxOutput ≤ 0) (v : Value) (digits : List Int) (left : Bool)
    (o : Output) :
    Writes o (e.insert v (widthOf e.widthLimit digits) left o)
      ((e.caps.textOf v).bind fun t =>
        if maxWidth < decimal digits then .error (tooLarge maxWidth)
        else .ok (field t (decimal digits) left)) := by
  rw [widthLimit_unbounded hmax, insert, widthLimit_unbounded hmax]
  cases e.caps.textOf v with
  | error f => exact writes_error
  | ok t =>
    show Writes o (if maxWidth < widthOf maxWidth digits then _ else _) (if _ then _ else _)
    by_cases hw : maxWidth < decimal digits
    · rw [if_pos hw, if_pos (lt_widthOf hw)]
      exact writes_error
    · have hle : decimal digits ≤ maxWidth := Nat.le_of_not_lt hw
      rw [if_neg hw, widthOf_eq hle, if_neg hw, exceeds_unbounded hmax, if_neg (by decide),
        padded_eq_field]
      exact writes_out o _

/-- The body of a block adds for a member what its items add with the arguments made of it. -/
theorem renderMember_writes
    (hbody : ∀ inner o, Writes o (e.render body inner 0 o) (Item.outputs e.caps inner 0 items))
    (mode : BlockMode) (o : Output) (member : Value) :
    Writes o (e.renderMember mode body o member)
      ((memberArgs e.caps member mode).bind fun inner => Item.outputs e.caps inner 0 items) := by
  rw [renderMember, bodyArgs_eq]
  cases memberArgs e.caps member mode with
  | error f => exact writes_error
  | ok inner => exact hbody inner o

/-- Without a bound, rendering a template adds what its items add. -/
theorem render_writes (hmax : e.maxOutput ≤ 0) (h : Cut src items) (args : List Value) (used : Nat)
    (o : Output) : Writes o (e.render src args used o) (Item.outputs e.caps args used items) := by
  induction h generalizing args used o with
  | nil =>
    rw [render_nil, checkSize_unbounded hmax]
    exact writes_ok (by simp)
  | copy hb _ ih =>
    rw [render_begins hb, checkSize_unbounded hmax]
    exact (writes_out o _).bind fun o' => ih args used o'
  | @insert _ spelling digits _ left items hb _ ih =>
    rw [render_begins hb, checkSize_unbounded hmax]
    show Writes o ((nextArg args used spelling).bind _)
      (((nextArg args used spelling).bind _).bind _)
    cases nextArg args used spelling with
    | error f => exact writes_error
    | ok v =>
      have hone := insert_writes hmax v digits left { o with directives := o.directives + 1 }
      exact hone.bind fun o' => ih args (used + 1) o'
  | @block _ spelling body _ mode inner items hb _ _ ihb ih =>
    rw [render_begins hb, checkSize_unbounded hmax]
    show Writes o ((nextArg args used spelling).bind _)
      (((nextArg args used spelling).bind _).bind _)
    cases nextArg args used spelling with
    | error f => exact writes_error
    | ok v =>
      show Writes o ((e.caps.membersOf v).bind _) (((e.caps.membersOf v).bind _).bind _)
      cases e.caps.membersOf v with
      | error f => exact writes_error
      | ok members =>
        -- every member renders the body from its first argument on, whatever is written so far
        have hone := renderMember_writes (fun inner o => ihb inner 0 o) mode
        have hall := foldlM_writes hone members { o with directives := o.directives + 1 }
        exact hall.bind fun o' => ih args (used + 1) o'

/-! ### The two stages -/

/-- Without a bound, the result of a template is what its items add. -/
theorem format_cut (hmax : e.maxOutput ≤ 0) {tmpl : Text} (hcut : Cut tmpl.points items)
    (args : List Value) :
    (e.format tmpl args).result = (Item.outputs e.caps args 0 items).map Text.mk := by
  have hempty : ∀ added : Except Failure (List Int),
      added.map (({} : Output).points ++ ·) = added := by
    intro added
    cases added <;> rfl
  have hwrites := (render_writes hmax hcut args 0 {}).trans (hempty _)
  rw [← hwrites, format_result]
  cases e.render tmpl.points args 0 {} <;> rfl

/-- The renderer does in one pass what cutting the template and folding over its items does in
two.  Every template is cut in exactly one way.  Then literal items are copied; an insertion takes
the next argument and adds its text in a field of the written width, or fails for a width beyond
the greatest; a block takes the next argument and adds its body for each of its members in turn,
with a cursor of its own.  The first failure is the result, and nothing else is. -/
theorem format_in_two_stages (e : Engine) (hmax : e.maxOutput ≤ 0) (tmpl : Text)
    (args : List Value) :
    (∃ items, Cut tmpl.points items) ∧
    ∀ items, Cut tmpl.points items →
      (∀ items', Cut tmpl.points items' → items' = items) ∧
      (e.format tmpl args).result = (Item.outputs e.caps args 0 items).map Text.mk := by
  refine ⟨exists_cut tmpl.points, fun items hcut => ⟨fun items' hcut' => hcut'.unique hcut, ?_⟩⟩
  exact format_cut hmax hcut args

/-- A field of width three, then a block with an insertion in its body. -/
theorem format_in_two_stages_block :
    (({} : Engine).format ⟨[0x25, 0x33, 0x73, 0x25, 0x5B, 0x25, 0x73, 0x25, 0x5D]⟩
      [.text ⟨[0x61]⟩, .list [.text ⟨[0x62]⟩, .text ⟨[0x63]⟩]]).result
      = .ok ⟨[0x20, 0x20, 0x61, 0x62, 0x63]⟩ := by
  have hnone : ∀ d ∈ ([] : List Int), Directive.isDigit d = true := by decide
  have hthree : ∀ d ∈ [0x33], Directive.isDigit d = true := by decide
  have hopen : ¬ending <:+: [0x25, 0x73] := by decide
  have hvalue : Begins [0x25, 0x73] (.insert [0x25, 0x73] [] false) [] := .insert false hnone
  have hblock : Begins [0x25, 0x5B, 0x25, 0x73, 0x25, 0x5D]
      (.block .each [0x25, 0x5B] [0x25, 0x73]) [] :=
    .block .each hopen
  have hwide : Begins [0x25, 0x33, 0x73, 0x25, 0x5B, 0x25, 0x73, 0x25, 0x5D]
      (.insert [0x25, 0x33, 0x73] [0x33] false) [0x25, 0x5B, 0x25, 0x73, 0x25, 0x5D] :=
    .insert false hthree
  have hcut := Cut.insert hwide (.block hblock (.insert hvalue .nil) .nil)
  rw [((format_in_two_stages {} (by decide) ⟨_⟩ _).2 _ hcut).2]
  rfl

end Engine

end TextScript
