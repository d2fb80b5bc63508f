/-
TextScript/Proofs/BlockBodies.lean

Blocks do not nest.

The body of a block is cut off at the first end behind its bracket, so there is no end in it, and
none that its last code points could be a part of (`Begins.body_unended`).  A template without an
end has no block at any place (`Begins.not_block`); an opening in it is written as it stands,
wherever it is: at the start of an item, or where a percent sign before it has taken its own for a
plain character (`render_opening`).

So a renderer never has more than two calls open, that of the template and that of a body.
`renderWithin` counts them, and the turns of the loop of each, and gives up where it has run out
of either; with one call for a body and a turn for each code point and one more it never does
(`renderWithin_eq`).
-/
import TextScript.Proofs.Arguments

namespace TextScript

open Directive

variable {mode : BlockMode} {w src body rest front back points spelling digits : List Int}
variable {left : Bool}
variable {d : Directive} {items : List Item}

/-! ### Templates without an end -/

theorem Begins.body_unended (h : Begins src (.block mode w body) rest) : ¬ending <:+: body := by
  cases h with
  | block _ hbody => exact hbody

/-- Without an end there is no block. -/
theorem Begins.not_block (hno : ¬ending <:+: src) (h : Begins src d rest) :
    d ≠ .block mode w body := by
  rintro rfl
  cases h with
  | block hw hbody => exact hno ⟨w ++ body, rest, by simp⟩

theorem Begins.rest_suffix (h : Begins src d rest) : rest <:+ src := by
  obtain ⟨c, cs, rfl, -, rfl⟩ := h.readsAs
  exact List.drop_suffix _ _

theorem Begins.rest_unended (hno : ¬ending <:+: src) (h : Begins src d rest) : ¬ending <:+: rest :=
  fun hrest => hno (hrest.trans h.rest_suffix.isInfix)

/-! ### An opening behind an item -/

theorem Opening.eq_cons (h : Opening mode w) :
    ∃ tail, w = percent :: tail ∧ ∀ c ∈ tail, c ≠ percent := by
  cases h with
  | each => exact ⟨_, rfl, by decide⟩
  | splat => exact ⟨_, rfl, by decide⟩
  | pairs => exact ⟨_, rfl, by decide⟩

/-- An insertion is complete, whatever comes behind it. -/
theorem Begins.insert_append (h : Begins front (.insert spelling digits left) rest)
    (back : List Int) :
    Begins (front ++ back) (.insert spelling digits left) (rest ++ back) := by
  cases h with
  | insert _ hdigits =>
    have hbegins : Begins (flag left ++ (digits ++ letter :: (rest ++ back))) _ (rest ++ back) :=
      .insert left hdigits
    simpa using hbegins

/-- What is copied in front of an opening is copied as without it, or else it ends where a code
point more would have belonged to it: then it takes the percent sign of the opening. -/
theorem Begins.copy_append (hw : Opening mode w) (hno : ¬ending <:+: front ++ (w ++ back))
    (h : Begins front (.copy points) rest) :
    Begins (front ++ (w ++ back)) (.copy points) (rest ++ (w ++ back)) ∨
      rest = [] ∧ ∃ tail, w = percent :: tail ∧ (∀ c ∈ tail, c ≠ percent) ∧
        Begins (front ++ (w ++ back)) (.copy (points ++ [percent])) (tail ++ back) := by
  obtain ⟨tail, rfl, htail⟩ := hw.eq_cons
  -- only a marked or a spoiled item can want one more code point than the front has
  cases h with
  | plain hc => exact .inl (.plain hc)
  | unended hw' hrest =>
    rw [List.append_assoc] at hno ⊢
    exact .inl (.unended hw' fun h => hno (h.trans (List.suffix_append _ _).isInfix))
  | @marked mark more hmark hopen =>
    cases more with
    | nil =>
      have hopen' : (percent :: (tail ++ back)).head? ≠ some openBracket := by
        simp [percent, openBracket]
      exact .inr ⟨rfl, tail, rfl, htail, .marked hmark hopen'⟩
    | cons c more =>
      exact .inl (.marked hmark hopen)
  | @spoiled digits more left hdigits hstop hflag =>
    cases more with
    | nil =>
      have hpercent : ∀ c ∈ (percent :: (tail ++ back)).head?, isDigit c = false ∧ c ≠ letter := by
        rintro c ⟨⟩
        decide
      have hmarks : ∀ c ∈ (percent :: (tail ++ back)).head?, c ∉ marks := by
        rintro c ⟨⟩
        decide
      have hbegins : Begins (flag left ++ (digits ++ percent :: (tail ++ back))) _ (tail ++ back) :=
        .spoiled left hdigits hpercent fun _ _ => hmarks
      exact .inr ⟨rfl, tail, rfl, htail, by simpa using hbegins⟩
    | cons c more =>
      have hbegins : Begins (flag left ++
          (digits ++ (c :: more ++ (percent :: tail ++ back)))) _ _ :=
        .spoiled left hdigits hstop hflag
      exact .inl (by simpa using hbegins)

namespace Engine

variable {e : Engine} {args : List Value} {used : Nat} {o : Output}

/-! ### Copies -/

theorem exceeds_mono {size size' : Nat} (hle : size ≤ size') (h : e.exceeds size = true) :
    e.exceeds size' = true := by
  simp only [exceeds, Bool.and_eq_true, decide_eq_true_eq] at h ⊢
  omega

/-- A check before something is written adds nothing to the check behind it. -/
theorem render_checked (src : List Int) (args : List Value) (used : Nat) (o : Output)
    (ns : List Int) :
    ((e.checkSize o).bind fun _ => e.render src args used { o with out := o.out.write ns })
      = e.render src args used { o with out := o.out.write ns } := by
  cases hfull : e.exceeds o.out.length with
  | true =>
    have hlen := length_write o ns
    have hmore : e.exceeds ({ o with out := o.out.write ns } : Output).out.length = true :=
      exceeds_mono (by omega) hfull
    rw [render_exceeded hmore, checkSize_full hfull]
    rfl
  | false =>
    rw [checkSize_fits hfull]
    rfl

/-- Writing behind an empty rendering. -/
theorem render_nil_write (src : List Int) (args : List Value) (used used' : Nat) (o : Output)
    (ns : List Int) :
    ((e.render [] args used o).bind fun o =>
      e.render src args used' { o with out := o.out.write ns })
      = e.render src args used' { o with out := o.out.write ns } := by
  rw [render_nil, ← render_checked src args used' o ns]
  cases e.checkSize o <;> rfl

/-- Plain code points are written as they stand. -/
theorem render_plain (hplain : ∀ c ∈ points, c ≠ percent) (src : List Int) (args : List Value)
    (used : Nat) (o : Output) (ns : List Int) :
    e.render (points ++ src) args used { o with out := o.out.write ns }
      = e.render src args used { o with out := o.out.write (ns ++ points) } := by
  induction points generalizing ns with
  | nil => rw [List.append_nil, List.nil_append]
  | cons c cs ih =>
    obtain ⟨hc, hcs⟩ := List.forall_mem_cons.mp hplain
    have hbegins : Begins (c :: cs ++ src) (.copy [c]) (cs ++ src) := .plain hc
    rw [render_begins hbegins]
    show ((e.checkSize _).bind fun _ => e.render (cs ++ src) args used _) = _
    rw [render_checked, Builder.write_write, ih hcs, List.append_assoc, List.singleton_append]

/-! ### Openings -/

theorem takeThen_bind {k : Output → Except Failure Output}
    (h : ∀ o, e.render src args (used + 1) o = (e.render rest args (used + 1) o).bind k)
    (work : Value → Except Failure Output) (spelling : List Int) :
    e.takeThen src work args used spelling = (e.takeThen rest work args used spelling).bind k := by
  unfold takeThen
  cases nextArg args used spelling with
  | error f => rfl
  | ok v =>
    show (work v).bind _ = ((work v).bind _).bind k
    cases work v with
    | error f => rfl
    | ok o => exact h o

/-- In a template without an end an opening is written as it stands, whatever stands in front of
it, and takes no argument: what stands in front is rendered as if it stood alone, and what stands
behind goes on with the arguments that are left. -/
theorem render_opening (hw : Opening mode w) (hno : ¬ending <:+: front ++ (w ++ back))
    (hcut : Cut front items) (args : List Value) (used : Nat) (o : Output) :
    e.render (front ++ (w ++ back)) args used o =
      (e.render front args used o).bind fun o =>
        e.render back args (used + (Item.takers items).length) { o with out := o.out.write w } := by
  induction hcut generalizing used o with
  | nil =>
    have hbegins : Begins (w ++ back) (.copy w) back :=
      .unended hw fun h => hno (h.trans (List.suffix_append w back).isInfix)
    rw [List.nil_append, render_begins hbegins, render_nil_write]
    exact render_checked back args used o w
  | @copy front points rest items hb hrest ih =>
    rcases hb.copy_append hw hno with hbegins | ⟨rfl, tail, rfl, htail, hbegins⟩
    · have hbehind := ih (hbegins.rest_unended hno) used { o with out := o.out.write points }
      rw [render_begins hbegins, render_begins hb]
      show ((e.checkSize o).bind fun _ => e.render _ args used _) = _
      rw [hbehind]
      cases e.checkSize o <;> rfl
    · -- the percent sign is copied with what stands in front of it, and the rest of the opening
      -- is plain
      obtain rfl : items = [] := hrest.unique .nil
      rw [render_begins hbegins, render_begins hb]
      show ((e.checkSize o).bind fun _ => e.render _ args used _) = _
      rw [render_plain htail]
      cases e.checkSize o with
      | error f => rfl
      | ok _ =>
        show _ = (e.render [] args used { o with out := o.out.write points }).bind _
        rw [render_nil_write, Builder.write_write, List.append_assoc, List.singleton_append]
        rfl
  | @insert front spelling digits rest left items hb hrest ih =>
    have hbegins := hb.insert_append (w ++ back)
    have hno' : ¬ending <:+: rest ++ (w ++ back) := hbegins.rest_unended hno
    rw [render_taker hbegins rfl, render_taker hb rfl]
    cases e.checkSize o with
    | error f => rfl
    | ok _ =>
      refine takeThen_bind (fun o => ?_) _ _
      rw [ih hno']
      have hcount : used + 1 + (Item.takers items).length
          = used + (Item.takers (.insert spelling digits left :: items)).length := by
        show _ = used + ((Item.takers items).length + 1)
        omega
      rw [hcount]
  | block hb =>
    have hfront : ¬ending <:+: _ := fun h => hno (h.trans (List.prefix_append _ _).isInfix)
    exact absurd rfl (hb.not_block hfront)

/-! ### Calls within calls -/

section Asking

variable {m : Type → Type} [Monad m] [MonadLiftT (Except Failure) m]

/-- Renders a template with `levels` of calls inside this call, and with `turns` of the loop in
each of them. `gaveUp` is what is done where there are no more turns, and at a block whose body no
call is left for. -/
def renderWithin (gaveUp : m Output) (ask : Answers m) (e : Engine) (levels turns : Nat)
    (src : List Int) (args : List Value) (used : Nat) (o : Output) : m Output :=
  match turns, src with
  | 0, _ => gaveUp
  | _ + 1, [] => do
    e.checkSize o
    return o
  | turns + 1, c :: cs => do
    e.checkSize o
    let rest := (c :: cs).drop (Directive.read c cs).2
    match (Directive.read c cs).1, levels with
    | .copy points, _ =>
      renderWithin gaveUp ask e levels turns rest args used { o with out := o.out.write points }
    | .insert spelling digits left, _ =>
      let v ← nextArg args used spelling
      let o ← e.insert v (widthOf e.widthLimit digits) left
        { o with directives := o.directives + 1 }
      renderWithin gaveUp ask e levels turns rest args (used + 1) o
    | .block _ _ _, 0 => gaveUp
    | .block mode spelling body, inside + 1 =>
      let v ← nextArg args used spelling
      let members ← ask.membersOf v
      let o ← members.foldlM (fun o member => do
        let inner ← ask.bodyArgs mode member
        renderWithin gaveUp ask e inside turns body inner 0 o)
          { o with directives := o.directives + 1 }
      renderWithin gaveUp ask e levels turns rest args (used + 1) o
termination_by structural turns

/-- One call for a body is enough, none for a template without an end, and a turn for each code
point and one more. -/
theorem renderWithin_eq (gaveUp : m Output) (ask : Answers m) (e : Engine) {levels turns : Nat}
    (hlevels : levels = 0 → ¬ending <:+: src) (hturns : src.length < turns) (args : List Value)
    (used : Nat) (o : Output) :
    renderWithin gaveUp ask e levels turns src args used o =
      renderWith ask e src args used o := by
  induction turns generalizing levels src args used o with
  | zero => omega
  | succ turns ih =>
    cases src with
    | nil => rw [renderWithin, renderWith_nil]
    | cons c cs =>
      have hbegins : Begins (c :: cs) (Directive.read c cs).1
          ((c :: cs).drop (Directive.read c cs).2) :=
        begins_iff.mpr ⟨c, cs, rfl, rfl, rfl⟩
      rw [renderWith_begins hbegins, renderWithin]
      refine congrArg (liftM (e.checkSize o) >>= ·) (funext fun _ => ?_)
      dsimp only
      generalize (Directive.read c cs).1 = d at hbegins ⊢
      generalize (c :: cs).drop (Directive.read c cs).2 = rest at hbegins ⊢
      have hshorter := hbegins.rest_lt
      have hbehind : ∀ used o,
          renderWithin gaveUp ask e levels turns rest args used o =
            renderWith ask e rest args used o := fun used o =>
        ih (fun h => hbegins.rest_unended (hlevels h)) (by omega) args used o
      cases d with
      | copy points => exact hbehind _ _
      | insert spelling digits left =>
        refine congrArg (liftM (nextArg args used spelling) >>= ·) (funext fun v => ?_)
        exact congrArg (liftM (e.insert v _ left _) >>= ·) (funext fun o => hbehind _ o)
      | block mode spelling body =>
        cases levels with
        | zero => exact absurd rfl (hbegins.not_block (hlevels rfl))
        | succ inside =>
          -- there is no end in a body, so that its call needs none for a body of its own
          have hbody : ∀ inner o,
              renderWithin gaveUp ask e inside turns body inner 0 o =
                renderWith ask e body inner 0 o := fun inner o =>
            ih (fun _ => hbegins.body_unended) (by have := hbegins.body_lt; omega) inner 0 o
          refine congrArg (liftM (nextArg args used spelling) >>= ·) (funext fun v => ?_)
          refine congrArg (ask.membersOf v >>= ·) (funext fun members => ?_)
          simp only [hbody]
          exact congrArg (_ >>= ·) (funext fun o => hbehind _ o)

end Asking

/-! ### Blocks never nest -/

/-- Blocks never nest.  There is no end in the body of a block, so at no place of it does a block
begin; an opening in it is written as it stands, and takes no argument, whatever stands in front
of it and behind it.  However questions are answered, a body is rendered without a call for a body
in it, and a template with one such call at a time, in no more turns of each loop than there are
code points and one: with this much, the renderer that counts its calls and its turns never gives
up, and what it comes to is the rendering.  So every template is rendered to an end, if each value
has finitely many members. -/
theorem blocks_never_nest {m : Type → Type} [Monad m] [MonadLiftT (Except Failure) m]
    (gaveUp : m Output) (ask : Answers m) (e : Engine) :
    (∀ src mode spelling body rest, Begins src (.block mode spelling body) rest →
      ¬ending <:+: body ∧
      (∀ front back d rest', body = front ++ back → Begins back d rest' →
        ∀ mode' w inner, d ≠ .block mode' w inner) ∧
      (∀ mode' w front back, Opening mode' w → body = front ++ (w ++ back) →
        ∃ items, Cut front items ∧ ∀ args used o,
          e.render body args used o = (e.render front args used o).bind fun o =>
            e.render back args (used + (Item.takers items).length)
              { o with out := o.out.write w }) ∧
      ∀ turns args o, body.length < turns →
        renderWithin gaveUp ask e 0 turns body args 0 o = renderWith ask e body args 0 o) ∧
    (∀ turns src args o, src.length < turns →
      renderWithin gaveUp ask e 1 turns src args 0 o = renderWith ask e src args 0 o) ∧
    ∀ (gaveUp : Except Failure Output) (tmpl : Text) (args : List Value),
      (e.format tmpl args).result =
        (renderWithin gaveUp e.answers e 1 (tmpl.length + 1) tmpl.points args 0 {}).map
          fun o => o.out.text := by
  refine ⟨fun src mode spelling body rest h => ?_, fun turns src args o hturns => ?_,
    fun gaveUp tmpl args => ?_⟩
  · have hno := h.body_unended
    refine ⟨hno, ?_, ?_,
      fun turns args o hturns => renderWithin_eq gaveUp ask e (fun _ => hno) hturns args 0 o⟩
    · rintro front back d rest' rfl hbegins mode' w inner
      exact hbegins.not_block fun hback => hno (hback.trans (List.suffix_append _ _).isInfix)
    · rintro mode' w front back hw rfl
      obtain ⟨items, hcut⟩ := exists_cut front
      exact ⟨items, hcut, render_opening hw hno hcut⟩
  · exact renderWithin_eq gaveUp ask e (fun h => absurd h Nat.one_ne_zero) hturns args 0 o
  · have hwithin : renderWithin gaveUp e.answers e 1 (tmpl.length + 1) tmpl.points args 0 {}
        = renderWith e.answers e tmpl.points args 0 {} :=
      renderWithin_eq gaveUp e.answers e (fun h => absurd h Nat.one_ne_zero)
        (Nat.lt_succ_self _) args 0 {}
    rw [format_result, hwithin]
    rfl

/-- A body with an opening in it whose percent sign is taken by another one in front of it. -/
theorem blocks_never_nest_opening :
    let e : Engine := {}
    let v : Value := .text ⟨[0x78]⟩
    let body : List Int := [0x25, 0x25, 0x5B, 0x25, 0x73]
    Begins ([0x25, 0x5B] ++ (body ++ (ending ++ []))) (.block .each [0x25, 0x5B] body) [] ∧
      (e.render body [v] 0 {} = (e.render [0x25] [v] 0 {}).bind fun o =>
        e.render [0x25, 0x73] [v] 0 { o with out := o.out.write [0x25, 0x5B] }) ∧
      (e.format ⟨[0x25, 0x5B] ++ (body ++ (ending ++ []))⟩ [.list [v]]).result
        = .ok ⟨[0x25, 0x25, 0x5B, 0x78]⟩ := by
  intro e v body
  have hblock : Begins ([0x25, 0x5B] ++ (body ++ (ending ++ [])))
      (.block .each [0x25, 0x5B] body) [] :=
    .block .each (by decide)
  have hsign : Begins [0x25] (.copy [0x25]) [] := begins_iff.mpr ⟨_, _, rfl, rfl, rfl⟩
  obtain ⟨hbodies, -, hformat⟩ := blocks_never_nest (.error (tooLarge 0)) e.answers e
  obtain ⟨-, -, hopenings, -⟩ := hbodies _ _ _ _ _ hblock
  obtain ⟨items, hcut, hrender⟩ := hopenings .each [0x25, 0x5B] [0x25] [0x25, 0x73] .each rfl
  obtain rfl : items = [.copy [0x25]] := hcut.unique (.copy hsign .nil)
  refine ⟨hblock, hrender [v] 0 {}, ?_⟩
  rw [hformat (.error (tooLarge 0))]
  rfl

end Engine

end TextScript
