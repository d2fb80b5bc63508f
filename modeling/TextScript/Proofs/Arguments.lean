/-
TextScript/Proofs/Arguments.lean

The arguments that a rendering reads.

Every insertion and every block takes the next argument, whatever else it does (`takeThen`), and
nothing else in a template looks at the arguments: the body of a block has arguments of its own.
So a rendering with more arguments does the same until it has used up the fewer ones, and only a
directive that finds none left makes a difference (`render_surplus`).  And a rendering that comes
to its end has taken one argument for each of its directives, in order; with the first few of them
it does the same up to the directive behind these, which fails (`render_short`).
-/
import TextScript.Proofs.OutputBound

namespace TextScript

/-! ### Items that take an argument -/

/-- How a directive that takes an argument is spelled. -/
def Directive.spelling? : Directive → Option (List Int)
  | .copy _ => none
  | .insert spelling _ _ => some spelling
  | .block _ spelling _ => some spelling

/-- How an item that takes an argument is spelled. -/
def Item.spelling? : Item → Option (List Int)
  | .copy _ => none
  | .insert spelling _ _ => some spelling
  | .block _ spelling _ => some spelling

/-- The spellings of the items that take an argument, in order.  What stands in the body of a
block is not among them. -/
def Item.takers (items : List Item) : List (List Int) :=
  items.filterMap Item.spelling?

namespace Engine

variable {e : Engine} {src rest spelling digits body : List Int} {left : Bool} {mode : BlockMode}
variable {args extra : List Value} {used j : Nat} {o o' : Output} {items : List Item}

/-! ### Taking an argument -/

/-- What a directive fails with that finds none of `count` arguments left behind the first
`used`. -/
def missing (spelling : List Int) (used count : Nat) : Failure :=
  .make .argumentUnderflow (some
    [("Directive", .text (Text.mk spelling).toString), ("Index", .number (used + 1)),
     ("Count", .number count)])

theorem missing_render (spelling : List Int) (used count : Nat) :
    (missing spelling used count).render
      = "format directive '" ++ (Text.mk spelling).toString ++ "' needs argument "
        ++ toString (used + 1) ++ ", but only " ++ toString count ++ " given" := by
  have hindex : toString (used + 1) = toString ((used : Int) + 1) := rfl
  have hcount : toString count = toString (count : Int) := rfl
  show "" ++ "" ++ Template.fill _ _ ++ String.join [] = _
  rw [hindex, hcount]
  simp [Template.fill, String.join, List.lookup_cons, Datum.render]

theorem nextArg_some {v : Value} (h : args[used]? = some v) (spelling : List Int) :
    nextArg args used spelling = .ok v := by
  rw [nextArg, h]

theorem nextArg_none (h : args.length ≤ used) (spelling : List Int) :
    nextArg args used spelling = .error (missing spelling used args.length) := by
  rw [nextArg, List.getElem?_eq_none h]
  rfl

theorem nextArg_ok {v : Value} (h : nextArg args used spelling = .ok v) : args[used]? = some v := by
  unfold nextArg at h
  split at h
  · next heq =>
    cases h
    exact heq
  · cases h

/-- What an item does with its argument. -/
def work (e : Engine) (o : Output) : Directive → Value → Except Failure Output
  | .copy _, _ => .ok o
  | .insert _ digits left, v =>
    e.insert v (widthOf e.widthLimit digits) left { o with directives := o.directives + 1 }
  | .block mode _ body, v =>
    (e.caps.membersOf v).bind fun members =>
      members.foldlM (e.renderMember mode body) { o with directives := o.directives + 1 }

/-- Takes the next argument, does the work with it, and goes on behind the item. -/
def takeThen (e : Engine) (rest : List Int) (work : Value → Except Failure Output)
    (args : List Value) (used : Nat) (spelling : List Int) : Except Failure Output :=
  (nextArg args used spelling).bind fun v => (work v).bind fun o => e.render rest args (used + 1) o

/-- An item that takes an argument: the size is checked, the argument taken, and its work done. -/
theorem render_taker {d : Directive} (h : Begins src d rest) (hd : d.spelling? = some spelling) :
    e.render src args used o = (e.checkSize o).bind fun _ =>
      e.takeThen rest (e.work o d) args used spelling := by
  rw [render_begins h]
  refine congrArg (e.checkSize o).bind (funext fun _ => ?_)
  cases d with
  | copy points => cases hd
  | insert w digits left =>
    cases hd
    rfl
  | block mode w body =>
    cases hd
    refine congrArg (nextArg args used spelling).bind (funext fun v => ?_)
    show (e.caps.membersOf v).bind _ = ((e.caps.membersOf v).bind _).bind _
    cases e.caps.membersOf v <;> rfl

/-! ### More arguments than are read -/

/-- The second result is the first one, unless that is the failure of a directive without an
argument. -/
def SameUnlessMissing {α : Type} (count : Nat) (r r' : Except Failure α) : Prop :=
  r' = r ∨ ∃ spelling used, r = .error (missing spelling used count)

theorem SameUnlessMissing.after {α β : Type} {count : Nat} {x : Except Failure α}
    {k k' : α → Except Failure β} (h : ∀ a, SameUnlessMissing count (k a) (k' a)) :
    SameUnlessMissing count (x.bind k) (x.bind k') := by
  cases x with
  | error f => exact .inl rfl
  | ok a => exact h a

theorem nextArg_surplus (args extra : List Value) (used : Nat) (spelling : List Int) :
    SameUnlessMissing args.length (nextArg args used spelling)
      (nextArg (args ++ extra) used spelling) := by
  by_cases hlt : used < args.length
  · have hsame : (args ++ extra)[used]? = args[used]? := List.getElem?_append_left hlt
    exact .inl (by rw [nextArg, nextArg, hsame, List.getElem?_eq_getElem hlt])
  · exact .inr ⟨_, _, nextArg_none (by omega) spelling⟩

theorem takeThen_surplus {work : Value → Except Failure Output}
    (h : ∀ o, SameUnlessMissing args.length (e.render rest args (used + 1) o)
      (e.render rest (args ++ extra) (used + 1) o)) :
    SameUnlessMissing args.length (e.takeThen rest work args used spelling)
      (e.takeThen rest work (args ++ extra) used spelling) := by
  unfold takeThen
  rcases nextArg_surplus args extra used spelling with hsame | ⟨w, k, hmissing⟩
  · rw [hsame]
    exact .after fun v => .after h
  · rw [hmissing]
    exact .inr ⟨w, k, rfl⟩

/-- More arguments make no difference but to a directive that finds none. -/
theorem render_surplus (src : List Int) (args extra : List Value) (used : Nat) (o : Output) :
    SameUnlessMissing args.length (e.render src args used o)
      (e.render src (args ++ extra) used o) := by
  induction src using template_induction generalizing used o with
  | done => exact .inl (by rw [render_nil, render_nil])
  | copy src points rest h ih =>
    rw [render_begins h, render_begins h]
    exact .after fun _ => ih used _
  | insert src spelling digits left rest h ih =>
    rw [render_taker h rfl, render_taker h rfl]
    exact .after fun _ => takeThen_surplus (ih (used + 1))
  | block src mode spelling body rest h _ ih =>
    rw [render_taker h rfl, render_taker h rfl]
    exact .after fun _ => takeThen_surplus (ih (used + 1))

/-! ### Fewer arguments than are read -/

/-- With only the first few of the arguments, a rendering fails at the directive that needs the
next one; `spellings` are those of the directives still to come. -/
def FailsShort (e : Engine) (src : List Int) (args : List Value) (used : Nat) (o : Output)
    (spellings : List (List Int)) : Prop :=
  ∀ j spelling, spellings[j]? = some spelling → used + j < args.length ∧
    e.render src (args.take (used + j)) used o = .error (missing spelling (used + j) (used + j))

theorem takeThen_short {work : Value → Except Failure Output} {spellings : List (List Int)}
    (hok : e.takeThen rest work args used spelling = .ok o')
    (hrest : ∀ o, e.render rest args (used + 1) o = .ok o' →
      e.FailsShort rest args (used + 1) o spellings) :
    ∀ j w, (spelling :: spellings)[j]? = some w → used + j < args.length ∧
      e.takeThen rest work (args.take (used + j)) used spelling
        = .error (missing w (used + j) (used + j)) := by
  intro j w hw
  obtain ⟨v, hv, hok⟩ := bind_eq_ok.mp hok
  obtain ⟨o, ho, hok⟩ := bind_eq_ok.mp hok
  have harg := nextArg_ok hv
  have hlt : used < args.length := (List.getElem?_eq_some_iff.mp harg).1
  cases j with
  | zero =>
    -- its own argument is the first that is missing
    obtain rfl : spelling = w := Option.some.inj hw
    have hlen : (args.take used).length = used := by
      rw [List.length_take]
      omega
    have hnone := nextArg_none (Nat.le_of_eq hlen) spelling
    rw [hlen] at hnone
    refine ⟨hlt, ?_⟩
    rw [takeThen, Nat.add_zero, hnone]
    rfl
  | succ j =>
    obtain ⟨hmore, hfails⟩ := hrest o hok j w hw
    have hsame : (args.take (used + (j + 1)))[used]? = some v := by
      rw [List.getElem?_take_of_lt (by omega), harg]
    have hindex : used + 1 + j = used + (j + 1) := by omega
    rw [hindex] at hmore hfails
    refine ⟨hmore, ?_⟩
    rw [takeThen, nextArg_some hsame]
    show (work v).bind _ = _
    rw [ho]
    exact hfails

/-- A rendering that comes to its end has an argument for each of its directives, and none to
spare. -/
theorem render_short (hcut : Cut src items) (hok : e.render src args used o = .ok o') :
    e.FailsShort src args used o (Item.takers items) := by
  induction hcut generalizing used o with
  | nil =>
    intro j w hw
    cases hw
  | copy h _ ih =>
    rw [render_begins h] at hok
    obtain ⟨⟨⟩, hfits, hok⟩ := bind_eq_ok.mp hok
    intro j w hw
    rw [render_begins h, hfits]
    exact ih hok j w hw
  | insert h _ ih =>
    rw [render_taker h rfl] at hok
    obtain ⟨⟨⟩, hfits, hok⟩ := bind_eq_ok.mp hok
    intro j w hw
    rw [render_taker h rfl, hfits]
    exact takeThen_short hok (fun _ => ih) j w hw
  | block h _ _ _ ih =>
    rw [render_taker h rfl] at hok
    obtain ⟨⟨⟩, hfits, hok⟩ := bind_eq_ok.mp hok
    intro j w hw
    rw [render_taker h rfl, hfits]
    exact takeThen_short hok (fun _ => ih) j w hw

/-! ### The arguments of a template -/

/-- A template looks at the arguments that its directives take, and at no others.  Arguments
beyond those given change nothing, unless one was missing.  And if a rendering succeeds, it has an
argument for each item of the template that takes one, and with only the first `j` of its
arguments, for any lesser number, it fails for want of argument `j + 1`, at the item that takes
this one. -/
theorem surplus_never_read (e : Engine) (tmpl : Text) (args extra : List Value) :
    ((∀ f, (e.format tmpl args).result = .error f → ¬reportedAs .argumentUnderflow f) →
      (e.format tmpl (args ++ extra)).result = (e.format tmpl args).result) ∧
    ∀ items t, Cut tmpl.points items → (e.format tmpl args).result = .ok t →
      (Item.takers items).length ≤ args.length ∧
      ∀ j w, (Item.takers items)[j]? = some w →
        ∃ f, (e.format tmpl (args.take j)).result = .error f ∧ reportedAs .argumentUnderflow f ∧
          f.render = "format directive '" ++ (Text.mk w).toString ++ "' needs argument "
            ++ toString (j + 1) ++ ", but only " ++ toString j ++ " given" := by
  refine ⟨fun hno => ?_, fun items t hcut hok => ?_⟩
  · rw [format_result, format_result]
    rcases render_surplus tmpl.points args extra 0 {} with hsame | ⟨w, k, hmissing⟩
    · rw [hsame]
    · have hfails : (e.format tmpl args).result = .error (missing w k args.length) := by
        rw [format_result, hmissing]
        rfl
      exact absurd rfl (hno _ hfails)
  · rw [format_result] at hok
    obtain ⟨o, hrender, -⟩ := map_eq_ok.mp hok
    have hshort := render_short hcut hrender
    refine ⟨?_, fun j w hw => ?_⟩
    · -- the last item that takes an argument has one
      cases hlast : (Item.takers items).length with
      | zero => exact Nat.zero_le _
      | succ n =>
        have hn : n < (Item.takers items).length := by omega
        have hlt := (hshort n _ (List.getElem?_eq_getElem hn)).1
        omega
    · have hfails := (hshort j w hw).2
      rw [Nat.zero_add] at hfails
      refine ⟨missing w j j, ?_, rfl, missing_render w j j⟩
      rw [format_result, hfails]
      rfl

/-- An insertion, what looks like the opening of a block, and a block: two of them take an
argument. -/
theorem surplus_never_read_two :
    let tmpl : Text := ⟨[0x25, 0x73, 0x25, 0x2A, 0x78, 0x25, 0x5B, 0x2D, 0x25, 0x5D]⟩
    let a : Value := .text ⟨[0x61]⟩
    (({} : Engine).format tmpl [a, .list [a, a], a]).result
        = .ok ⟨[0x61, 0x25, 0x2A, 0x78, 0x2D, 0x2D]⟩ ∧
      ∃ f, (({} : Engine).format tmpl [a]).result = .error f ∧ reportedAs .argumentUnderflow f ∧
        f.render = "format directive '%[' needs argument 2, but only 1 given" := by
  intro tmpl a
  have hnone : ∀ d ∈ ([] : List Int), Directive.isDigit d = true := by decide
  have hopen : ¬ending <:+: [0x2D] := by decide
  have hblock : Begins [0x25, 0x5B, 0x2D, 0x25, 0x5D] (.block .each [0x25, 0x5B] [0x2D]) [] :=
    .block .each hopen
  have hmarked : Begins [0x25, 0x2A, 0x78, 0x25, 0x5B, 0x2D, 0x25, 0x5D] (.copy [0x25, 0x2A, 0x78])
      [0x25, 0x5B, 0x2D, 0x25, 0x5D] :=
    .marked (.inl rfl) (by decide)
  have hvalue : Begins tmpl.points (.insert [0x25, 0x73] [] false)
      [0x25, 0x2A, 0x78, 0x25, 0x5B, 0x2D, 0x25, 0x5D] :=
    .insert false hnone
  have hbody : Cut [0x2D] [.copy [0x2D]] := .copy (.plain (by decide)) .nil
  have hcut := Cut.insert hvalue (.copy hmarked (.block hblock hbody .nil))
  have hok : (({} : Engine).format tmpl [a, .list [a, a]]).result
      = .ok ⟨[0x61, 0x25, 0x2A, 0x78, 0x2D, 0x2D]⟩ := by
    with_unfolding_all rfl
  obtain ⟨hmore, hfewer⟩ := surplus_never_read {} tmpl [a, .list [a, a]] [a]
  refine ⟨(hmore fun f hf => ?_).trans hok, ?_⟩
  · rw [hok] at hf
    cases hf
  · obtain ⟨f, hfails, hcode, hrender⟩ := (hfewer _ _ hcut hok).2 1 [0x25, 0x5B] rfl
    exact ⟨f, hfails, hcode, hrender.trans (by decide +kernel)⟩

end Engine

end TextScript
