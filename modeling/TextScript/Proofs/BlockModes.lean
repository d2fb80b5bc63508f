/-
TextScript/Proofs/BlockModes.lean

The modes of a block where they overlap.

A template that is one block and nothing else is a fold over the members of its argument
(`render_blockAlone`), and the mode only says what a member gives to the body.  So two such blocks
render alike if their members, one by one, give the same arguments (`render_blockAlone_congr`): a
value by itself what a list of it alone gives with its members, and a list of two with its halves
what it gives with its members.  Splitting never comes to anything else than enumerating there
(`Value.toPair_of_members`).

Without a bound, what a block adds for some members and then for others is what it adds for all of
them, since each body has a cursor of its own.
-/
import Mathlib.Data.List.Forall2
import TextScript.Proofs.Rendering

namespace TextScript

open Directive

/-! ### One block alone -/

/-- How a block of some mode begins. -/
def BlockMode.opening : BlockMode → List Int
  | .each => [percent, openBracket]
  | .splat => [percent, asterisk, openBracket]
  | .pairs => [percent, colon, openBracket]

theorem BlockMode.opening_opens (mode : BlockMode) : Opening mode mode.opening := by
  cases mode with
  | each => exact .each
  | splat => exact .splat
  | pairs => exact .pairs

/-- The template of one block and nothing else. -/
def blockAlone (mode : BlockMode) (body : Text) : Text :=
  ⟨mode.opening ++ (body.points ++ ending)⟩

variable {mode mode' : BlockMode} {body : Text} {v w : Value} {vs ws : List Value}
variable {items : List Item}

theorem begins_blockAlone (mode : BlockMode) (hbody : ¬ending <:+: body.points) :
    Begins (blockAlone mode body).points (.block mode mode.opening body.points) [] := by
  have h : Begins (mode.opening ++ (body.points ++ (ending ++ []))) _ _ :=
    .block mode.opening_opens hbody
  rwa [List.append_nil] at h

theorem cut_blockAlone (mode : BlockMode) (hbody : ¬ending <:+: body.points)
    (hitems : Cut body.points items) :
    Cut (blockAlone mode body).points [.block mode mode.opening items] :=
  .block (begins_blockAlone mode hbody) hitems .nil

/-! ### Members and halves -/

/-- A value with two members has them as its halves. -/
theorem Value.toPair_of_members {p a b : Value} (h : p.toSequence = .ok [a, b]) :
    p.toPair = .ok (a, b) := by
  unfold toPair halvesIn
  unfold toSequence sequenceIn at h
  generalize p.unmarked = q at h ⊢
  cases q <;> simp_all [sequenceIn, unmarked]

namespace Engine

variable {e : Engine}

/-- Rendering a block alone is a fold over the members of its argument. -/
theorem render_blockAlone (mode : BlockMode) (hbody : ¬ending <:+: body.points)
    (hv : e.caps.membersOf v = .ok vs) :
    e.render (blockAlone mode body).points [v] 0 {} =
      (e.checkSize {}).bind fun _ =>
        (vs.foldlM (e.renderMember mode body.points) { directives := 1 }).bind fun o =>
          (e.checkSize o).map fun _ => o := by
  rw [render_begins (begins_blockAlone mode hbody)]
  refine congrArg (e.checkSize {}).bind (funext fun _ => ?_)
  show (e.caps.membersOf v).bind _ = _
  rw [hv]
  exact congrArg (Except.bind _) (funext fun _ => render_nil)

theorem foldlM_congr {f g : Output → Value → Except Failure Output}
    (h : List.Forall₂ (fun x y => ∀ o, f o x = g o y) vs ws) (o : Output) :
    vs.foldlM f o = ws.foldlM g o := by
  induction h generalizing o with
  | nil => rfl
  | cons hxy _ ih =>
    rw [List.foldlM_cons, List.foldlM_cons, hxy]
    exact congrArg (_ >>= ·) (funext ih)

/-- Two blocks with one body render alike if their members give the same arguments to it. -/
theorem render_blockAlone_congr (hbody : ¬ending <:+: body.points)
    (hv : e.caps.membersOf v = .ok vs) (hw : e.caps.membersOf w = .ok ws)
    (h : List.Forall₂ (fun x y => e.bodyArgs mode x = e.bodyArgs mode' y) vs ws) :
    e.render (blockAlone mode body).points [v] 0 {} =
      e.render (blockAlone mode' body).points [w] 0 {} := by
  have hmember : List.Forall₂ (fun x y => ∀ o, e.renderMember mode body.points o x
      = e.renderMember mode' body.points o y) vs ws := by
    refine h.imp fun x y hxy o => ?_
    rw [renderMember, hxy]
    rfl
  rw [render_blockAlone mode hbody hv, render_blockAlone mode' hbody hw, foldlM_congr hmember]

/-- What is rendered, and with how many directives, is all that a call returns and reports. -/
theorem format_congr {t t' : Text} {args args' : List Value}
    (h : e.render t.points args 0 {} = e.render t'.points args' 0 {})
    (hlen : args.length = args'.length) : e.format t args = e.format t' args' := by
  rw [format, format, h, hlen]

/-! ### Blocks without a bound -/

/-- What the items of a body add for one member. -/
def memberOutput (caps : Capabilities) (mode : BlockMode) (body : List Item) (member : Value) :
    Except Failure (List Int) :=
  (memberArgs caps member mode).bind fun inner => Item.outputs caps inner 0 body

theorem outputs_block {caps : Capabilities} (hv : caps.membersOf v = .ok vs) (spelling : List Int) :
    Item.outputs caps [v] 0 [.block mode spelling items] =
      (vs.mapM (memberOutput caps mode items)).map List.flatten := by
  have hone : (Item.block mode spelling items).output caps [v] 0
      = (vs.mapM (memberOutput caps mode items)).map List.flatten := by
    rw [Item.output]
    show (caps.membersOf v).bind _ = _
    rw [hv]
    show (vs.mapM (memberOutput caps mode items)).bind _ = _
    cases vs.mapM (memberOutput caps mode items) <;> rfl
  rw [Item.outputs, hone]
  cases vs.mapM (memberOutput caps mode items) with
  | error f => rfl
  | ok parts => exact congrArg Except.ok (List.append_nil _)

/-- Without a bound, a block adds for some members and others what it adds for these and then for
those. -/
theorem format_blockAlone_append {u : Value} (hmax : e.maxOutput ≤ 0) (mode : BlockMode)
    (hbody : ¬ending <:+: body.points) (hu : e.caps.membersOf u = .ok (vs ++ ws))
    (hv : e.caps.membersOf v = .ok vs) (hw : e.caps.membersOf w = .ok ws) :
    (e.format (blockAlone mode body) [u]).result =
      (e.format (blockAlone mode body) [v]).result.bind fun s =>
        (e.format (blockAlone mode body) [w]).result.map s.append := by
  obtain ⟨items, hitems⟩ := exists_cut body.points
  have hcut := cut_blockAlone mode hbody hitems
  rw [format_cut hmax hcut, format_cut hmax hcut, format_cut hmax hcut, outputs_block hu,
    outputs_block hv, outputs_block hw, List.mapM_append]
  cases vs.mapM (memberOutput e.caps mode items) with
  | error f => rfl
  | ok first =>
    cases ws.mapM (memberOutput e.caps mode items) with
    | error f => rfl
    | ok rest => exact congrArg (fun ns => Except.ok (Text.mk ns)) List.flatten_append

/-! ### The modes compared -/

/-- The modes of a block agree where they overlap, with the language's own conversions and for
every body and every bound.  On members one by one a block does what a splitting of lists of one
does, and on the halves of lists of two what it does on their members, down to the failures and to
what is reported.  Without a bound, whatever the mode, a block on one list of members after
another is the block on the first and then the block on the second. -/
theorem block_modes_agree (bound : Int) (body : Text) (hbody : ¬ending <:+: body.points) :
    let e : Engine := ⟨.native, bound⟩
    (∀ v w xs ys, v.toSequence = .ok xs → w.toSequence = .ok ys →
      List.Forall₂ (fun x y => y.toSequence = .ok [x]) xs ys →
      e.format (blockAlone .each body) [v] = e.format (blockAlone .splat body) [w]) ∧
    (∀ v ps, v.toSequence = .ok ps → (∀ p ∈ ps, ∃ a b, p.toSequence = .ok [a, b]) →
      e.format (blockAlone .pairs body) [v] = e.format (blockAlone .splat body) [v]) ∧
    (bound ≤ 0 → ∀ mode u v w xs ys, u.toSequence = .ok (xs ++ ys) → v.toSequence = .ok xs →
      w.toSequence = .ok ys →
      (e.format (blockAlone mode body) [u]).result =
        (e.format (blockAlone mode body) [v]).result.bind fun s =>
          (e.format (blockAlone mode body) [w]).result.map s.append) := by
  intro e
  refine ⟨fun v w xs ys hv hw h => ?_, fun v ps hv h => ?_,
    fun hmax mode u v w xs ys hu hv hw => ?_⟩
  · have hargs : List.Forall₂ (fun x y => e.bodyArgs .each x = e.bodyArgs .splat y) xs ys :=
      h.imp fun x y hxy => (Capabilities.membersOf_ok hxy).symm
    exact format_congr
      (render_blockAlone_congr hbody (Capabilities.membersOf_ok hv)
        (Capabilities.membersOf_ok hw) hargs) rfl
  · -- the same members, and only what is made of each of them differs
    have hargs : List.Forall₂ (fun x y => e.bodyArgs .pairs x = e.bodyArgs .splat y) ps ps := by
      refine List.forall₂_same.mpr fun p hp => ?_
      obtain ⟨a, b, hab⟩ := h p hp
      show (e.caps.halvesOf p).map _ = e.caps.membersOf p
      rw [Capabilities.halvesOf_ok rfl (Value.toPair_of_members hab), Capabilities.membersOf_ok hab]
      rfl
    exact format_congr
      (render_blockAlone_congr hbody (Capabilities.membersOf_ok hv)
        (Capabilities.membersOf_ok hv) hargs) rfl
  · exact format_blockAlone_append hmax mode hbody (Capabilities.membersOf_ok hu)
      (Capabilities.membersOf_ok hv)
      (Capabilities.membersOf_ok hw)

/-- A body with an opening that is never ended: on two values one by one, on two lists of one, and
on a pair. -/
theorem block_modes_agree_two :
    let e : Engine := ⟨.native, 0⟩
    let body : Text := ⟨[0x25, 0x73, 0x25, 0x5B]⟩
    let a : Value := .text ⟨[0x61]⟩
    let b : Value := .text ⟨[0x62]⟩
    e.format (blockAlone .each body) [.list [a, b]]
        = e.format (blockAlone .splat body) [.list [.list [a], .list [b]]] ∧
      e.format (blockAlone .pairs body) [.list [.list [a, b]]]
        = e.format (blockAlone .splat body) [.list [.list [a, b]]] ∧
      (e.format (blockAlone .each body) [.list [a, b]]).result
        = .ok ⟨[0x61, 0x25, 0x5B, 0x62, 0x25, 0x5B]⟩ := by
  intro e body a b
  obtain ⟨heach, hpairs, happend⟩ := block_modes_agree 0 body (by decide)
  have hsingles : List.Forall₂ (fun x y : Value => y.toSequence = .ok [x]) [a, b]
      [.list [a], .list [b]] :=
    .cons rfl (.cons rfl .nil)
  have hpair : ∀ p ∈ [Value.list [a, b]], ∃ a b, p.toSequence = .ok [a, b] :=
    List.forall_mem_singleton.mpr ⟨a, b, rfl⟩
  refine ⟨heach _ _ _ _ rfl rfl hsingles, hpairs _ _ rfl hpair, ?_⟩
  rw [happend (Int.le_refl 0) .each _ (.list [a]) (.list [b]) [a] [b] rfl rfl rfl]
  with_unfolding_all rfl

end Engine

end TextScript
