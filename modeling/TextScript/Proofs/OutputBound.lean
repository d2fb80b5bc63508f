/-
TextScript/Proofs/OutputBound.lean

A bound on the output only filters renderings.

The bound is tested in four places: before each item, at the end of each body, on the width of an
insertion, and before its text is written.  `Filtered bound r r'` says what they come to together:
the bounded rendering `r'` has the result of the unbounded one `r` if that fits, and otherwise
fails for its size, or as `r` does.

Two facts carry the induction.  Outputs only grow (`render_grows`), so a rendering that was too
large once would have been so at its end.  And a width refused for the bound would have made a
field larger than it (`insert_filtered`), so nothing that fits is refused.
-/
import TextScript.Proofs.Literals
import TextScript.Proofs.Rendering

namespace TextScript

namespace Engine

variable {e : Engine} {src body rest : List Int} {args : List Value} {used : Nat} {o o' : Output}

/-! ### Outputs only grow -/

/-- The computation never shortens the output it begins with. -/
def Grows (k : Output → Except Failure Output) : Prop :=
  ∀ o o', k o = .ok o' → o.out.length ≤ o'.out.length

theorem length_write (o : Output) (ns : List Int) :
    ({ o with out := o.out.write ns } : Output).out.length = o.out.length + ns.length := by
  simp [Text.length]

/-- A field is as wide as asked, or as its text. -/
theorem length_padded (t : Text) (width : Nat) (left : Bool) :
    (padded t width left).length = max width t.length := by
  have hlen : t.points.length = t.length := rfl
  unfold padded
  split <;> simp only [List.length_append, List.length_replicate, hlen] <;> omega

theorem Grows.bind {k k' : Output → Except Failure Output} (h : Grows k) (h' : Grows k') :
    Grows fun o => (k o).bind k' := by
  intro o o'' hok
  obtain ⟨o', hfirst, hrest⟩ := bind_eq_ok.mp hok
  exact Nat.le_trans (h o o' hfirst) (h' o' o'' hrest)

theorem foldlM_grows {k : Output → Value → Except Failure Output} (hk : ∀ v, Grows fun o => k o v)
    (vs : List Value) : Grows fun o => vs.foldlM k o := by
  induction vs with
  | nil =>
    intro o o' hok
    cases hok
    exact Nat.le_refl _
  | cons v vs ih =>
    intro o o' hok
    simp only [List.foldlM_cons] at hok
    exact (hk v).bind ih o o' hok

theorem insert_grows (v : Value) (width : Nat) (left : Bool) : Grows (e.insert v width left) := by
  intro o o' hok
  obtain ⟨t, -, hrest⟩ := bind_eq_ok.mp hok
  split at hrest
  · cases hrest
  · split at hrest
    · cases hrest
    · cases hrest
      rw [length_write]
      exact Nat.le_add_right _ _

theorem renderMember_grows (hbody : ∀ inner, Grows (e.render body inner 0)) (mode : BlockMode)
    (member : Value) : Grows fun o => e.renderMember mode body o member := by
  intro o o' hok
  obtain ⟨inner, -, hrender⟩ := bind_eq_ok.mp hok
  exact hbody inner o o' hrender

/-- A rendering adds to the output and takes nothing away. -/
theorem render_grows (src : List Int) (args : List Value) (used : Nat) :
    Grows (e.render src args used) := by
  induction src using template_induction generalizing args used with
  | done =>
    intro o o' hok
    rw [render_nil] at hok
    obtain ⟨-, -, rfl⟩ := map_eq_ok.mp hok
    exact Nat.le_refl _
  | copy src points rest h ih =>
    intro o o' hok
    rw [render_begins h] at hok
    obtain ⟨-, -, hrest⟩ := bind_eq_ok.mp hok
    have hle := ih args used _ o' hrest
    rw [length_write] at hle
    omega
  | insert src spelling digits left rest h ih =>
    intro o o' hok
    rw [render_begins h] at hok
    obtain ⟨-, -, hitem⟩ := bind_eq_ok.mp hok
    obtain ⟨v, -, hitem⟩ := bind_eq_ok.mp hitem
    exact (insert_grows v _ left).bind (ih args (used + 1))
      { o with directives := o.directives + 1 } o' hitem
  | block src mode spelling body rest h ihb ih =>
    intro o o' hok
    rw [render_begins h] at hok
    obtain ⟨-, -, hitem⟩ := bind_eq_ok.mp hok
    obtain ⟨v, -, hitem⟩ := bind_eq_ok.mp hitem
    obtain ⟨members, -, hitem⟩ := bind_eq_ok.mp hitem
    have hmembers := foldlM_grows (renderMember_grows (fun inner => ihb inner 0) mode) members
    exact hmembers.bind (ih args (used + 1)) { o with directives := o.directives + 1 } o' hitem

/-! ### Filtered renderings -/

/-- `Filtered bound r r'`: the rendering `r'` is what a bound leaves of `r`.  What fits is kept,
and failures stay; but a rendering that does not fit, or that fails, may also be refused for its
size. -/
inductive Filtered (bound : Int) : Except Failure Output → Except Failure Output → Prop
  | kept {o : Output} : o.out.length ≤ bound → Filtered bound (.ok o) (.ok o)
  | failed (f : Failure) : Filtered bound (.error f) (.error f)
  | refused {r : Except Failure Output} (n : Int) :
      (∀ o, r = .ok o → bound < o.out.length) → Filtered bound r (.error (tooLarge n))

variable {bound : Int}

theorem filtered_bind {r r' : Except Failure Output} {k k' : Output → Except Failure Output}
    (h : Filtered bound r r') (hk : ∀ o, o.out.length ≤ bound → Filtered bound (k o) (k' o))
    (hgrow : Grows k) : Filtered bound (r.bind k) (r'.bind k') := by
  cases h with
  | kept hfit => exact hk _ hfit
  | failed f => exact .failed f
  | refused n hlarge =>
    refine .refused n fun o' hok => ?_
    obtain ⟨o, hr, hrest⟩ := bind_eq_ok.mp hok
    have hle := hgrow o o' hrest
    have hlt := hlarge o hr
    omega

theorem foldlM_filtered {k k' : Output → Value → Except Failure Output}
    (hk : ∀ o v, Filtered bound (k o v) (k' o v)) (hgrow : ∀ v, Grows fun o => k o v)
    (vs : List Value) (hfit : o.out.length ≤ bound) :
    Filtered bound (vs.foldlM k o) (vs.foldlM k' o) := by
  induction vs generalizing o with
  | nil => exact .kept hfit
  | cons v vs ih =>
    rw [List.foldlM_cons, List.foldlM_cons]
    exact filtered_bind (hk o v) (fun o' hfit' => ih hfit') (foldlM_grows hgrow vs)

/-! ### Two engines -/

variable {caps : Capabilities}

theorem exceeds_bounded (hpos : 0 < bound) (size : Nat) :
    (Engine.mk caps bound).exceeds size = true ↔ bound < size := by
  simp [exceeds, hpos]

/-- An output that is too large already is refused at once. -/
theorem render_exceeded (h : e.exceeds o.out.length = true) (src : List Int) (args : List Value)
    (used : Nat) : e.render src args used o = .error (tooLarge e.maxOutput) := by
  cases src with
  | nil =>
    rw [render_nil, checkSize_full h]
    rfl
  | cons c cs =>
    obtain ⟨d, rest, hbegins⟩ := exists_begins c cs
    rw [render_begins hbegins, checkSize_full h]
    rfl

theorem widthLimit_bounded (hpos : 0 < bound) :
    (Engine.mk caps bound).widthLimit = min bound.toNat maxWidth := if_pos hpos

/-- Once the width is accepted, an insertion writes its field if that fits. -/
theorem insert_field {v : Value} {t : Text} {width : Nat} (ht : e.caps.textOf v = .ok t)
    (hwidth : width ≤ e.widthLimit) (left : Bool) :
    e.insert v width left o =
      if e.exceeds (o.out.length + max width t.length) then .error (tooLarge e.maxOutput)
      else .ok { o with out := o.out.write (padded t width left) } := by
  rw [insert, ht]
  exact if_neg (by omega)

theorem insert_wide {v : Value} {t : Text} {width : Nat} (ht : e.caps.textOf v = .ok t)
    (hwidth : e.widthLimit < width) (left : Bool) :
    e.insert v width left o = .error (tooLarge e.widthLimit) := by
  rw [insert, ht]
  exact if_pos hwidth

/-- An insertion under a bound: a width that is refused would have made too large a field. -/
theorem insert_filtered (caps : Capabilities) (hpos : 0 < bound) (v : Value) (digits : List Int)
    (left : Bool) (o : Output) :
    Filtered bound
      ((Engine.mk caps 0).insert v (widthOf (Engine.mk caps 0).widthLimit digits) left o)
      ((Engine.mk caps bound).insert v
        (widthOf (Engine.mk caps bound).widthLimit digits) left o) := by
  have hloose : (Engine.mk caps 0).widthLimit = maxWidth := rfl
  have hlimit : (Engine.mk caps bound).widthLimit = min bound.toNat maxWidth :=
    widthLimit_bounded hpos
  cases ht : caps.textOf v with
  | error f =>
    have hfail : ∀ (n : Int) (width : Nat),
        (Engine.mk caps n).insert v width left o = .error f := by
      intro n width
      rw [insert, ht]
      rfl
    rw [hfail, hfail]
    exact .failed f
  | ok t =>
    by_cases hmax : maxWidth < decimal digits
    · -- too wide for either engine
      have hwide : min bound.toNat maxWidth < decimal digits := by omega
      rw [insert_wide (e := ⟨caps, 0⟩) ht (lt_widthOf hmax),
        insert_wide (e := ⟨caps, bound⟩) ht (lt_widthOf (hlimit ▸ hwide))]
      exact .refused _ fun o' h => by cases h
    have hexact : widthOf (Engine.mk caps 0).widthLimit digits = decimal digits :=
      widthOf_eq (by omega)
    have hwritten :=
      insert_field (e := ⟨caps, 0⟩) (o := o) ht (by omega : decimal digits ≤ maxWidth) left
    rw [exceeds_unbounded (Int.le_refl 0), if_neg (by decide)] at hwritten
    rw [hexact, hwritten]
    have hsize :
        ({ o with out := o.out.write (padded t (decimal digits) left) } : Output).out.length
          = o.out.length + max (decimal digits) t.length := by
      rw [length_write, length_padded]
    by_cases hwide : min bound.toNat maxWidth < decimal digits
    · -- refused for its width alone
      rw [insert_wide (e := ⟨caps, bound⟩) ht (lt_widthOf (hlimit ▸ hwide))]
      refine .refused _ fun o' h => ?_
      obtain rfl := Except.ok.inj h
      rw [hsize]
      omega
    · have hnarrow : decimal digits ≤ (Engine.mk caps bound).widthLimit := by
        rw [hlimit]
        omega
      rw [widthOf_eq hnarrow, insert_field (e := ⟨caps, bound⟩) ht hnarrow]
      split
      · next hexceeds =>
        have hlt := (exceeds_bounded hpos _).mp hexceeds
        refine .refused _ fun o' h => ?_
        obtain rfl := Except.ok.inj h
        rw [hsize]
        exact hlt
      · next hexceeds =>
        have hle := mt (exceeds_bounded hpos _).mpr hexceeds
        refine .kept ?_
        rw [hsize]
        omega

/-- A rendering that begins with too large an output is refused, and rightly so. -/
theorem filtered_of_fits (hpos : 0 < bound)
    (h : o.out.length ≤ bound → Filtered bound ((Engine.mk caps 0).render src args used o)
      ((Engine.mk caps bound).render src args used o)) :
    Filtered bound ((Engine.mk caps 0).render src args used o)
      ((Engine.mk caps bound).render src args used o) := by
  by_cases hfit : o.out.length ≤ bound
  · exact h hfit
  · have hlt : bound < o.out.length := by omega
    rw [render_exceeded ((exceeds_bounded hpos _).mpr hlt)]
    refine .refused _ fun o' hok => ?_
    have hle := render_grows src args used o o' hok
    omega

/-- Both engines take up an item if the output so far fits. -/
theorem checkSize_both (hpos : 0 < bound) (hfit : o.out.length ≤ bound) :
    (Engine.mk caps 0).checkSize o = .ok () ∧ (Engine.mk caps bound).checkSize o = .ok () := by
  have hno : (Engine.mk caps bound).exceeds o.out.length = false := by
    rw [← Bool.not_eq_true, exceeds_bounded hpos]
    omega
  exact ⟨checkSize_unbounded (Int.le_refl 0) o, checkSize_fits hno⟩

/-- A bound filters every rendering, from any output. -/
theorem render_filtered (caps : Capabilities) (hpos : 0 < bound) (src : List Int)
    (args : List Value) (used : Nat) (o : Output) :
    Filtered bound ((Engine.mk caps 0).render src args used o)
      ((Engine.mk caps bound).render src args used o) := by
  induction src using template_induction generalizing args used o with
  | done =>
    refine filtered_of_fits hpos fun hfit => ?_
    obtain ⟨hloose, htight⟩ := checkSize_both hpos hfit
    rw [render_nil, render_nil, hloose, htight]
    exact .kept hfit
  | copy src points rest h ih =>
    refine filtered_of_fits hpos fun hfit => ?_
    obtain ⟨hloose, htight⟩ := checkSize_both hpos hfit
    rw [render_begins h, render_begins h, hloose, htight]
    exact ih args used _
  | insert src spelling digits left rest h ih =>
    refine filtered_of_fits hpos fun hfit => ?_
    obtain ⟨hloose, htight⟩ := checkSize_both hpos hfit
    rw [render_begins h, render_begins h, hloose, htight]
    show Filtered bound ((nextArg args used spelling).bind _) ((nextArg args used spelling).bind _)
    cases nextArg args used spelling with
    | error f => exact .failed f
    | ok v =>
      have hone := insert_filtered caps hpos v digits left { o with directives := o.directives + 1 }
      exact filtered_bind hone (fun o' _ => ih args (used + 1) o')
        (render_grows rest args (used + 1))
  | block src mode spelling body rest h ihb ih =>
    refine filtered_of_fits hpos fun hfit => ?_
    obtain ⟨hloose, htight⟩ := checkSize_both hpos hfit
    rw [render_begins h, render_begins h, hloose, htight]
    show Filtered bound ((nextArg args used spelling).bind _) ((nextArg args used spelling).bind _)
    cases nextArg args used spelling with
    | error f => exact .failed f
    | ok v =>
      show Filtered bound ((caps.membersOf v).bind _) ((caps.membersOf v).bind _)
      cases caps.membersOf v with
      | error f => exact .failed f
      | ok members =>
        -- both engines give the body the same arguments for each member
        have hmember : ∀ o member, Filtered bound
            ((Engine.mk caps 0).renderMember mode body o member)
            ((Engine.mk caps bound).renderMember mode body o member) := by
          intro o member
          rw [renderMember, renderMember, bodyArgs_eq, bodyArgs_eq]
          show Filtered bound ((memberArgs caps member mode).bind _)
            ((memberArgs caps member mode).bind _)
          cases memberArgs caps member mode with
          | error f => exact .failed f
          | ok inner => exact ihb inner 0 o
        have hgrow : ∀ member, Grows fun o => (Engine.mk caps 0).renderMember mode body o member :=
          renderMember_grows (fun inner => render_grows body inner 0) mode
        have hall := foldlM_filtered hmember hgrow members
          (o := { o with directives := o.directives + 1 }) hfit
        exact filtered_bind hall (fun o' _ => ih args (used + 1) o')
          (render_grows rest args (used + 1))

/-! ### The bound as a filter -/

/-- The cause that a failure is reported as. -/
def reportedAs (code : Code) (f : Failure) : Prop :=
  f.report?.map Report.code = some code

/-- A bound on the output is a filter on what is rendered without one.  A text within the bound is
rendered as it is, and a longer one is refused for its size; a template that cannot be rendered
fails in the same way, or is refused for its size.  So no bounded rendering is longer than its
bound. -/
theorem bound_filters_format (caps : Capabilities) (bound : Int) (hpos : 0 < bound) (tmpl : Text)
    (args : List Value) :
    (∀ t, ((Engine.mk caps 0).format tmpl args).result = .ok t → t.length ≤ bound →
      ((Engine.mk caps bound).format tmpl args).result = .ok t) ∧
    (∀ t, ((Engine.mk caps 0).format tmpl args).result = .ok t → bound < t.length →
      ∃ f, ((Engine.mk caps bound).format tmpl args).result = .error f ∧
        reportedAs .outputTooLarge f) ∧
    (∀ f, ((Engine.mk caps 0).format tmpl args).result = .error f →
      ∃ g, ((Engine.mk caps bound).format tmpl args).result = .error g ∧
        (g = f ∨ reportedAs .outputTooLarge g)) ∧
    ∀ t, ((Engine.mk caps bound).format tmpl args).result = .ok t → t.length ≤ bound := by
  have hfiltered := render_filtered caps hpos tmpl.points args 0 {}
  rw [format_result, format_result]
  generalize (Engine.mk caps 0).render tmpl.points args 0 {} = r at hfiltered ⊢
  generalize (Engine.mk caps bound).render tmpl.points args 0 {} = r' at hfiltered ⊢
  -- from here on only the relation between the two results counts
  cases hfiltered with
  | @kept o hfit =>
    have hlen : o.out.text.length ≤ bound := by simpa using hfit
    refine ⟨fun t h _ => h, ?_, ?_, ?_⟩
    · intro t h hlarge
      obtain rfl : o.out.text = t := Except.ok.inj h
      omega
    · intro f h
      cases h
    · intro t h
      obtain rfl : o.out.text = t := Except.ok.inj h
      exact hlen
  | failed f =>
    refine ⟨fun t h _ => h, ?_, fun g h => ⟨g, h, .inl rfl⟩, ?_⟩
    · intro t h
      cases h
    · intro t h
      cases h
  | refused n hlarge =>
    refine ⟨?_, fun t _ _ => ⟨_, rfl, rfl⟩, fun f _ => ⟨_, rfl, .inr rfl⟩, ?_⟩
    · intro t h hfit
      obtain ⟨o, hr, rfl⟩ := map_eq_ok.mp h
      have hlt : bound < o.out.text.length := by simpa using hlarge o hr
      omega
    · intro t h
      cases h

/-- A text of three code points under the bounds three and two. -/
theorem bound_filters_format_three :
    ((Engine.mk .native 3).format ⟨[0x61, 0x25, 0x32, 0x73]⟩ [.text ⟨[0x62]⟩]).result
      = .ok ⟨[0x61, 0x20, 0x62]⟩ ∧
    ∃ f, ((Engine.mk .native 2).format ⟨[0x61, 0x25, 0x32, 0x73]⟩ [.text ⟨[0x62]⟩]).result
        = .error f ∧
      reportedAs .outputTooLarge f := by
  have hfree : ((Engine.mk .native 0).format ⟨[0x61, 0x25, 0x32, 0x73]⟩ [.text ⟨[0x62]⟩]).result
      = .ok ⟨[0x61, 0x20, 0x62]⟩ := by
    with_unfolding_all rfl
  exact ⟨(bound_filters_format .native 3 (by decide) _ _).1 _ hfree (by decide),
    (bound_filters_format .native 2 (by decide) _ _).2.1 _ hfree (by decide)⟩

end Engine

end TextScript
