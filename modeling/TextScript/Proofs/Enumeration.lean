/-
TextScript/Proofs/Enumeration.lean

Mappings have their members in one order, whatever order a runtime comes upon them in.

A way to go through mappings is lawful if it comes upon every entry once and sorts entries by the
bytes of the texts of their keys.  It need not come upon them in any order, and need not keep the
order of entries that it finds equal.  No two entries are equal, though: keys differ within a
mapping, and so do their texts (`intText_injective`).  So there is one list that the entries can
be sorted into (`Lawful.sort_visit_eq`).

Rendering goes through mappings many times, and each time may be another way.  What a renderer is
answered depends on how many times it has asked (`answersAlong`), and it settles on what it is
answered otherwise (`render_settles`), by induction over the items of the template.
-/
import Mathlib.Data.List.Nodup
import TextScript.Proofs.Arguments
import TextScript.Proofs.ByteOrder
import TextScript.Proofs.Digits
import TextScript.Proofs.Quoting
import TextScript.Proofs.Rendering

namespace TextScript

open Suggestion (bytes)

/-! ### Texts of keys -/

/-- A string is kept by the text that it becomes. -/
theorem Text.toString_ofString (s : String) : (Text.ofString s).toString = s := by
  have hchars : (Text.ofString s).toChars = s.toList := by
    show (s.toList.map pointOf).map scalarOf = s.toList
    rw [List.map_map]
    exact (List.map_congr_left fun c _ => scalarOf_pointOf c).trans (List.map_id _)
  rw [Text.toString, hchars, String.ofList_toList]

namespace Value

variable {v : Value} {w : Walk} {entries sorted : List (Value × Value)}

theorem someText_string (s : String) : (string s).someText = s :=
  Text.toString_ofString s

theorem someText_number (n : Int64) : (number n).someText = intText n :=
  Text.toString_ofString (intText n)

/-- Different integers are written differently. -/
theorem intText_injective : Function.Injective intText := by
  intro a b h
  have hread := integer?_toString a.toInt
  rw [show toString a.toInt = toString b.toInt from h, integer?_toString] at hread
  exact (Int64.toInt_inj.mp (Option.some.inj hread)).symm

/-- Sorting by texts leaves them in ascending order. -/
theorem pairwise_mergeSort_text {α : Type} (text : α → String) (xs : List α) :
    (xs.mergeSort fun a b => decide (text a ≤ text b)).Pairwise fun a b => text a ≤ text b := by
  have hsorted : (xs.mergeSort fun a b => decide (text a ≤ text b)).Pairwise fun a b =>
      decide (text a ≤ text b) = true :=
    List.pairwise_mergeSort
      (fun _ _ _ hab hbc => decide_eq_true ((of_decide_eq_true hab).trans (of_decide_eq_true hbc)))
      (fun a b => by simpa using le_total (text a) (text b)) xs
  exact hsorted.imp of_decide_eq_true

/-- Entries with different keys can be sorted so that the texts of these ascend. -/
theorem exists_ascending {κ : Type} {text : κ → String} (htext : Function.Injective text)
    {entries : List (κ × Value)} (h : (entries.map Prod.fst).Nodup) :
    ∃ sorted : List (κ × Value), sorted.Perm entries ∧
      sorted.Pairwise fun a b => bytes (text a.1) < bytes (text b.1) := by
  have hperm := List.mergeSort_perm entries fun a b => decide (text a.1 ≤ text b.1)
  have hsorted := pairwise_mergeSort_text (fun a : κ × Value => text a.1) entries
  have hdistinct := List.pairwise_map.mp ((hperm.map Prod.fst).nodup_iff.mpr h)
  refine ⟨_, hperm, (hsorted.and hdistinct).imp fun hab => ?_⟩
  exact Utf8.bytes_lt (lt_of_le_of_ne hab.1 fun heq => hab.2 (htext heq))

/-! ### Ways to go through mappings -/

/-- A way to go through mappings that comes upon every entry once, and sorts by the bytes of the
keys' texts. -/
structure Walk.Lawful (w : Walk) : Prop where
  visits (entries : List (Value × Value)) : (w.visit entries).Perm entries
  keeps (entries : List (Value × Value)) : (w.sort entries).Perm entries
  sorts (entries : List (Value × Value)) :
    (w.sort entries).Pairwise fun a b => bytes a.1.someText ≤ bytes b.1.someText

/-- It makes no difference in which order the entries are come upon. -/
theorem Walk.lawful_of_visits {visit : List (Value × Value) → List (Value × Value)}
    (h : ∀ entries, (visit entries).Perm entries) : ({ visit } : Walk).Lawful where
  visits := h
  keeps entries := List.mergeSort_perm entries keyTextLe
  sorts entries :=
    (pairwise_mergeSort_text (fun a : Value × Value => a.1.someText) entries).imp
      Utf8.bytes_le_iff.mpr

theorem Walk.lawful_stored : ({} : Walk).Lawful :=
  lawful_of_visits List.Perm.refl

/-- There is one list that different entries can be sorted into. -/
theorem Walk.Lawful.sort_visit_eq (hw : w.Lawful) (hperm : sorted.Perm entries)
    (hsorted : sorted.Pairwise fun a b => bytes a.1.someText < bytes b.1.someText) :
    w.sort (w.visit entries) = sorted := by
  have hsame : (w.sort (w.visit entries)).Perm sorted :=
    ((hw.keeps _).trans (hw.visits entries)).trans hperm.symm
  have htexts : (sorted.map fun a => a.1.someText).Nodup := by
    refine List.pairwise_map.mpr (hsorted.imp fun hlt heq => ?_)
    rw [heq] at hlt
    exact List.lt_irrefl _ hlt
  -- the sort may put entries of one text in any order, but there is only one entry of each text
  refine List.Perm.eq_of_pairwise (fun a b ha hb hab hba => ?_) (hw.sorts _)
    (hsorted.imp List.le_of_lt) hsame
  have heq : a.1.someText = b.1.someText :=
    le_antisymm (Utf8.bytes_le_iff.mp hab) (Utf8.bytes_le_iff.mp hba)
  exact List.inj_on_of_nodup_map htexts (hsame.mem_iff.mp ha) hb heq

/-! ### Members of mappings -/

/-- Entries with different keys have the same members for all lawful ways to go through them. -/
theorem exists_members {κ : Type} {key : κ → Value} {text : κ → String}
    (htext : Function.Injective text)
    (hkey : ∀ k, (key k).someText = text k) {entries : List (κ × Value)}
    (h : (entries.map Prod.fst).Nodup) :
    ∃ sorted : List (κ × Value), sorted.Perm entries ∧
      (sorted.Pairwise fun a b => bytes (text a.1) < bytes (text b.1)) ∧
      ∀ w : Walk, w.Lawful →
        w.pairs (entries.map fun (k, v) => (key k, v)) =
          sorted.map fun (k, v) => pair (key k) v := by
  obtain ⟨sorted, hperm, hsorted⟩ := exists_ascending htext h
  refine ⟨sorted, hperm, hsorted, fun w hw => ?_⟩
  have hascends : (sorted.map fun (k, v) => (key k, v)).Pairwise fun a b =>
      bytes a.1.someText < bytes b.1.someText := by
    simpa only [List.pairwise_map, hkey] using hsorted
  rw [Walk.pairs, hw.sort_visit_eq (hperm.map _) hascends, List.map_map]
  rfl

/-- No two entries of a mapping have one key. -/
def DistinctKeys : Value → Prop
  | record fields => (fields.map Prod.fst).Nodup
  | table rows => (rows.map Prod.fst).Nodup
  | _ => True

/-- Mappings are built with keys that differ. -/
theorem nodup_sortEntries {κ : Type} [DecidableEq κ] (le : κ → κ → Bool)
    (entries : List (κ × Value)) :
    ((sortEntries le entries).map Prod.fst).Nodup := by
  have hlatest :
      ((entries.foldr (fun e kept => if kept.any (·.1 = e.1) then kept else e :: kept) []).map
        Prod.fst).Nodup := by
    induction entries with
    | nil => exact List.nodup_nil
    | cons e entries ih =>
      rw [List.foldr_cons]
      split
      · exact ih
      · next hnew =>
        refine List.nodup_cons.mpr ⟨fun hmem => hnew ?_, ih⟩
        obtain ⟨u, hu, heq⟩ := List.mem_map.mp hmem
        exact List.any_eq_true.mpr ⟨u, hu, decide_eq_true heq⟩
  exact ((List.mergeSort_perm _ _).map Prod.fst).nodup_iff.mpr hlatest

theorem distinctKeys_ofFields (fields : List (String × Value)) : (ofFields fields).DistinctKeys :=
  nodup_sortEntries _ fields

theorem distinctKeys_ofRows (rows : List (Int64 × Value)) : (ofRows rows).DistinctKeys :=
  nodup_sortEntries _ rows

/-- The values that a value is made of. -/
def parts : Value → List Value
  | list items => items
  | lazy items => items
  | stream items => items
  | record fields => fields.map Prod.snd
  | table rows => rows.map Prod.snd
  | pair a b => [a, b]
  | pairRef a b => [a, b]
  | marked _ v => [v]
  | _ => []

/-- Keys differ within every mapping that a value holds. -/
inductive WellKeyed : Value → Prop
  | intro {v : Value} (keys : v.DistinctKeys) (parts : ∀ u ∈ v.parts, WellKeyed u) : WellKeyed v

namespace WellKeyed

theorem keys (h : v.WellKeyed) : v.DistinctKeys := by
  cases h with
  | intro keys _ => exact keys

theorem parts (h : v.WellKeyed) : ∀ u ∈ v.parts, u.WellKeyed := by
  cases h with
  | intro _ parts => exact parts

theorem string (s : String) : (Value.string s).WellKeyed :=
  .intro trivial (List.forall_mem_nil _)

theorem number (n : Int64) : (Value.number n).WellKeyed :=
  .intro trivial (List.forall_mem_nil _)

theorem pair {a b : Value} (ha : a.WellKeyed) (hb : b.WellKeyed) : (Value.pair a b).WellKeyed :=
  .intro trivial (List.forall_mem_cons.mpr ⟨ha, List.forall_mem_singleton.mpr hb⟩)

theorem unmarked (h : v.WellKeyed) : v.unmarked.WellKeyed := by
  cases v with
  | marked _ v => exact h.parts v List.mem_cons_self
  | _ => exact h

end WellKeyed

/-- A mapping holds its entries as pairs. -/
theorem wellKeyed_pairs {κ : Type} {key : κ → Value} (hkey : ∀ k, (key k).WellKeyed)
    {entries : List (κ × Value)} (h : ∀ u ∈ entries.map Prod.snd, u.WellKeyed) :
    ∀ u ∈ ({} : Walk).pairs (entries.map fun (k, v) => (key k, v)), u.WellKeyed := by
  intro u hu
  obtain ⟨⟨a, b⟩, hmem, rfl⟩ := List.mem_map.mp hu
  obtain ⟨⟨k, v⟩, hentry, heq⟩ := List.mem_map.mp ((List.mergeSort_perm _ _).mem_iff.mp hmem)
  cases heq
  exact .pair (hkey k) (h _ (List.mem_map_of_mem hentry))

/-- Members of values with distinct keys have distinct keys. -/
theorem WellKeyed.members {members : List Value} (h : v.WellKeyed)
    (hv : v.toSequence = .ok members) : ∀ u ∈ members, u.WellKeyed := by
  have hparts := h.unmarked.parts
  unfold toSequence sequenceIn at hv
  generalize v.unmarked = u at hv hparts
  cases u with
  | list => cases hv; exact hparts
  | lazy => cases hv; exact hparts
  | stream => cases hv; exact hparts
  | strings => cases hv; exact List.forall_mem_map.mpr fun s _ => .string s
  | numbers => cases hv; exact List.forall_mem_map.mpr fun n _ => .number n
  | couple a b =>
    cases hv
    exact List.forall_mem_cons.mpr ⟨.number a, List.forall_mem_singleton.mpr (.number b)⟩
  | record => cases hv; exact wellKeyed_pairs .string hparts
  | table => cases hv; exact wellKeyed_pairs .number hparts
  | _ => cases hv

/-- So have halves. -/
theorem WellKeyed.halves {a b : Value} (h : v.WellKeyed) (hv : v.toPair = .ok (a, b)) :
    a.WellKeyed ∧ b.WellKeyed := by
  have htwo : (∀ u ∈ [a, b], u.WellKeyed) → a.WellKeyed ∧ b.WellKeyed :=
    fun h => (List.forall_mem_cons.mp h).imp_right List.forall_mem_singleton.mp
  have hu := h.unmarked
  unfold toPair halvesIn at hv
  generalize v.unmarked = u at hv hu
  split at hv
  · cases hv
    exact htwo hu.parts
  · cases hv
    exact htwo hu.parts
  · split at hv
    · next hmembers =>
      cases hv
      exact htwo (hu.members hmembers)
    · cases hv

/-- Whichever way a mapping is gone through, its members come in one order. -/
theorem sequenceIn_eq (hw : w.Lawful) (h : v.WellKeyed) : v.sequenceIn w = v.toSequence := by
  have hkeys := h.unmarked.keys
  unfold toSequence sequenceIn
  generalize v.unmarked = u at hkeys ⊢
  cases u with
  | record fields =>
    obtain ⟨sorted, -, -, hpairs⟩ := exists_members Function.injective_id someText_string hkeys
    simp only [hpairs w hw, hpairs {} Walk.lawful_stored]
  | table rows =>
    obtain ⟨sorted, -, -, hpairs⟩ := exists_members intText_injective someText_number hkeys
    simp only [hpairs w hw, hpairs {} Walk.lawful_stored]
  | _ => rfl

/-- Nor do the halves of a value hang on the way. -/
theorem halvesIn_eq (hw : w.Lawful) (h : v.WellKeyed) : v.halvesIn w = v.toPair := by
  have hu := h.unmarked
  unfold toPair halvesIn
  generalize v.unmarked = u at hu ⊢
  split
  · rfl
  · rfl
  · rw [sequenceIn_eq hw hu, sequenceIn_eq Walk.lawful_stored hu]

end Value

/-! ### Rendering with a way of its own each time -/

/-- A computation that comes to a result, whatever it has asked before. -/
def Settles {α : Type} (x : StateT Nat (Except Failure) α) (r : Except Failure α) : Prop :=
  ∀ asked, (x.run asked).map Prod.fst = r

section Settles

variable {α β : Type} {x : StateT Nat (Except Failure) α} {r : Except Failure α}

theorem settles_lift (r : Except Failure α) : Settles (liftM r) r := by
  intro asked
  cases r <;> rfl

theorem settles_pure (a : α) : Settles (pure a) (.ok a) :=
  fun _ => rfl

/-- Runs that come to their results whatever they draw may be put in a row. -/
theorem Settles.bind {f : α → StateT Nat (Except Failure) β} {g : α → Except Failure β}
    (hx : Settles x r) (hf : ∀ a, r = .ok a → Settles (f a) (g a)) :
    Settles (x >>= f) (r.bind g) := by
  intro asked
  have hr := hx asked
  rw [StateT.run_bind]
  -- how often has been asked by then makes no difference to what follows
  cases hrun : x.run asked with
  | error e =>
    rw [hrun] at hr
    subst hr
    rfl
  | ok p =>
    rw [hrun] at hr
    subst hr
    exact hf p.1 rfl p.2

/-- What is answered the same each time is the answer. -/
theorem settles_ask {answer : Nat → Except Failure α} (h : ∀ asked, answer asked = r) :
    Settles (do answer (← getModify (· + 1))) r := by
  intro asked
  rw [← h asked]
  show Except.map _ ((answer asked).bind _) = _
  cases answer asked <;> rfl

/-- So may the turns of a loop. -/
theorem settles_foldlM {k : β → α → StateT Nat (Except Failure) β} {g : β → α → Except Failure β}
    {as : List α} (h : ∀ a ∈ as, ∀ b, Settles (k b a) (g b a)) (b : β) :
    Settles (as.foldlM k b) (as.foldlM g b) := by
  induction as generalizing b with
  | nil => exact settles_pure b
  | cons a as ih =>
    obtain ⟨ha, has⟩ := List.forall_mem_cons.mp h
    rw [List.foldlM_cons, List.foldlM_cons]
    exact (ha b).bind fun b' _ => ih has b'

end Settles

namespace Engine

open Value (Walk)

variable {walks : Nat → Walk} {bound : Int} {v : Value} {args : List Value}

/-- What a renderer is answered if the first time it asks is the first way to go through mappings,
and so on. -/
def answersAlong (walks : Nat → Walk) (bound : Int) : Answers (StateT Nat (Except Failure)) where
  membersOf v := do
    let asked ← getModify (· + 1)
    (Capabilities.nativeIn (walks asked)).membersOf v
  bodyArgs mode member := do
    let asked ← getModify (· + 1)
    bodyArgs ⟨.nativeIn (walks asked), bound⟩ mode member

/-- Renders a template, each time going through mappings another way. -/
def formatAlong (walks : Nat → Walk) (bound : Int) (tmpl : Text) (args : List Value) :
    Traced Text :=
  match (renderWith (answersAlong walks bound) ⟨.native, bound⟩ tmpl.points args 0 {}).run' 0 with
  | .error f => .fail f
  | .ok o => ⟨.ok o.out.text, [.formatRendered o.directives args.length o.out.length]⟩

/-- The conversions do not hang on the way that mappings are gone through. -/
theorem membersOf_nativeIn {w : Walk} (hw : w.Lawful) (h : v.WellKeyed) :
    (Capabilities.nativeIn w).membersOf v = Capabilities.native.membersOf v := by
  show (v.sequenceIn w).mapError _ = v.toSequence.mapError _
  rw [Value.sequenceIn_eq hw h]

theorem halvesOf_nativeIn {w : Walk} (hw : w.Lawful) (h : v.WellKeyed) :
    (Capabilities.nativeIn w).halvesOf v = Capabilities.native.halvesOf v := by
  show (v.halvesIn w).mapError _ = v.toPair.mapError _
  rw [Value.halvesIn_eq hw h]

/-- Nor does what a block hands on to its body. -/
theorem bodyArgs_nativeIn {w : Walk} (hw : w.Lawful) (h : v.WellKeyed) (mode : BlockMode) :
    bodyArgs ⟨.nativeIn w, bound⟩ mode v = bodyArgs ⟨.native, bound⟩ mode v := by
  cases mode with
  | each => rfl
  | splat => exact membersOf_nativeIn hw h
  | pairs =>
    show ((Capabilities.nativeIn w).halvesOf v).map _ = (Capabilities.native.halvesOf v).map _
    rw [halvesOf_nativeIn hw h]

theorem nextArg_wellKeyed {used : Nat} {spelling : List Int} (h : ∀ v ∈ args, v.WellKeyed)
    (hv : nextArg args used spelling = .ok v) : v.WellKeyed :=
  h v (List.mem_of_getElem? (nextArg_ok hv))

theorem membersOf_wellKeyed {members : List Value} (h : v.WellKeyed)
    (hv : Capabilities.native.membersOf v = .ok members) : ∀ u ∈ members, u.WellKeyed := by
  change v.toSequence.mapError _ = _ at hv
  cases hmembers : v.toSequence with
  | error f =>
    rw [hmembers] at hv
    cases hv
  | ok members =>
    rw [hmembers] at hv
    cases hv
    exact h.members hmembers

/-- What a block hands on has distinct keys again, so it may hold blocks. -/
theorem bodyArgs_wellKeyed {mode : BlockMode} {inner : List Value} (h : v.WellKeyed)
    (hv : bodyArgs ⟨.native, bound⟩ mode v = .ok inner) : ∀ u ∈ inner, u.WellKeyed := by
  cases mode with
  | each =>
    cases hv
    exact List.forall_mem_singleton.mpr h
  | splat => exact membersOf_wellKeyed h hv
  | pairs =>
    change (v.toPair.mapError _).map _ = _ at hv
    cases hhalves : v.toPair with
    | error f =>
      rw [hhalves] at hv
      cases hv
    | ok halves =>
      rw [hhalves] at hv
      cases hv
      obtain ⟨ha, hb⟩ := h.halves hhalves
      exact List.forall_mem_cons.mpr ⟨ha, List.forall_mem_singleton.mpr hb⟩

/-- Whatever has been asked before, rendering comes to what it comes to with one way to go through
mappings. -/
theorem render_settles (hwalks : ∀ i, (walks i).Lawful) (src : List Int)
    (h : ∀ v ∈ args, v.WellKeyed) (used : Nat) (o : Output) :
    Settles (renderWith (answersAlong walks bound) ⟨.native, bound⟩ src args used o)
      (render ⟨.native, bound⟩ src args used o) := by
  induction src using template_induction generalizing args used o with
  | done =>
    rw [render, renderWith_nil, renderWith_nil]
    exact (settles_lift _).bind fun _ _ => settles_pure _
  | copy src points rest hb ih =>
    rw [renderWith_begins hb, render_begins hb]
    exact (settles_lift _).bind fun _ _ => ih h _ _
  | insert src spelling digits left rest hb ih =>
    rw [renderWith_begins hb, render_begins hb]
    refine (settles_lift _).bind fun _ _ => (settles_lift _).bind fun v hv => ?_
    exact (settles_lift _).bind fun o' _ => ih h _ _
  | block src mode spelling body rest hb ihb ih =>
    rw [renderWith_begins hb, render_begins hb]
    refine (settles_lift _).bind fun _ _ => (settles_lift _).bind fun v hv => ?_
    have hmembers := settles_ask fun i => membersOf_nativeIn (hwalks i) (nextArg_wellKeyed h hv)
    refine hmembers.bind fun members hok => ?_
    refine (settles_foldlM (fun member hmember o' => ?_) _).bind fun o' _ => ih h _ _
    -- the body has arguments of its own, which are made of one member
    have hmember := membersOf_wellKeyed (nextArg_wellKeyed h hv) hok member hmember
    refine (settles_ask fun i => bodyArgs_nativeIn (hwalks i) hmember mode).bind
      fun inner hinner => ?_
    exact ihb (bodyArgs_wellKeyed hmember hinner) 0 o'

/-- A rendering that draws a new way for every mapping comes to what the one order comes to. -/
theorem formatAlong_eq (hwalks : ∀ i, (walks i).Lawful) (tmpl : Text)
    (h : ∀ v ∈ args, v.WellKeyed) :
    formatAlong walks bound tmpl args = format ⟨.native, bound⟩ tmpl args := by
  have hrender :
      (renderWith (answersAlong walks bound) ⟨.native, bound⟩ tmpl.points args 0 {}).run' 0
        = render ⟨.native, bound⟩ tmpl.points args 0 {} :=
    render_settles hwalks tmpl.points h 0 {} 0
  rw [formatAlong, hrender]
  rfl

/-- Mappings are enumerated in one order.  However a runtime comes upon the entries and sorts
them, the members of a mapping from strings are its entries with the bytes of the keys ascending,
and those of a mapping from integers its entries with the bytes of the decimal texts ascending.
So a template comes to the same, with what is reported of it, if each time that a mapping is gone
through this happens in a way of its own. -/
theorem enumeration_in_one_order :
    (∀ fields : List (String × Value), (fields.map Prod.fst).Nodup →
      ∃ sorted : List (String × Value), sorted.Perm fields ∧
        (sorted.Pairwise fun a b => bytes a.1 < bytes b.1) ∧
        ∀ w : Walk, w.Lawful → ∀ v : Value, v.unmarked = .record fields →
          v.sequenceIn w = .ok (sorted.map fun (k, u) => .pair (.string k) u)) ∧
    (∀ rows : List (Int64 × Value), (rows.map Prod.fst).Nodup →
      ∃ sorted : List (Int64 × Value), sorted.Perm rows ∧
        (sorted.Pairwise fun a b => bytes (toString a.1.toInt) < bytes (toString b.1.toInt)) ∧
        ∀ w : Walk, w.Lawful → ∀ v : Value, v.unmarked = .table rows →
          v.sequenceIn w = .ok (sorted.map fun (n, u) => .pair (.number n) u)) ∧
    ({} : Walk).Lawful ∧
    ∀ walks : Nat → Walk, (∀ i, (walks i).Lawful) →
    ∀ (bound : Int) (tmpl : Text) (args : List Value),
      (∀ v ∈ args, v.WellKeyed) →
      formatAlong walks bound tmpl args = format ⟨.native, bound⟩ tmpl args := by
  refine ⟨fun fields hkeys => ?_, fun rows hkeys => ?_, Walk.lawful_stored,
    fun walks hwalks bound tmpl args h => formatAlong_eq hwalks tmpl h⟩
  · obtain ⟨sorted, hperm, hsorted, hpairs⟩ :=
      Value.exists_members Function.injective_id Value.someText_string hkeys
    refine ⟨sorted, hperm, hsorted, fun w hw v hv => ?_⟩
    rw [Value.sequenceIn, hv]
    exact congrArg Except.ok (hpairs w hw)
  · obtain ⟨sorted, hperm, hsorted, hpairs⟩ :=
      Value.exists_members Value.intText_injective Value.someText_number hkeys
    refine ⟨sorted, hperm, hsorted, fun w hw v hv => ?_⟩
    rw [Value.sequenceIn, hv]
    exact congrArg Except.ok (hpairs w hw)

/-- Keys in descending order that are come upon backwards every other time, and a key of two
digits. -/
theorem enumeration_in_one_order_backwards :
    let back : Walk := { visit := List.reverse }
    let fields : List (String × Value) := [("b", .nil), ("a", .nil)]
    let rows : List (Int64 × Value) := [(9, .record fields), (10, .nil)]
    let tmpl := Text.ofString "%:[%s=%s %]"
    (∃ sorted : List (String × Value), sorted.Perm fields ∧
      (sorted.Pairwise fun a b => bytes a.1 < bytes b.1) ∧
      (Value.marked 0 (.record fields)).sequenceIn back =
        .ok (sorted.map fun (k, u) => .pair (.string k) u)) ∧
    (∃ sorted : List (Int64 × Value), sorted.Perm rows ∧
      (sorted.Pairwise fun a b => bytes (toString a.1.toInt) < bytes (toString b.1.toInt)) ∧
      (Value.table rows).sequenceIn back = .ok (sorted.map fun (n, u) => .pair (.number n) u)) ∧
    formatAlong (fun i => if i % 2 = 0 then back else {}) 0 tmpl [.table rows] =
      format ⟨.native, 0⟩ tmpl [.table rows] := by
  intro back fields rows tmpl
  obtain ⟨hfields, hrows, hstored, hformat⟩ := enumeration_in_one_order
  have hback : back.Lawful := Walk.lawful_of_visits List.reverse_perm
  have hwalks : ∀ i, (if i % 2 = 0 then back else {} : Walk).Lawful := by
    intro i
    split
    · exact hback
    · exact hstored
  have hatom : Value.nil.WellKeyed := .intro trivial (List.forall_mem_nil _)
  have hrecord : (Value.record fields).WellKeyed :=
    .intro (show (fields.map Prod.fst).Nodup by decide)
      (List.forall_mem_cons.mpr ⟨hatom, List.forall_mem_singleton.mpr hatom⟩)
  have htable : (Value.table rows).WellKeyed :=
    .intro (show (rows.map Prod.fst).Nodup by decide)
      (List.forall_mem_cons.mpr ⟨hrecord, List.forall_mem_singleton.mpr hatom⟩)
  refine ⟨?_, ?_, hformat _ hwalks 0 tmpl _ (List.forall_mem_singleton.mpr htable)⟩
  · obtain ⟨sorted, hperm, hsorted, hmembers⟩ := hfields fields hrecord.keys
    exact ⟨sorted, hperm, hsorted, hmembers back hback _ rfl⟩
  · obtain ⟨sorted, hperm, hsorted, hmembers⟩ := hrows rows htable.keys
    exact ⟨sorted, hperm, hsorted, hmembers back hback _ rfl⟩

end Engine

end TextScript
