/-
TextScript/Proofs/HostValues.lean

Values cross to the embedding program's engine and back unchanged.

On the way out every text becomes a host string, on the way in every host string becomes a text,
and both ways go through lists member by member.  So what comes back is the value with each of its
texts sent out and taken in again (`Plain.round_trip`), and a text is changed by that in one
respect: a number without a character, such as a surrogate, comes back as the replacement
character (`ofString_toString`).  Between the two ways no text is left, at any depth of lists
(`Plain.heldTexts_toHost`).
-/
import TextScript.HostBoundary
import TextScript.Proofs.PlainValues
import TextScript.Proofs.RoundTrip

namespace TextScript

/-! ### Texts that were strings -/

/-- A lone half of a surrogate pair. -/
def IsSurrogate (n : Int) : Prop :=
  0xD800 ≤ n ∧ n ≤ 0xDFFF

instance (n : Int) : Decidable (IsSurrogate n) := inferInstanceAs (Decidable (_ ∧ _))

/-- A Unicode code point, surrogate or not. -/
def IsCodePoint (n : Int) : Prop :=
  0 ≤ n ∧ n ≤ 0x10FFFF

instance (n : Int) : Decidable (IsCodePoint n) := inferInstanceAs (Decidable (_ ∧ _))

/-- The text with every surrogate replaced. -/
def Text.mended (t : Text) : Text :=
  ⟨t.points.map fun n => if IsSurrogate n then 0xFFFD else n⟩

variable {t : Text} {v : Value} {items : List Value} {n : Int}

theorem unwritable_iff (h : IsCodePoint n) : Unwritable n ↔ IsSurrogate n := by
  unfold Unwritable IsSurrogate
  unfold IsCodePoint at h
  omega

theorem writable_eq_mended (h : ∀ n ∈ t.points, IsCodePoint n) : t.writable = t.mended := by
  refine congrArg Text.mk (List.map_congr_left fun n hn => ?_)
  simp only [unwritable_iff (h n hn)]

/-- A text that was a string in between has its surrogates replaced. -/
theorem ofString_toString (h : ∀ n ∈ t.points, IsCodePoint n) :
    Text.ofString t.toString = t.mended := by
  have hmap : (t.points.map scalarOf).map pointOf
      = t.points.map fun n => if Unwritable n then 0xFFFD else n := by
    rw [List.map_map]
    exact List.map_congr_left fun n hn => pointOf_scalarOf_eq (h n hn).1
  rw [← writable_eq_mended h, Text.ofString, Text.toString, String.toList_ofList]
  exact congrArg Text.mk hmap

theorem mended_eq_iff (h : ∀ n ∈ t.points, IsCodePoint n) :
    t.mended = t ↔ ∀ n ∈ t.points, IsScalar n := by
  rw [← writable_eq_mended h]
  exact writable_eq_iff fun n hn => (h n hn).1

/-! ### Texts in values -/

namespace Value

mutual

/-- The texts that a value holds, at any depth of lists. -/
def heldTexts : Value → List Text
  | text t => [t]
  | list items => heldTextsAll items
  | marked _ v => v.heldTexts
  | _ => []

/-- The texts that the members of a list hold. -/
def heldTextsAll : List Value → List Text
  | [] => []
  | v :: vs => v.heldTexts ++ heldTextsAll vs

end

mutual

/-- The value with each text that it holds changed. -/
def mapTexts (f : Text → Text) : Value → Value
  | text t => text (f t)
  | list items => list (mapTextsAll f items)
  | marked mark v => marked mark (v.mapTexts f)
  | v => v

/-- The members of a list with each text that they hold changed. -/
def mapTextsAll (f : Text → Text) : List Value → List Value
  | [] => []
  | v :: vs => v.mapTexts f :: mapTextsAll f vs

end

theorem heldTextsAll_eq (vs : List Value) : heldTextsAll vs = vs.flatMap heldTexts := by
  induction vs with
  | nil => rw [heldTextsAll, List.flatMap_nil]
  | cons v vs ih => rw [heldTextsAll, List.flatMap_cons, ih]

theorem mapTextsAll_eq (f : Text → Text) (vs : List Value) :
    mapTextsAll f vs = vs.map (mapTexts f) := by
  induction vs with
  | nil => rw [mapTextsAll, List.map_nil]
  | cons v vs ih => rw [mapTextsAll, List.map_cons, ih]

theorem toHostAll_eq (vs : List Value) : toHostAll vs = vs.map toHost := by
  induction vs with
  | nil => rw [toHostAll, List.map_nil]
  | cons v vs ih => rw [toHostAll, List.map_cons, ih]

theorem fromHostAll_eq (vs : List Value) : fromHostAll vs = vs.map fromHost := by
  induction vs with
  | nil => rw [fromHostAll, List.map_nil]
  | cons v vs ih => rw [fromHostAll, List.map_cons, ih]

theorem mem_heldTexts_list : t ∈ (list items).heldTexts ↔ ∃ v ∈ items, t ∈ v.heldTexts := by
  rw [heldTexts, heldTextsAll_eq, List.mem_flatMap]

theorem forall_heldTexts_list {P : Text → Prop} :
    (∀ t ∈ (list items).heldTexts, P t) ↔ ∀ v ∈ items, ∀ t ∈ v.heldTexts, P t := by
  constructor
  · intro h v hv t ht
    exact h t (mem_heldTexts_list.mpr ⟨v, hv, ht⟩)
  · intro h t ht
    obtain ⟨v, hv, htv⟩ := mem_heldTexts_list.mp ht
    exact h v hv t htv

/-! ### There and back -/

/-- A text goes out as a string, so the engine sees none. -/
theorem Plain.heldTexts_toHost (h : v.Plain) : v.toHost.heldTexts = [] := by
  induction h with
  | nil => rw [toHost] <;> simp [heldTexts]
  | bool => rw [toHost] <;> simp [heldTexts]
  | int => rw [toHost] <;> simp [heldTexts]
  | text => rw [toHost, heldTexts] <;> simp
  | range => rw [toHost] <;> simp [heldTexts]
  | list _ ih =>
    rw [toHost, heldTexts, heldTextsAll_eq, toHostAll_eq, List.flatMap_map]
    exact List.flatMap_eq_nil_iff.mpr ih

/-- Each text of a value goes out as a string and comes back as the text of that. -/
theorem Plain.round_trip (h : v.Plain) :
    v.toHost.fromHost = v.mapTexts fun t => Text.ofString t.toString := by
  induction h with
  | nil => simp [toHost, fromHost, mapTexts]
  | bool => simp [toHost, fromHost, mapTexts]
  | int => simp [toHost, fromHost, mapTexts]
  | text => simp [toHost, fromHost, mapTexts]
  | range => simp [toHost, fromHost, mapTexts]
  | list _ ih =>
    rw [toHost, fromHost, mapTexts, fromHostAll_eq, toHostAll_eq, mapTextsAll_eq, List.map_map]
    exact congrArg Value.list (List.map_congr_left ih)

/-- Two changes of texts come to the same if they do so for the texts that the value holds. -/
theorem mapTexts_congr {f g : Text → Text} (hv : v.Plain) (h : ∀ t ∈ v.heldTexts, f t = g t) :
    v.mapTexts f = v.mapTexts g := by
  induction hv with
  | nil => simp [mapTexts]
  | bool => simp [mapTexts]
  | int => simp [mapTexts]
  | text t =>
    rw [heldTexts] at h
    rw [mapTexts, mapTexts, h t List.mem_cons_self]
  | range => simp [mapTexts]
  | list _ ih =>
    rw [mapTexts, mapTexts, mapTextsAll_eq, mapTextsAll_eq]
    exact congrArg list (List.map_congr_left fun v hv => ih v hv (forall_heldTexts_list.mp h v hv))

/-- A change of texts leaves a value as it is exactly if it does so with each text that the value
holds. -/
theorem mapTexts_eq_self_iff {f : Text → Text} (hv : v.Plain) :
    v.mapTexts f = v ↔ ∀ t ∈ v.heldTexts, f t = t := by
  induction hv with
  | nil => simp [mapTexts, heldTexts]
  | bool => simp [mapTexts, heldTexts]
  | int => simp [mapTexts, heldTexts]
  | text => simp [mapTexts, heldTexts]
  | range => simp [mapTexts, heldTexts]
  | @list items _ ih =>
    rw [forall_heldTexts_list, mapTexts, mapTextsAll_eq, Value.list.injEq]
    constructor
    · intro h v hv
      have hsame : items.map (mapTexts f) = items.map id := by rw [h, List.map_id]
      exact (ih v hv).mp (List.map_inj_left.mp hsame v hv)
    · intro h
      have hsame : items.map (mapTexts f) = items.map id :=
        List.map_congr_left fun v hv => (ih v hv).mpr (h v hv)
      rw [hsame, List.map_id]

/-- A value of the language crosses to the engine and back with nothing changed but the surrogates
in its texts, which come back as the replacement character; so it is unchanged exactly if all its
texts are of Unicode scalar values.  What the engine sees holds no text, at any depth of lists. -/
theorem host_round_trip {v : Value} (h : v.Plain)
    (hcode : ∀ t ∈ v.heldTexts, ∀ n ∈ t.points, IsCodePoint n) :
    v.toHost.fromHost = v.mapTexts Text.mended ∧
      (v.toHost.fromHost = v ↔ ∀ t ∈ v.heldTexts, ∀ n ∈ t.points, IsScalar n) ∧
      v.toHost.heldTexts = [] := by
  have hback : v.toHost.fromHost = v.mapTexts Text.mended := by
    rw [h.round_trip]
    exact mapTexts_congr h fun t ht => ofString_toString (hcode t ht)
  refine ⟨hback, ?_, h.heldTexts_toHost⟩
  rw [hback, mapTexts_eq_self_iff h]
  exact forall₂_congr fun t ht => mended_eq_iff (hcode t ht)

/-- A list in a list, with a surrogate between two characters. -/
theorem host_round_trip_nested :
    let t : Text := ⟨[0x61, 0xD800, 0x10FFFF]⟩
    let v : Value := .list [.int 5, .list [.text t, .nil], .range ⟨0, -1, false⟩]
    v.Plain ∧ (∀ t ∈ v.heldTexts, ∀ n ∈ t.points, IsCodePoint n) ∧
      v.toHost.fromHost
        = .list [.int 5, .list [.text ⟨[0x61, 0xFFFD, 0x10FFFF]⟩, .nil], .range ⟨0, -1, false⟩] ∧
      v.toHost.fromHost ≠ v ∧ v.toHost.heldTexts = [] := by
  intro t v
  have hplain : v.Plain := by
    refine .list (List.forall_mem_cons.mpr ⟨.int 5, List.forall_mem_cons.mpr ⟨.list ?_, ?_⟩⟩)
    · exact List.forall_mem_cons.mpr ⟨.text t, List.forall_mem_singleton.mpr .nil⟩
    · exact List.forall_mem_singleton.mpr (.range _)
  have hheld : v.heldTexts = [t] := by simp [v, heldTexts, heldTextsAll]
  have hcode : ∀ t ∈ v.heldTexts, ∀ n ∈ t.points, IsCodePoint n := by
    rw [hheld, List.forall_mem_singleton]
    decide
  obtain ⟨hback, hsame, hnone⟩ := host_round_trip hplain hcode
  refine ⟨hplain, hcode, ?_, fun h => ?_, hnone⟩
  · rw [hback]
    simp [v, t, mapTexts, mapTextsAll, Text.mended, IsSurrogate]
  · have hscalar : IsScalar 0xD800 :=
      hsame.mp h t (by rw [hheld]; exact List.mem_cons_self) _ (by decide)
    exact absurd hscalar (by decide)

end Value

end TextScript
