/-
TextScript/Proofs/Suggestions.lean

The candidate that is suggested is the first of the nearest.

`FirstNearest` cuts the candidates at the one that counts: those before it are farther, those
after it not nearer.  Looking at one more candidate keeps such a cut or makes a new one at the
end (`FirstNearest.next`), so a whole pass finds one.  What it finds is suggested only at a
distance of at least one, and a candidate that is alike has distance zero, so a single one among
any number of others keeps all of them from being suggested.

How names are spelled and what of them is compared is left open up to the last theorem: names
may be any strings of bytes.  There it is said of names that are compared by the bytes of their
lower case (`folded`) and spelled with their own.
-/
import TextScript.Proofs.EditDistance

namespace TextScript.Suggestion

variable {α : Type} {dist : α → Nat} {cs seen : List α} {best name c : α}
variable {spelled compared : α → List UInt8}

/-- Among `cs`, `best` is the first of those nearest: what stands before it is farther, what
stands after it is not nearer. -/
def FirstNearest (dist : α → Nat) (cs : List α) (best : α) : Prop :=
  ∃ before after, cs = before ++ best :: after ∧
    (∀ c ∈ before, dist best < dist c) ∧ ∀ c ∈ after, dist best ≤ dist c

theorem FirstNearest.least (h : FirstNearest dist cs best) : ∀ c ∈ cs, dist best ≤ dist c := by
  obtain ⟨before, after, rfl, hbefore, hafter⟩ := h
  intro c hc
  rw [List.mem_append, List.mem_cons] at hc
  obtain hc | rfl | hc := hc
  · exact Nat.le_of_lt (hbefore c hc)
  · exact Nat.le_refl _
  · exact hafter c hc

/-- One more candidate takes the place of the nearest only if it is nearer than all before. -/
theorem FirstNearest.next (h : FirstNearest dist cs best) (c : α) :
    ∃ best', nearer dist (best, dist best) c = (best', dist best') ∧
    FirstNearest dist (cs ++ [c]) best' := by
  by_cases hlt : dist c < dist best
  · refine ⟨c, if_pos hlt, cs, [], rfl, fun d hd => ?_, nofun⟩
    exact Nat.lt_of_lt_of_le hlt (h.least d hd)
  · obtain ⟨before, after, rfl, hbefore, hafter⟩ := h
    refine ⟨best, if_neg hlt, before, after ++ [c], by simp, hbefore, fun d hd => ?_⟩
    obtain hd | rfl := List.mem_append.mp hd |>.imp_right List.mem_singleton.mp
    · exact hafter d hd
    · exact Nat.le_of_not_lt hlt

theorem FirstNearest.foldl (h : FirstNearest dist seen best) (cs : List α) :
    ∃ best', cs.foldl (nearer dist) (best, dist best) = (best', dist best') ∧
      FirstNearest dist (seen ++ cs) best' := by
  induction cs generalizing seen best with
  | nil => exact ⟨best, rfl, by rwa [List.append_nil]⟩
  | cons c cs ih =>
    obtain ⟨_, hstep, hnext⟩ := h.next c
    rw [List.foldl_cons, hstep, List.append_cons]
    exact ih hnext

theorem nearest?_firstNearest (dist : α → Nat) (hcs : cs ≠ []) :
    ∃ best, nearest? dist cs = some (best, dist best) ∧ FirstNearest dist cs best := by
  cases cs with
  | nil => exact absurd rfl hcs
  | cons c cs =>
    have hsingle : FirstNearest dist [c] c := ⟨[], [], rfl, nofun, nofun⟩
    obtain ⟨best, hfold, hfirst⟩ := hsingle.foldl cs
    exact ⟨best, congrArg some hfold, hfirst⟩

theorem le_threshold_iff (size d : Nat) :
    d ≤ threshold size ↔ d ≤ 1 ∨ 4 ≤ size ∧ d ≤ 2 ∨ 7 ≤ size ∧ d ≤ 3 := by
  unfold threshold
  split
  · omega
  · split <;> omega

theorem closestBy?_eq_none (h : spelled name = [] ∨ cs = []) :
    closestBy? spelled compared name cs = none := by
  obtain hname | rfl := h
  · rw [closestBy?, if_pos hname]
  · rw [closestBy?, nearest?, ite_self]

theorem closestBy?_firstNearest (compared : α → List UInt8) (hname : spelled name ≠ [])
    (hcs : cs ≠ []) :
    ∃ best, FirstNearest (fun c => distance (compared name) (compared c)) cs best ∧
      closestBy? spelled compared name cs =
        if 1 ≤ distance (compared name) (compared best) ∧
          distance (compared name) (compared best) ≤ threshold (spelled name).length
        then some best else none := by
  obtain ⟨best, hfound, hfirst⟩ :=
    nearest?_firstNearest (fun c => distance (compared name) (compared c)) hcs
  refine ⟨best, hfirst, ?_⟩
  rw [closestBy?, if_neg hname, hfound]
  simp only [Bool.and_eq_true, decide_eq_true_eq, Nat.lt_iff_add_one_le, Nat.zero_add]

/-- What is suggested, with the bounds on the distance written out. -/
theorem closestBy?_nearest (compared : α → List UInt8) (hname : spelled name ≠ []) (hcs : cs ≠ []) :
    ∃ best, FirstNearest (fun c => distance (compared name) (compared c)) cs best ∧
      let d := distance (compared name) (compared best)
      let size := (spelled name).length
      closestBy? spelled compared name cs =
        if 1 ≤ d ∧ (d ≤ 1 ∨ 4 ≤ size ∧ d ≤ 2 ∨ 7 ≤ size ∧ d ≤ 3) then some best else none := by
  obtain ⟨best, hfirst, heq⟩ := closestBy?_firstNearest compared hname hcs
  refine ⟨best, hfirst, ?_⟩
  simpa only [le_threshold_iff] using heq

/-- Nothing is suggested for a name that one of the candidates is alike. -/
theorem closestBy?_eq_none_of_alike (hc : c ∈ cs) (halike : compared c = compared name) :
    closestBy? spelled compared name cs = none := by
  by_cases hname : spelled name = []
  · exact closestBy?_eq_none (.inl hname)
  · obtain ⟨best, hfirst, heq⟩ := closestBy?_firstNearest compared hname (List.ne_nil_of_mem hc)
    have hleast := hfirst.least c hc
    rw [distance_eq_zero_iff.mpr halike.symm] at hleast
    rw [heq, if_neg fun h => absurd (Nat.le_trans h.1 hleast) (by decide)]

/-! ### Names -/

theorem bytes_eq_nil_iff {s : String} : bytes s = [] ↔ s = "" := by
  rw [← String.utf8ByteSize_eq_zero_iff, bytes, Array.toList_eq_nil_iff, ← Array.size_eq_zero_iff]
  rfl

/-- Distances are least numbers of edits.  The candidate that is suggested is the first of least
distance in lower case, where that distance is neither zero nor too much for the size of the name
as it is spelled; nothing is suggested for an empty name, among no candidates, or for a name that
differs from one of them in case alone.  Whatever bytes names are spelled with and compared by,
the same holds of these. -/
theorem closest_is_first_nearest :
    (∀ as bs, IsLeast {n | Edits n as bs} (distance as bs)) ∧
    (∀ name candidates, name = "" ∨ candidates = [] → closest? name candidates = none) ∧
    (∀ name candidates, ∀ c ∈ candidates, Text.lowerSimple c = Text.lowerSimple name →
      closest? name candidates = none) ∧
    (∀ name candidates, name ≠ "" → candidates ≠ [] →
      ∃ best, FirstNearest (fun c => distance (folded name) (folded c)) candidates best ∧
        let d := distance (folded name) (folded best)
        let size := (bytes name).length
        closest? name candidates =
          if 1 ≤ d ∧ (d ≤ 1 ∨ 4 ≤ size ∧ d ≤ 2 ∨ 7 ≤ size ∧ d ≤ 3) then some best else none) ∧
    ∀ (α : Type) (spelled compared : α → List UInt8),
      (∀ name cs, spelled name = [] ∨ cs = [] → closestBy? spelled compared name cs = none) ∧
      ∀ name cs, spelled name ≠ [] → cs ≠ [] →
        ∃ best, FirstNearest (fun c => distance (compared name) (compared c)) cs best ∧
          let d := distance (compared name) (compared best)
          let size := (spelled name).length
          closestBy? spelled compared name cs =
            if 1 ≤ d ∧ (d ≤ 1 ∨ 4 ≤ size ∧ d ≤ 2 ∨ 7 ≤ size ∧ d ≤ 3) then some best else none := by
  refine ⟨distance_isLeast, fun name cs h => ?_, fun name cs c hc hcase => ?_,
    fun name cs hname hcs => ?_, fun α spelled compared => ⟨fun _ _ => closestBy?_eq_none, ?_⟩⟩
  · exact closestBy?_eq_none (h.imp_left bytes_eq_nil_iff.mpr)
  · exact closestBy?_eq_none_of_alike hc (congrArg bytes hcase)
  · exact closestBy?_nearest folded (mt bytes_eq_nil_iff.mp hname) hcs
  · exact fun name cs hname hcs => closestBy?_nearest compared hname hcs

/-- Of two candidates one edit away, the first is suggested; and a candidate in capitals keeps its
lower case from being suggested. -/
theorem closest_is_first_nearest_replac :
    closest? "replac" ["upper", "Replace", "replace"] = some "Replace" ∧
      FirstNearest (fun c => distance (folded "replac") (folded c))
        ["upper", "Replace", "replace"] "Replace" ∧
      closest? "" ["upper"] = none ∧ closest? "UPPER" ["uppers", "upper"] = none := by
  have hsome : closest? "replac" ["upper", "Replace", "replace"] = some "Replace" := by decide
  obtain ⟨-, hnothing, hcase, hnearest, -⟩ := closest_is_first_nearest
  obtain ⟨best, hfirst, heq⟩ :=
    hnearest "replac" ["upper", "Replace", "replace"] (by decide) (by decide)
  have hbest := hsome.symm.trans heq
  refine ⟨hsome, ?_, hnothing "" ["upper"] (.inl rfl),
    hcase "UPPER" ["uppers", "upper"] "upper" (by decide) (by decide)⟩
  split at hbest
  · cases hbest
    exact hfirst
  · cases hbest

end TextScript.Suggestion
