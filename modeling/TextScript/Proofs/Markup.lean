/-
TextScript/Proofs/Markup.lean

Entities for special characters, and back.

The entities are written down here as data, each a character with its form, the ampersand apart
from the others.  Escaping is compared with them point by point (`escapePoint_of_mem`,
`escapePoint_of_not_mem`), and three facts about the forms carry everything: each begins with an
ampersand, none holds another one, and none holds one of the other special characters.

By the first two a form is found again wherever it was put, whatever stands behind it, and nothing
else is taken for one, so a single pass from the left resolves what escaping wrote.  By the third,
replacing one special character after another never meets what was put there before, so only the
ampersand has a fixed place in the order (`foldl_put`).
-/
import Mathlib.Data.List.Infix
import Mathlib.Data.List.Nodup
import TextScript.Proofs.Occurrences
import TextScript.Text.Markup

namespace TextScript.Text

/-- A special character and the text that stands for it. -/
structure Entity where
  point : Int
  form : Text
deriving DecidableEq

namespace Entity

def ampersand : Entity := ⟨pointOf '&', .ofString "&amp;"⟩

/-- The entities of the special characters that no entity is written with. -/
def others : List Entity :=
  [⟨pointOf '<', .ofString "&lt;"⟩, ⟨pointOf '>', .ofString "&gt;"⟩,
   ⟨pointOf '"', .ofString "&quot;"⟩, ⟨pointOf '\'', .ofString "&apos;"⟩]

def all : List Entity := ampersand :: others

/-- Puts the entity in place of every occurrence of its character. -/
def put (t : Text) (e : Entity) : Text :=
  t.replaceAll ⟨[e.point]⟩ e.form

/-- The entity that some code points begin with. -/
def leading? (cs : List Int) : Option Entity :=
  all.find? fun e => e.form.points.isPrefixOf cs

end Entity

open Entity

/-- Replaces entities by their characters in one pass; `skip` counts the code points that belong
to the entity before. -/
def resolveFrom : (skip : Nat) → List Int → List Int
  | _, [] => []
  | skip + 1, _ :: cs => resolveFrom skip cs
  | 0, c :: cs =>
    match leading? (c :: cs) with
    | some e => e.point :: resolveFrom (e.form.length - 1) cs
    | none => c :: resolveFrom 0 cs

/-- The text with every entity replaced by its character, from the left. -/
def resolve (t : Text) : Text :=
  ⟨resolveFrom 0 t.points⟩

variable {cs pre post : List Int} {c n : Int} {e : Entity} {done es : List Entity}

/-! ### The forms -/

/-- Every form begins with an ampersand. -/
theorem form_eq : ∀ e ∈ all, e.form.points = ampersand.point :: e.form.points.tail := by decide

/-- A form has no second ampersand. -/
theorem ampersand_not_mem_tail : ∀ e ∈ all, ampersand.point ∉ e.form.points.tail := by decide

/-- No form has one of the other special characters in it. -/
theorem other_not_mem_form : ∀ e ∈ others, ∀ d ∈ all, e.point ∉ d.form.points := by decide

/-- A special character becomes its form. -/
theorem escapePoint_of_mem : ∀ e ∈ all, escapePoint e.point = e.form.points := by decide

/-- Any other stays as it is. -/
theorem escapePoint_of_not_mem (h : ∀ e ∈ all, e.point ≠ n) : escapePoint n = [n] := by
  obtain ⟨hamp, hlt, hgt, hquot, hapos, -⟩ : _ ∧ _ ∧ _ ∧ _ ∧ _ ∧ _ := by
    simpa only [all, others, List.forall_mem_cons] using h
  have hnone : entity? n = none := by
    unfold entity?
    split
    · exact absurd rfl hamp
    · exact absurd rfl hlt
    · exact absurd rfl hgt
    · exact absurd rfl hquot
    · exact absurd rfl hapos
    · rfl
  rw [escapePoint, hnone]

/-- A code point is special or escaped as itself. -/
theorem special_or_plain (n : Int) : (∃ e ∈ all, e.point = n) ∨ (∀ e ∈ all, e.point ≠ n) := by
  by_cases h : ∃ e ∈ all, e.point = n
  · exact .inl h
  · exact .inr fun e he heq => h ⟨e, he, heq⟩

/-! ### What is left after escaping -/

theorem other_not_mem_escapePoint (he : e ∈ others) (n : Int) : e.point ∉ escapePoint n := by
  obtain ⟨d, hd, rfl⟩ | hn := special_or_plain n
  · rw [escapePoint_of_mem d hd]
    exact other_not_mem_form e he d hd
  · rw [escapePoint_of_not_mem hn, List.mem_singleton]
    exact hn e (List.mem_cons_of_mem _ he)

/-- No special character but the ampersand is left. -/
theorem other_not_mem_xmlSafe (t : Text) (he : e ∈ others) : e.point ∉ t.xmlSafe.points := by
  intro hmem
  obtain ⟨n, -, hn⟩ := List.mem_flatMap.mp hmem
  exact other_not_mem_escapePoint he n hn

/-- An ampersand in what a code point is escaped as begins all of it. -/
theorem escapePoint_ampersand (h : escapePoint n = pre ++ ampersand.point :: post) :
    ∃ e ∈ all, e.form.points = ampersand.point :: post := by
  obtain ⟨e, he, rfl⟩ | hn := special_or_plain n
  · rw [escapePoint_of_mem e he] at h
    cases pre with
    | nil => exact ⟨e, he, h⟩
    | cons c pre =>
      refine absurd ?_ (ampersand_not_mem_tail e he)
      rw [h, List.cons_append, List.tail_cons]
      exact List.mem_append_right _ List.mem_cons_self
  · rw [escapePoint_of_not_mem hn] at h
    have hmem : ampersand.point ∈ [n] := h ▸ List.mem_append_right _ List.mem_cons_self
    exact absurd (List.mem_singleton.mp hmem) (hn _ List.mem_cons_self)

/-- Every ampersand that is left begins a form. -/
theorem ampersand_begins_form (h : cs.flatMap escapePoint = pre ++ ampersand.point :: post) :
    ∃ e ∈ all, e.form.points <+: ampersand.point :: post := by
  induction cs generalizing pre with
  | nil => exact absurd h.symm (List.append_ne_nil_of_right_ne_nil _ (List.cons_ne_nil _ _))
  | cons n cs ih =>
    rw [List.flatMap_cons] at h
    obtain ⟨as, rfl, hrest⟩ | ⟨bs, hform, hpost⟩ := List.append_eq_append_iff.mp h
    · exact ih hrest
    · cases bs with
      | nil =>
        exact ih (show cs.flatMap escapePoint = [] ++ ampersand.point :: post from hpost.symm)
      | cons b bs =>
        obtain ⟨rfl, rfl⟩ := List.cons.inj hpost
        obtain ⟨e, he, heq⟩ := escapePoint_ampersand hform
        exact ⟨e, he, cs.flatMap escapePoint, by rw [heq]; rfl⟩

/-! ### Back again -/

/-- A form is recognised whatever follows it. -/
theorem leading?_form : ∀ e ∈ all, ∀ cs, leading? (e.form.points ++ cs) = some e := by
  simp only [all, others, List.forall_mem_cons]
  exact ⟨fun _ => rfl, fun _ => rfl, fun _ => rfl, fun _ => rfl, fun _ => rfl, nofun⟩

/-- Only an ampersand begins a form. -/
theorem leading?_eq_none (h : n ≠ ampersand.point) : leading? (n :: cs) = none := by
  refine List.find?_eq_none.mpr fun e he hstarts => h ?_
  have hprefix := List.isPrefixOf_iff_prefix.mp hstarts
  rw [form_eq e he] at hprefix
  exact (List.cons_prefix_cons.mp hprefix).1.symm

/-- Characters that belong to a form are passed over. -/
theorem resolveFrom_skip (l cs : List Int) : resolveFrom l.length (l ++ cs) = resolveFrom 0 cs := by
  induction l with
  | nil => rfl
  | cons _ l ih => exact ih

/-- A form is resolved to its character. -/
theorem resolveFrom_form (he : e ∈ all) (cs : List Int) :
    resolveFrom 0 (e.form.points ++ cs) = e.point :: resolveFrom 0 cs := by
  have hleading := leading?_form e he cs
  have hlength : e.form.length - 1 = e.form.points.tail.length := List.length_tail.symm
  rw [form_eq e he, List.cons_append] at hleading ⊢
  rw [resolveFrom, hleading]
  change e.point :: resolveFrom (e.form.length - 1) _ = _
  rw [hlength, resolveFrom_skip]

/-- What begins no form is kept. -/
theorem resolveFrom_plain (h : n ≠ ampersand.point) (cs : List Int) :
    resolveFrom 0 (n :: cs) = n :: resolveFrom 0 cs := by
  rw [resolveFrom, leading?_eq_none h]

/-- Resolving what was escaped gives it back. -/
theorem resolveFrom_escaped (cs : List Int) : resolveFrom 0 (cs.flatMap escapePoint) = cs := by
  induction cs with
  | nil => rfl
  | cons n cs ih =>
    rw [List.flatMap_cons]
    obtain ⟨e, he, rfl⟩ | hn := special_or_plain n
    · rw [escapePoint_of_mem e he, resolveFrom_form he, ih]
    · rw [escapePoint_of_not_mem hn, List.singleton_append,
        resolveFrom_plain (hn ampersand List.mem_cons_self).symm, ih]

theorem resolve_xmlSafe : Function.LeftInverse resolve xmlSafe := fun t =>
  congrArg Text.mk (resolveFrom_escaped t.points)

/-! ### One character after another -/

theorem flatMap_ite_of_not_mem {new : List Int} (h : c ∉ cs) :
    (cs.flatMap fun d => if d = c then new else [d]) = cs := by
  have hsame : ∀ d ∈ cs, (if d = c then new else [d]) = [d] := fun d hd =>
    if_neg fun heq : d = c => h (heq ▸ hd)
  rw [List.flatMap_congr hsame, List.flatMap_singleton']

/-- Replacing a single code point is substitution. -/
theorem replacePoints_singleton (c : Int) (new cs : List Int) :
    replacePoints [c] new cs = cs.flatMap fun d => if d = c then new else [d] := by
  have hne : [c] ≠ [] := List.cons_ne_nil _ _
  induction cs using search_induction hne with
  | absent cs h =>
    have hmem : c ∉ cs :=
      fun hmem => breakAt_eq_none_iff.mp h ((List.singleton_infix_iff c _).mpr hmem)
    rw [replacePoints_none hne h, flatMap_ite_of_not_mem hmem]
  | found cs pre post h ih =>
    have hleft := breakAt_leftmost h
    have hmem : c ∉ pre := fun hmem => hleft.absent hne ((List.singleton_infix_iff c _).mpr hmem)
    rw [replacePoints_some hne h, ih, hleft.around, List.flatMap_append,
      flatMap_ite_of_not_mem hmem, List.singleton_append, List.flatMap_cons, if_pos rfl,
      List.append_assoc]

/-- What a code point becomes when some entities have been put. -/
def escapeWith (es : List Entity) (n : Int) : List Int :=
  match es.find? (·.point = n) with
  | some e => e.form.points
  | none => [n]

/-- Whether `e` may be put after `d` has been: it is neither the same character nor one that `d` is
written with. -/
def MayFollow (d e : Entity) : Prop :=
  d.point ≠ e.point ∧ e.point ∉ d.form.points

instance : DecidableRel MayFollow := fun _ _ => inferInstanceAs (Decidable (_ ∧ _))

/-- One more replacement: it escapes one more character and leaves the forms that are there alone.
-/
theorem put_escaped (h : ∀ d ∈ done, MayFollow d e) :
    put ⟨cs.flatMap (escapeWith done)⟩ e = ⟨cs.flatMap (escapeWith (done ++ [e]))⟩ := by
  rw [put, replaceAll, replacePoints_singleton, List.flatMap_assoc]
  refine congrArg Text.mk (List.flatMap_congr fun n _ => ?_)
  unfold escapeWith
  rw [List.find?_append]
  cases hfind : done.find? (·.point = n) with
  | some d =>
    exact flatMap_ite_of_not_mem (h d (List.mem_of_find?_eq_some hfind)).2
  | none =>
    by_cases heq : e.point = n
    · simp [heq]
    · simp [heq, Ne.symm heq]

/-- All replacements in an order in which none spoils the form of another. -/
theorem foldl_put (h : (done ++ es).Pairwise MayFollow) :
    es.foldl put ⟨cs.flatMap (escapeWith done)⟩ = ⟨cs.flatMap (escapeWith (done ++ es))⟩ := by
  induction es generalizing done with
  | nil => rw [List.append_nil, List.foldl_nil]
  | cons e es ih =>
    have hfollow : ∀ d ∈ done, MayFollow d e := fun d hd =>
      (List.pairwise_append.mp h).2.2 d hd e List.mem_cons_self
    rw [List.append_cons] at h ⊢
    rw [List.foldl_cons, put_escaped hfollow, ih h]

/-- Replacing all special characters, in whatever order they are named, is escaping. -/
theorem escapeWith_of_perm (h : es.Perm all) : escapeWith es = escapePoint := by
  funext n
  unfold escapeWith
  cases hfind : es.find? (·.point = n) with
  | some e =>
    have hpoint : e.point = n := by simpa using List.find?_some hfind
    rw [← hpoint, escapePoint_of_mem e (h.mem_iff.mp (List.mem_of_find?_eq_some hfind))]
  | none =>
    have hplain : ∀ e ∈ all, e.point ≠ n := by
      intro e he
      simpa using List.find?_eq_none.mp hfind e (h.mem_iff.mpr he)
    rw [escapePoint_of_not_mem hplain]

theorem others_mayFollow : ∀ d ∈ all, ∀ e ∈ others, d ≠ e → MayFollow d e := by decide

/-- With the ampersand first, any order will do. -/
theorem pairwise_mayFollow (h : es.Perm others) : (ampersand :: es).Pairwise MayFollow := by
  have hnodup : (ampersand :: es).Nodup := (h.cons ampersand).nodup_iff.mpr (by decide)
  rw [List.nodup_cons] at hnodup
  refine List.pairwise_cons.mpr
    ⟨fun e he => ?_, List.Nodup.pairwise_of_forall_ne hnodup.2 fun d hd e he => ?_⟩
  · exact others_mayFollow _ List.mem_cons_self e (h.mem_iff.mp he) fun heq => hnodup.1 (heq ▸ he)
  · exact others_mayFollow d (List.mem_cons_of_mem _ (h.mem_iff.mp hd)) e (h.mem_iff.mp he)

theorem foldl_put_eq_xmlSafe (t : Text) (h : es.Perm others) :
    es.foldl put (put t ampersand) = t.xmlSafe := by
  have hstart : t = ⟨t.points.flatMap (escapeWith [])⟩ := by
    rw [show escapeWith [] = fun n => [n] from rfl, List.flatMap_singleton']
  calc es.foldl put (put t ampersand)
      = (ampersand :: es).foldl put ⟨t.points.flatMap (escapeWith [])⟩ := by
        rw [← hstart, List.foldl_cons]
    _ = ⟨t.points.flatMap (escapeWith (ampersand :: es))⟩ := foldl_put (pairwise_mayFollow h)
    _ = t.xmlSafe := by rw [escapeWith_of_perm (h.cons ampersand), xmlSafe]

/-- An escaped text holds no special character but ampersands, and each of those begins an entity.
Resolving the entities from the left brings the text back, so different texts stay different.
Replacing the ampersands and then the other characters, in any order, comes to the same. -/
theorem escaped_safe_and_reversible (t : Text) :
    (∀ e ∈ others, e.point ∉ t.xmlSafe.points) ∧
    (∀ pre post, t.xmlSafe.points = pre ++ ampersand.point :: post →
      ∃ e ∈ all, e.form.points <+: ampersand.point :: post) ∧
    t.xmlSafe.resolve = t ∧
    Function.Injective xmlSafe ∧
    ∀ order : List Entity, order.Perm others → order.foldl put (put t ampersand) = t.xmlSafe :=
  ⟨fun _ he => other_not_mem_xmlSafe t he, fun _ _ h => ampersand_begins_form h, resolve_xmlSafe t,
    resolve_xmlSafe.injective, fun _ h => foldl_put_eq_xmlSafe t h⟩

/-- A text that looks escaped in part, and the characters replaced from the last to the first. -/
theorem escaped_safe_and_reversible_entities :
    let t := Text.ofString "&lt;<&amp'"
    t.xmlSafe = .ofString "&amp;lt;&lt;&amp;amp&apos;" ∧ t.xmlSafe.resolve = t ∧
      others.reverse.foldl put (put t ampersand) = t.xmlSafe :=
  have h := escaped_safe_and_reversible (.ofString "&lt;<&amp'")
  ⟨by decide, h.2.2.1, h.2.2.2.2 _ (List.reverse_perm _)⟩

end TextScript.Text
