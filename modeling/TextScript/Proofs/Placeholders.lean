/-
TextScript/Proofs/Placeholders.lean

The placeholders of a settings document.

`Spells` says how a placeholder is written, without a scanner: an opening, a name, and either a
brace or `:-`, a default and a brace.  What is looked for at a place is exactly that
(`at?_spelled`, `spelled_of_at?`), so no two placeholders begin at one place, and a placeholder by
itself is read as it was in the document.

A document is cut at its placeholders from the left, each time at the leftmost one of what stands
behind the last (`Cut`).  There is one such cut, and expanding the document leaves its gaps as
they are and puts what each placeholder stands for in its place (`expand_cut`).
-/
import Mathlib.Data.List.TakeWhile
import TextScript.Settings.Placeholder

namespace TextScript.Placeholder

variable {getenv : String → String} {c : Char} {cs name w rest tail : List Char}
  {default : Option (List Char)}

/-! ### How placeholders are written -/

/-- The characters that write a placeholder of a name and maybe a default. -/
inductive Spells : List Char → Option (List Char) → List Char → Prop
  | bare {name : List Char} (hne : name ≠ []) (hname : ∀ c ∈ name, c ≠ '}' ∧ c ≠ ':') :
      Spells name none ('$' :: '{' :: (name ++ ['}']))
  | defaulted {name default : List Char} (hne : name ≠ []) (hname : ∀ c ∈ name, c ≠ '}' ∧ c ≠ ':')
      (hdefault : ∀ c ∈ default, c ≠ '}') :
      Spells name (some default) ('$' :: '{' :: (name ++ ':' :: '-' :: (default ++ ['}'])))

/-- What a placeholder stands for. -/
def standsFor (getenv : String → String) (name : List Char) (default : Option (List Char)) :
    List Char :=
  if getenv (String.ofList name) = "" then default.getD [] else (getenv (String.ofList name)).toList

theorem value_eq (p : Placeholder) (getenv : String → String) :
    p.value getenv = standsFor getenv p.name p.default := by
  simp only [value, standsFor, List.isEmpty_iff, String.toList_eq_nil_iff]

theorem isNameChar_iff : isNameChar c = true ↔ c ≠ '}' ∧ c ≠ ':' := by
  simp only [isNameChar, Bool.and_eq_true, decide_eq_true_eq]

/-- Taking characters stops at the first that does not belong. -/
theorem takeWhile_stopped {f : Char → Bool} {body : List Char} (hbody : ∀ c ∈ body, f c = true)
    (hstop : f c = false) (rest : List Char) : (body ++ c :: rest).takeWhile f = body := by
  rw [List.takeWhile_append_of_pos hbody, List.takeWhile_cons_of_neg (by simp [hstop]),
    List.append_nil]

theorem takeWhile_append_drop (f : Char → Bool) (cs : List Char) :
    cs.takeWhile f ++ cs.drop (cs.takeWhile f).length = cs :=
  List.prefix_iff_eq_append.mp (List.takeWhile_prefix f)

/-- A placeholder is read as it is written, whatever stands behind it. -/
theorem at?_spelled (h : Spells name default w) (rest : List Char) :
    at? (w ++ rest) = some ⟨name, default, w.length⟩ := by
  cases h with
  | bare hne hname =>
    have hrun : ∀ c ∈ name, isNameChar c = true := fun c hc => isNameChar_iff.mpr (hname c hc)
    have htake := takeWhile_stopped (c := '}') hrun rfl rest
    show complete? (name ++ ['}'] ++ rest) = _
    rw [List.append_assoc, List.singleton_append, complete?, htake, List.drop_left,
      if_neg (by simpa using hne)]
    simp
  | @defaulted default hne hname hdefault =>
    have hrun : ∀ c ∈ name, isNameChar c = true := fun c hc => isNameChar_iff.mpr (hname c hc)
    have htake := takeWhile_stopped (c := ':') hrun rfl ('-' :: (default ++ '}' :: rest))
    have hrest := takeWhile_stopped (f := (· ≠ '}')) (c := '}')
      (fun c hc => decide_eq_true (hdefault c hc)) rfl rest
    have hassoc : name ++ ':' :: '-' :: (default ++ ['}']) ++ rest =
        name ++ ':' :: '-' :: (default ++ '}' :: rest) := by simp
    show complete? (name ++ ':' :: '-' :: (default ++ ['}']) ++ rest) = _
    rw [hassoc, complete?, htake, List.drop_left, if_neg (by simpa using hne)]
    simp only [hrest, List.drop_left]
    simp
    omega

/-- What is read as a placeholder is spelled as one. -/
theorem spelled_of_complete? {p : Placeholder} (h : complete? cs = some p) :
    ∃ w rest, Spells p.name p.default w ∧ '$' :: '{' :: cs = w ++ rest := by
  have hname : ∀ c ∈ cs.takeWhile isNameChar, c ≠ '}' ∧ c ≠ ':' :=
    fun c hc => isNameChar_iff.mp (List.mem_takeWhile_imp hc)
  -- only what was taken for the name and what stands behind it matter from here on
  have hcs := takeWhile_append_drop isNameChar cs
  simp only [complete?] at h
  generalize cs.takeWhile isNameChar = name at h hname hcs
  generalize cs.drop name.length = behind at h hcs
  split at h
  · cases h
  · next hempty =>
    have hne : name ≠ [] := by simpa using hempty
    split at h
    · next rest =>
      cases h
      exact ⟨_, rest, .bare hne hname, by simp [← hcs]⟩
    · next behind =>
      have hdefault : ∀ c ∈ behind.takeWhile (· ≠ '}'), c ≠ '}' :=
        fun c hc => of_decide_eq_true (List.mem_takeWhile_imp (p := (· ≠ '}')) hc)
      have hbehind := takeWhile_append_drop (· ≠ '}') behind
      generalize behind.takeWhile (· ≠ '}') = default at h hdefault hbehind
      generalize behind.drop default.length = last at h hbehind
      split at h
      · next rest =>
        cases h
        exact ⟨_, rest, .defaulted hne hname hdefault, by simp [← hcs, ← hbehind]⟩
      · cases h
    · cases h

/-- What is read is a placeholder. -/
theorem spelled_of_at? {p : Placeholder} (h : at? cs = some p) :
    ∃ w rest, Spells p.name p.default w ∧ cs = w ++ rest := by
  unfold at? at h
  split at h
  · exact spelled_of_complete? h
  · cases h

/-- No two placeholders begin at one place. -/
theorem Spells.unique {name' w' rest' : List Char} {default' : Option (List Char)}
    (h : Spells name default w) (h' : Spells name' default' w') (heq : w ++ rest = w' ++ rest') :
    name = name' ∧ default = default' ∧ w = w' ∧ rest = rest' := by
  have hread := at?_spelled h rest
  rw [heq, at?_spelled h' rest'] at hread
  obtain ⟨hname, hdefault, hlength⟩ := Placeholder.mk.inj (Option.some.inj hread)
  obtain ⟨hw, hrest⟩ := List.append_inj heq hlength.symm
  exact ⟨hname.symm, hdefault.symm, hw, hrest⟩

/-! ### Expanding step by step -/

theorem expandFrom_eq (getenv : String → String) (skip : Nat) (cs : List Char) :
    expandFrom getenv skip cs = expand getenv (cs.drop skip) := by
  induction skip generalizing cs with
  | zero => rfl
  | succ skip ih =>
    cases cs with
    | nil => simp [expand, expandFrom]
    | cons c cs =>
      rw [expandFrom, ih]
      rfl

/-- A character that no placeholder begins with stays. -/
theorem expand_cons (h : at? (c :: cs) = none) :
    expand getenv (c :: cs) = c :: expand getenv cs := by
  rw [expand, expandFrom, h]
  rfl

/-- A placeholder is replaced, and expanding goes on behind it. -/
theorem expand_spelled (h : Spells name default w) (rest : List Char) :
    expand getenv (w ++ rest) = standsFor getenv name default ++ expand getenv rest := by
  have hread := at?_spelled h rest
  obtain ⟨c, cs, rfl⟩ : ∃ c cs, w = c :: cs := by cases h <;> exact ⟨_, _, rfl⟩
  rw [List.cons_append] at hread ⊢
  rw [expand, expandFrom, hread]
  simp only [value_eq, expandFrom_eq, List.length_cons, Nat.add_sub_cancel, List.drop_left]

/-! ### Cuts at the leftmost placeholders -/

/-- A placeholder with what stands between it and the one before. -/
structure Piece where
  gap : List Char
  name : List Char
  default : Option (List Char)
  written : List Char

namespace Piece

/-- A piece as it stands in the document. -/
def source (p : Piece) : List Char :=
  p.gap ++ p.written

/-- A piece with its placeholder replaced. -/
def expanded (p : Piece) (getenv : String → String) : List Char :=
  p.gap ++ standsFor getenv p.name p.default

/-- The leftmost placeholder of a document, with what stands before and behind it. -/
structure Leftmost (p : Piece) (cs rest : List Char) : Prop where
  around : cs = p.gap ++ (p.written ++ rest)
  spelled : Spells p.name p.default p.written
  first : ∀ gap {name w rest default}, Spells name default w → cs = gap ++ (w ++ rest) →
    p.gap.length ≤ gap.length

end Piece

/-- There is no placeholder. -/
def Free (cs : List Char) : Prop :=
  ∀ gap {name w rest default}, Spells name default w → cs ≠ gap ++ (w ++ rest)

/-- The pieces of a document up to its last placeholder, and what stands behind that. -/
inductive Cut : List Char → List Piece → List Char → Prop
  | last {cs : List Char} (hfree : Free cs) : Cut cs [] cs
  | next {cs rest tail : List Char} {p : Piece} {pieces : List Piece} (hfirst : p.Leftmost cs rest)
      (hrest : Cut rest pieces tail) : Cut cs (p :: pieces) tail

variable {p q : Piece} {pieces : List Piece}

/-- Where no placeholder begins, each one begins in the rest. -/
theorem occurs_behind {gap : List Char} (hnone : at? (c :: cs) = none) (h : Spells name default w)
    (heq : c :: cs = gap ++ (w ++ rest)) : ∃ gap', gap = c :: gap' ∧ cs = gap' ++ (w ++ rest) := by
  cases gap with
  | nil =>
    rw [heq, List.nil_append, at?_spelled h rest] at hnone
    cases hnone
  | cons d gap =>
    obtain ⟨rfl, hrest⟩ := List.cons.inj heq
    exact ⟨gap, rfl, hrest⟩

/-- One more character in front that begins no placeholder. -/
theorem Free.cons (hfree : Free cs) (hnone : at? (c :: cs) = none) : Free (c :: cs) := by
  intro gap name w rest default h heq
  obtain ⟨gap', -, hrest⟩ := occurs_behind hnone h heq
  exact hfree gap' h hrest

theorem Free.at?_eq_none (h : Free (c :: cs)) : at? (c :: cs) = none := by
  cases hread : at? (c :: cs) with
  | none => rfl
  | some found =>
    obtain ⟨w, rest, hspelled, heq⟩ := spelled_of_at? hread
    exact absurd heq (h [] hspelled)

theorem Free.of_cons (h : Free (c :: cs)) : Free cs :=
  fun gap _ _ _ _ hspelled heq => h (c :: gap) hspelled (congrArg (c :: ·) heq)

/-- Characters without a placeholder are expanded to themselves. -/
theorem Free.expand_eq (h : Free cs) : expand getenv cs = cs := by
  induction cs with
  | nil => rfl
  | cons c cs ih => rw [expand_cons h.at?_eq_none, ih h.of_cons]

theorem Spells.ne_nil (h : Spells name default w) : w ≠ [] := by
  cases h <;> exact List.cons_ne_nil _ _

theorem free_nil : Free [] :=
  fun _ _ _ _ _ h heq =>
    h.ne_nil (List.append_eq_nil_iff.mp (List.append_eq_nil_iff.mp heq.symm).2).1

namespace Piece.Leftmost

/-- One more character in front of the leftmost placeholder. -/
theorem cons (h : p.Leftmost cs rest) (hnone : at? (c :: cs) = none) :
    ({ p with gap := c :: p.gap } : Piece).Leftmost (c :: cs) rest where
  around := congrArg (c :: ·) h.around
  spelled := h.spelled
  first := by
    intro gap name w rest default hspelled heq
    obtain ⟨gap', rfl, hrest⟩ := occurs_behind hnone hspelled heq
    exact Nat.succ_le_succ (h.first gap' hspelled hrest)

/-- Something is read with every placeholder. -/
theorem length_lt (h : p.Leftmost cs rest) : rest.length < cs.length := by
  have hpos := List.length_pos_iff.mpr h.spelled.ne_nil
  rw [h.around, List.length_append, List.length_append]
  omega

/-- What is leftmost has a gap without placeholders, so expanding comes to it unchanged. -/
theorem expand_eq (h : p.Leftmost cs rest) :
    expand getenv cs = p.expanded getenv ++ expand getenv rest := by
  obtain ⟨gap, name, default, w⟩ := p
  induction gap generalizing cs with
  | nil =>
    rw [h.around]
    exact expand_spelled h.spelled rest
  | cons c gap ih =>
    obtain rfl : cs = c :: (gap ++ (w ++ rest)) := h.around
    -- a placeholder that began here would begin further left
    have hnone : at? (c :: (gap ++ (w ++ rest))) = none := by
      cases hread : at? (c :: (gap ++ (w ++ rest))) with
      | none => rfl
      | some found =>
        obtain ⟨w', rest', hspelled, heq⟩ := spelled_of_at? hread
        exact absurd (h.first [] hspelled heq) (Nat.not_succ_le_zero _)
    have hbehind : Leftmost ⟨gap, name, default, w⟩ (gap ++ (w ++ rest)) rest :=
      ⟨rfl, h.spelled, fun gap' _ _ _ _ hspelled heq =>
        Nat.le_of_succ_le_succ (h.first (c :: gap') hspelled (congrArg (c :: ·) heq))⟩
    rw [expand_cons hnone, ih hbehind]
    rfl

theorem unique {rest' : List Char} (h : p.Leftmost cs rest) (h' : q.Leftmost cs rest') :
    p = q ∧ rest = rest' := by
  have hlength : p.gap.length = q.gap.length :=
    Nat.le_antisymm (h.first _ h'.spelled h'.around) (h'.first _ h.spelled h.around)
  obtain ⟨hgap, hbehind⟩ := List.append_inj (h.around.symm.trans h'.around) hlength
  obtain ⟨hname, hdefault, hwritten, hrest⟩ := h.spelled.unique h'.spelled hbehind
  cases p
  cases q
  cases hgap
  cases hname
  cases hdefault
  cases hwritten
  exact ⟨rfl, hrest⟩

end Piece.Leftmost

/-- There is a leftmost placeholder, or none at all. -/
theorem leftmost_or_free (cs : List Char) : (∃ p rest, Piece.Leftmost p cs rest) ∨ Free cs := by
  induction cs with
  | nil => exact .inr free_nil
  | cons c cs ih =>
    cases hread : at? (c :: cs) with
    | some found =>
      obtain ⟨w, rest, hspelled, heq⟩ := spelled_of_at? hread
      exact .inl ⟨⟨[], _, _, w⟩, rest, heq, hspelled, fun _ _ _ _ _ _ _ => Nat.zero_le _⟩
    | none =>
      rcases ih with ⟨p, rest, h⟩ | hfree
      · exact .inl ⟨_, rest, h.cons hread⟩
      · exact .inr (hfree.cons hread)

/-- All characters can be cut at their placeholders. -/
theorem exists_cut (cs : List Char) : ∃ pieces tail, Cut cs pieces tail := by
  induction hn : cs.length using Nat.strongRecOn generalizing cs with
  | ind n ih =>
    subst hn
    rcases leftmost_or_free cs with ⟨p, rest, h⟩ | hfree
    · obtain ⟨pieces, tail, hrest⟩ := ih _ h.length_lt rest rfl
      exact ⟨p :: pieces, tail, .next h hrest⟩
    · exact ⟨[], cs, .last hfree⟩

namespace Cut

theorem unique {pieces' : List Piece} {tail' : List Char} (h : Cut cs pieces tail)
    (h' : Cut cs pieces' tail') : pieces' = pieces ∧ tail' = tail := by
  induction h generalizing pieces' tail' with
  | last hfree =>
    cases h' with
    | last => exact ⟨rfl, rfl⟩
    | next hfirst => exact absurd hfirst.around (hfree _ hfirst.spelled)
  | next hfirst _ ih =>
    cases h' with
    | last hfree => exact absurd hfirst.around (hfree _ hfirst.spelled)
    | next hfirst' hrest' =>
      obtain ⟨rfl, rfl⟩ := hfirst.unique hfirst'
      obtain ⟨rfl, rfl⟩ := ih hrest'
      exact ⟨rfl, rfl⟩

/-- A cut leaves nothing out. -/
theorem source_eq (h : Cut cs pieces tail) : cs = pieces.flatMap Piece.source ++ tail := by
  induction h with
  | last => rfl
  | next hfirst _ ih =>
    rw [hfirst.around, List.flatMap_cons, Piece.source, List.append_assoc, List.append_assoc, ← ih]

/-- Expansion puts values in the place of placeholders and leaves the gaps. -/
theorem expand_eq (h : Cut cs pieces tail) :
    expand getenv cs = pieces.flatMap (Piece.expanded · getenv) ++ tail := by
  induction h with
  | last hfree => exact hfree.expand_eq
  | next hfirst _ ih => rw [hfirst.expand_eq, ih, List.flatMap_cons, List.append_assoc]

/-- Every piece of a cut ends with a placeholder. -/
theorem spelled (h : Cut cs pieces tail) : ∀ p ∈ pieces, Spells p.name p.default p.written := by
  induction h with
  | last => exact List.forall_mem_nil _
  | next hfirst _ ih => exact List.forall_mem_cons.mpr ⟨hfirst.spelled, ih⟩

end Cut

/-- A document has one cut at its leftmost placeholders.  Its pieces and what is left make up the
document, each placeholder by itself is read as it was in the document, and expanding the document
puts what each placeholder stands for in its place and changes nothing else, so what is put in is
not read again. -/
theorem expand_cut (getenv : String → String) (cs : List Char) :
    ∃ pieces tail, Cut cs pieces tail ∧
      (∀ pieces' tail', Cut cs pieces' tail' → pieces' = pieces ∧ tail' = tail) ∧
      cs = pieces.flatMap Piece.source ++ tail ∧
      (∀ p ∈ pieces, at? p.written = some ⟨p.name, p.default, p.written.length⟩) ∧
      expand getenv cs = pieces.flatMap (Piece.expanded · getenv) ++ tail := by
  obtain ⟨pieces, tail, h⟩ := exists_cut cs
  refine ⟨pieces, tail, h, fun _ _ h' => h.unique h', h.source_eq, fun p hp => ?_, h.expand_eq⟩
  rw [← List.append_nil p.written, at?_spelled (h.spelled p hp) [], List.append_nil]

/-- A name and a name with a default, where the value of the first looks like a placeholder. -/
theorem expand_cut_two :
    let getenv : String → String := fun name => if name = "A" then "$\x7bB\x7d" else ""
    let a : Piece := ⟨[], ['A'], none, ['$', '{', 'A', '}']⟩
    let b : Piece := ⟨[], ['B'], some ['x'], ['$', '{', 'B', ':', '-', 'x', '}']⟩
    Cut (a.source ++ b.source) [a, b] [] ∧
      (∀ pieces tail, Cut (a.source ++ b.source) pieces tail → pieces = [a, b] ∧ tail = []) ∧
      expand getenv (a.source ++ b.source) = ['$', '{', 'B', '}', 'x'] := by
  intro getenv a b
  have ha : Spells a.name a.default a.written :=
    .bare (List.cons_ne_nil _ _) (List.forall_mem_singleton.mpr (by decide))
  have hb : Spells b.name b.default b.written :=
    .defaulted (List.cons_ne_nil _ _) (List.forall_mem_singleton.mpr (by decide))
      (List.forall_mem_singleton.mpr (by decide))
  have hcut : Cut (a.source ++ b.source) [a, b] [] :=
    .next ⟨rfl, ha, fun _ _ _ _ _ _ _ => Nat.zero_le _⟩
      (.next ⟨rfl, hb, fun _ _ _ _ _ _ _ => Nat.zero_le _⟩ (.last free_nil))
  obtain ⟨pieces, tail, -, honly, -, -, hexpand⟩ := expand_cut getenv (a.source ++ b.source)
  obtain ⟨rfl, rfl⟩ := honly _ _ hcut
  exact ⟨hcut, honly, hexpand.trans (by decide +kernel)⟩

/-- The inner opening is part of a name, `:x` opens no default, an empty name none at all, and a
value that looks like a placeholder stays. -/
example :
    expand (fun name => if name = "A" then "$\x7bB\x7d" else "")
        "$\x7ba$\x7bb\x7d $\x7bA:x\x7d $\x7b\x7d $\x7bA\x7d $\x7bC:-$\x7bA\x7d".toList =
      " $\x7bA:x\x7d $\x7b\x7d $\x7bB\x7d $\x7bA".toList := by
  decide +kernel

end TextScript.Placeholder
