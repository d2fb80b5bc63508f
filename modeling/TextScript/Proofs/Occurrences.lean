/-
TextScript/Proofs/Occurrences.lean

Occurrences of one text in another, leftmost first and without overlap.

The search for a text finds its leftmost occurrence exactly (`breakAt_eq_some_iff`,
`breakAt_eq_none_iff`).  Replacing and splitting both go on behind what was found, so everything
about them is proved by `search_induction`: either there is no occurrence, or there is a leftmost
one and the same holds of what stands behind it.  No piece in front of a leftmost occurrence can
have one in it, also where occurrences overlap, since that one would be further left.

The same three loops are written down once more with an index that moves through the text and a
budget, of which every turn takes one.  What the search sees from an index on is the search in
what is left (`searchFrom_eq`), a match moves the index beyond itself, and so a budget of one for
each code point and two more is always enough.
-/
import TextScript.Text.Words

namespace TextScript.Text

variable {sub new cs pre post : List Int} {c : Int} {i n : Nat}

/-! ### The leftmost occurrence -/

/-- `sub` occurs in `cs` between `pre` and `post`, and nowhere further left. -/
structure Leftmost (sub cs pre post : List Int) : Prop where
  around : cs = pre ++ (sub ++ post)
  first : ∀ pre' post', cs = pre' ++ (sub ++ post') → pre.length ≤ pre'.length

theorem infix_iff : sub <:+: cs ↔ ∃ pre post, cs = pre ++ (sub ++ post) := by
  constructor
  · rintro ⟨pre, post, rfl⟩
    exact ⟨pre, post, List.append_assoc ..⟩
  · rintro ⟨pre, post, rfl⟩
    exact ⟨pre, post, List.append_assoc ..⟩

/-- An occurrence behind the first code point is one of the rest. -/
theorem Leftmost.cons (h : Leftmost sub cs pre post) (hc : ¬sub <+: c :: cs) :
    Leftmost sub (c :: cs) (c :: pre) post where
  around := congrArg (c :: ·) h.around
  first := by
    intro pre' post' heq
    cases pre' with
    | nil => exact absurd ⟨post', heq.symm⟩ hc
    | cons d pre' =>
      obtain ⟨rfl, hrest⟩ := List.cons.inj heq
      exact Nat.succ_le_succ (h.first pre' post' hrest)

/-- The search finds nothing where there is nothing. -/
theorem breakAt_eq_none_iff : breakAt sub cs = none ↔ ¬sub <:+: cs := by
  induction cs with
  | nil => cases sub <;> simp [breakAt]
  | cons c cs ih =>
    rw [breakAt, List.infix_cons_iff, not_or, ← ih]
    by_cases hstarts : sub <+: c :: cs
    · rw [if_pos (List.isPrefixOf_iff_prefix.mpr hstarts)]
      exact iff_of_false (Option.some_ne_none _) fun h => h.1 hstarts
    · rw [if_neg (mt List.isPrefixOf_iff_prefix.mp hstarts), Option.map_eq_none_iff]
      exact ⟨fun h => ⟨hstarts, h⟩, And.right⟩

/-- What the search finds is the leftmost occurrence. -/
theorem breakAt_leftmost (h : breakAt sub cs = some (pre, post)) : Leftmost sub cs pre post := by
  induction cs generalizing pre with
  | nil =>
    rw [breakAt] at h
    split at h
    · next hempty =>
      cases h
      exact ⟨by simp_all, fun _ _ _ => Nat.zero_le _⟩
    · cases h
  | cons c cs ih =>
    rw [breakAt] at h
    split at h
    · next hstarts =>
      cases h
      obtain ⟨post, hpost⟩ := List.isPrefixOf_iff_prefix.mp hstarts
      refine ⟨?_, fun _ _ _ => Nat.zero_le _⟩
      rw [← hpost, List.drop_left, List.nil_append]
    · next hstarts =>
      obtain ⟨⟨pre', post'⟩, hrest, heq⟩ := Option.map_eq_some_iff.mp h
      cases heq
      exact (ih hrest).cons (mt List.isPrefixOf_iff_prefix.mpr hstarts)

theorem Leftmost.unique {pre' post' : List Int} (h : Leftmost sub cs pre post)
    (h' : Leftmost sub cs pre' post') : pre = pre' ∧ post = post' := by
  have hlen : pre.length = pre'.length :=
    Nat.le_antisymm (h.first _ _ h'.around) (h'.first _ _ h.around)
  obtain ⟨hpre, hrest⟩ := List.append_inj (h.around.symm.trans h'.around) hlen
  exact ⟨hpre, List.append_cancel_left hrest⟩

theorem breakAt_eq_some_iff : breakAt sub cs = some (pre, post) ↔ Leftmost sub cs pre post := by
  refine ⟨breakAt_leftmost, fun h => ?_⟩
  cases hfound : breakAt sub cs with
  | none => exact absurd (infix_iff.mpr ⟨_, _, h.around⟩) (breakAt_eq_none_iff.mp hfound)
  | some found =>
    obtain ⟨rfl, rfl⟩ := h.unique (breakAt_leftmost hfound)
    rfl

theorem exists_leftmost (h : sub <:+: cs) : ∃ pre post, Leftmost sub cs pre post := by
  cases hfound : breakAt sub cs with
  | none => exact absurd h (breakAt_eq_none_iff.mp hfound)
  | some found => exact ⟨_, _, breakAt_leftmost hfound⟩

/-- No occurrence lies in what stands before the leftmost one. -/
theorem Leftmost.absent (h : Leftmost sub cs pre post) (hsub : sub ≠ []) : ¬sub <:+: pre := by
  intro hinfix
  obtain ⟨front, back, rfl⟩ := infix_iff.mp hinfix
  -- it would be an occurrence in the whole that ends before the leftmost one begins
  have hle := h.first front (back ++ (sub ++ post)) (by rw [h.around]; simp)
  have hpos := List.length_pos_iff.mpr hsub
  simp only [List.length_append] at hle
  omega

/-- Either nothing is found, or what is found leaves a shorter rest to search. -/
@[elab_as_elim] theorem search_induction (hsub : sub ≠ []) {P : List Int → Prop}
    (absent : ∀ cs, breakAt sub cs = none → P cs)
    (found : ∀ cs pre post, breakAt sub cs = some (pre, post) → P post → P cs)
    (cs : List Int) : P cs := by
  induction hn : cs.length using Nat.strongRecOn generalizing cs with
  | ind n ih =>
    subst hn
    cases hfound : breakAt sub cs with
    | none => exact absent cs hfound
    | some p => exact found cs p.1 p.2 hfound (ih _ (breakAt_lt hsub hfound) p.2 rfl)

/-! ### Pieces and replacements -/

theorem piecesAround_none (hsub : sub ≠ []) (h : breakAt sub cs = none) :
    piecesAround sub cs = [cs] := by
  rw [piecesAround, dif_neg hsub]
  split
  · rfl
  · next heq => rw [h] at heq; cases heq

theorem piecesAround_some (hsub : sub ≠ []) (h : breakAt sub cs = some (pre, post)) :
    piecesAround sub cs = pre :: piecesAround sub post := by
  rw [piecesAround, dif_neg hsub]
  split
  · next heq => rw [h] at heq; cases heq
  · next heq => rw [h] at heq; cases heq; rfl

theorem replacePoints_none (hsub : sub ≠ []) (h : breakAt sub cs = none) :
    replacePoints sub new cs = cs := by
  rw [replacePoints, dif_neg hsub]
  split
  · rfl
  · next heq => rw [h] at heq; cases heq

theorem replacePoints_some (hsub : sub ≠ []) (h : breakAt sub cs = some (pre, post)) :
    replacePoints sub new cs = pre ++ new ++ replacePoints sub new post := by
  rw [replacePoints, dif_neg hsub]
  split
  · next heq => rw [h] at heq; cases heq
  · next heq => rw [h] at heq; cases heq; rfl

theorem not_infix_of_mem_piecesAround (hsub : sub ≠ []) (cs : List Int) :
    ∀ piece ∈ piecesAround sub cs, ¬sub <:+: piece := by
  induction cs using search_induction hsub with
  | absent cs h =>
    rw [piecesAround_none hsub h]
    exact List.forall_mem_singleton.mpr (breakAt_eq_none_iff.mp h)
  | found cs pre post h ih =>
    rw [piecesAround_some hsub h]
    exact List.forall_mem_cons.mpr ⟨(breakAt_leftmost h).absent hsub, ih⟩

/-- What is left of a text without the occurrences is its pieces. -/
theorem flatten_piecesAround (hsub : sub ≠ []) (cs : List Int) :
    (piecesAround sub cs).flatten = replacePoints sub [] cs := by
  induction cs using search_induction hsub with
  | absent cs h =>
    rw [piecesAround_none hsub h, replacePoints_none hsub h, List.flatten_cons, List.flatten_nil,
      List.append_nil]
  | found cs pre post h ih =>
    rw [piecesAround_some hsub h, replacePoints_some hsub h, List.flatten_cons, ih, List.append_nil]

/-! ### The loops over an index -/

/-- Searches `cs` for `sub` from index `i` on; nothing is returned where the budget does not
suffice. -/
def searchFrom (sub cs : List Int) : (budget : Nat) → Nat → Option (Option Nat)
  | 0, _ => none
  | n + 1, i =>
    if cs.length < i + sub.length then some none
    else if (cs.drop i).take sub.length = sub then some (some i)
    else searchFrom sub cs n (i + 1)

/-- Collects the pieces of `cs` from index `i` on that hold something. -/
def splitFrom (sep cs : List Int) : (budget : Nat) → Nat → Option (List (List Int))
  | 0, _ => none
  | n + 1, i =>
    (searchFrom sep cs n i).bind fun
      | none => some (if i < cs.length then [cs.drop i] else [])
      | some k =>
        (splitFrom sep cs n (k + sep.length)).map fun pieces =>
          if i < k then (cs.take k).drop i :: pieces else pieces

/-- Replaces occurrences in `cs` from index `i` on: as many as `left` says, or all of them. -/
def replaceFrom (old new cs : List Int) :
    (budget : Nat) → (left : Option Nat) → Nat → Option (List Int)
  | 0, _, _ => none
  | n + 1, left, i =>
    if left = some 0 then some (cs.drop i)
    else
      (searchFrom old cs n i).bind fun
        | none => some (cs.drop i)
        | some k =>
          (replaceFrom old new cs n (left.map (· - 1)) (k + old.length)).map fun rest =>
            (cs.take k).drop i ++ new ++ rest

/-- The search from an index on is the search in what is left there. -/
theorem searchFrom_eq (hsub : sub ≠ []) (hn : cs.length - i < n) :
    searchFrom sub cs n i =
      some ((breakAt sub (cs.drop i)).map fun found => i + found.1.length) := by
  have hpos : 0 < sub.length := List.length_pos_iff.mpr hsub
  induction n generalizing i with
  | zero => omega
  | succ n ih =>
    have hlen : (cs.drop i).length = cs.length - i := List.length_drop
    rw [searchFrom]
    by_cases hshort : cs.length < i + sub.length
    · -- the rest is shorter than what is searched for
      have habsent : ¬sub <:+: cs.drop i := by
        intro hinfix
        have := hinfix.length_le
        omega
      rw [if_pos hshort, breakAt_eq_none_iff.mpr habsent]
      rfl
    · rw [if_neg hshort]
      have hi : i < cs.length := by omega
      have hdrop : cs.drop i = cs[i] :: cs.drop (i + 1) := List.drop_eq_getElem_cons hi
      by_cases hhere : (cs.drop i).take sub.length = sub
      · have hstarts : sub <+: cs[i] :: cs.drop (i + 1) := by
          rw [← hdrop]
          exact List.prefix_iff_eq_take.mpr hhere.symm
        rw [if_pos hhere, hdrop, breakAt, if_pos (List.isPrefixOf_iff_prefix.mpr hstarts)]
        rfl
      · have hstarts : ¬sub <+: cs[i] :: cs.drop (i + 1) := by
          rw [← hdrop]
          exact fun h => hhere (List.prefix_iff_eq_take.mp h).symm
        rw [if_neg hhere, ih (by omega), hdrop, breakAt,
          if_neg (mt List.isPrefixOf_iff_prefix.mp hstarts), Option.map_map]
        refine congrArg some (Option.map_congr fun found _ => ?_)
        show i + 1 + found.1.length = i + (found.1.length + 1)
        omega

/-- Where a match from an index on begins, and what stands before and behind it. -/
theorem match_at (h : breakAt sub (cs.drop i) = some (pre, post)) :
    (cs.take (i + pre.length)).drop i = pre ∧ cs.drop (i + pre.length + sub.length) = post := by
  have haround := (breakAt_leftmost h).around
  constructor
  · rw [List.drop_take, Nat.add_sub_cancel_left, haround, List.take_left]
  · rw [Nat.add_assoc, ← List.drop_drop, haround, ← List.append_assoc, ← List.length_append,
      List.drop_left]

theorem match_within (hsub : sub ≠ []) (h : breakAt sub (cs.drop i) = some (pre, post)) :
    i < i + pre.length + sub.length ∧ i + pre.length + sub.length ≤ cs.length := by
  have hpos := List.length_pos_iff.mpr hsub
  have hlen := congrArg List.length (breakAt_leftmost h).around
  simp only [List.length_drop, List.length_append] at hlen
  omega

theorem splitFrom_eq (hsub : sub ≠ []) (hn : cs.length - i + 1 < n) :
    splitFrom sub cs n i = some ((piecesAround sub (cs.drop i)).filter (!·.isEmpty)) := by
  induction n generalizing i with
  | zero => omega
  | succ n ih =>
    rw [splitFrom, searchFrom_eq hsub (by omega)]
    cases hfound : breakAt sub (cs.drop i) with
    | none =>
      rw [piecesAround_none hsub hfound]
      by_cases hi : i < cs.length
      · simp [hi]
      · simp [hi, Nat.le_of_not_lt hi]
    | some found =>
      obtain ⟨pre, post⟩ := found
      obtain ⟨hpre, hpost⟩ := match_at hfound
      have hwithin := match_within hsub hfound
      rw [piecesAround_some hsub hfound]
      show (splitFrom sub cs n (i + pre.length + sub.length)).map _ = _
      rw [ih (by omega), hpost, Option.map_some, hpre]
      cases pre <;> simp

theorem replaceFrom_done (hn : 0 < n) : replaceFrom sub new cs n (some 0) i = some (cs.drop i) := by
  obtain ⟨m, rfl⟩ := Nat.exists_eq_add_of_lt hn
  rw [Nat.zero_add, replaceFrom, if_pos rfl]

theorem replaceFrom_one (hn : cs.length - i + 1 < n) (hsub : sub ≠ []) :
    replaceFrom sub new cs n (some 1) i
      = some (((breakAt sub (cs.drop i)).map fun found => found.1 ++ new ++ found.2).getD
        (cs.drop i)) := by
  obtain ⟨m, rfl⟩ := Nat.exists_eq_add_of_lt (Nat.zero_lt_of_lt hn)
  rw [Nat.zero_add, replaceFrom, if_neg (by simp), searchFrom_eq hsub (by omega)]
  cases hfound : breakAt sub (cs.drop i) with
  | none => rfl
  | some found =>
    obtain ⟨pre, post⟩ := found
    obtain ⟨hpre, hpost⟩ := match_at hfound
    show (replaceFrom sub new cs m (some 0) (i + pre.length + sub.length)).map _ = _
    rw [replaceFrom_done (by omega), hpost, Option.map_some, hpre]
    rfl

theorem replaceFrom_all (hsub : sub ≠ []) (hn : cs.length - i + 1 < n) :
    replaceFrom sub new cs n none i = some (replacePoints sub new (cs.drop i)) := by
  induction n generalizing i with
  | zero => omega
  | succ n ih =>
    rw [replaceFrom, if_neg (by simp), searchFrom_eq hsub (by omega)]
    cases hfound : breakAt sub (cs.drop i) with
    | none =>
      rw [replacePoints_none hsub hfound]
      rfl
    | some found =>
      obtain ⟨pre, post⟩ := found
      obtain ⟨hpre, hpost⟩ := match_at hfound
      have hwithin := match_within hsub hfound
      show (replaceFrom sub new cs n none (i + pre.length + sub.length)).map _ = _
      rw [ih (by omega), hpost, Option.map_some, hpre, replacePoints_some hsub hfound]

/-! ### Texts -/

/-- The loops over an index end within some budget, and come to the pieces of `t`, to `t` with the
first occurrence replaced, and to `t` with all of them replaced. -/
structure LoopsEnd (t sub new : Text) (budget : Nat) : Prop where
  split : splitFrom sub.points t.points budget 0 = some ((t.split sub).map points)
  replace : replaceFrom sub.points new.points t.points budget (some 1) 0 =
    some (t.replace sub new).points
  replaceAll :
    replaceFrom sub.points new.points t.points budget none 0 = some (t.replaceAll sub new).points

variable {t u v : Text}

theorem eq_of_points (h : t.points = u.points) : t = u :=
  congrArg Text.mk h

theorem isEmpty_eq_false (hu : u.points ≠ []) : u.isEmpty = false := by
  simpa [isEmpty] using hu

theorem split_points (hu : u.points ≠ []) :
    (t.split u).map points = (piecesAround u.points t.points).filter (!·.isEmpty) := by
  rw [split, splitBy, isEmpty_eq_false hu, if_neg (by decide), splitAround, List.map_map]
  exact List.map_id _

theorem replace_points (hu : u.points ≠ []) :
    (t.replace u v).points = ((breakAt u.points t.points).map fun found =>
      found.1 ++ v.points ++ found.2).getD t.points := by
  rw [replace, isEmpty_eq_false hu, if_neg (by decide)]
  cases breakAt u.points t.points <;> rfl

theorem loopsEnd (hu : u.points ≠ []) {budget : Nat} (hbudget : t.length + 1 < budget) :
    LoopsEnd t u v budget where
  split := by rw [splitFrom_eq hu hbudget, split_points hu, List.drop_zero]
  replace := by rw [replaceFrom_one hbudget hu, replace_points hu, List.drop_zero]
  replaceAll := by rw [replaceFrom_all hu hbudget, List.drop_zero]; rfl

/-- Splitting and replacing agree on which occurrences of `u` there are: the leftmost one, and
then those of what stands behind it.  Without an occurrence a text is left as it is; otherwise one
replacement puts `v` in place of the leftmost occurrence, and replacing all goes on behind it.
The pieces of a text around `u` hold something and no occurrence of `u`, and are together what is
left when every occurrence is taken away.  As loops over an index, all of these end within a turn
for each code point and two more. -/
theorem leftmost_occurrences (t u v : Text) (hu : u.points ≠ []) :
    (¬u.points <:+: t.points → t.replace u v = t ∧ t.replaceAll u v = t) ∧
    (u.points <:+: t.points → ∃ pre post, Leftmost u.points t.points pre post) ∧
    (∀ pre post, Leftmost u.points t.points pre post →
      t.replace u v = ⟨pre ++ v.points ++ post⟩ ∧
      t.replaceAll u v = ⟨pre ++ v.points ++ ((⟨post⟩ : Text).replaceAll u v).points⟩) ∧
    (∀ piece ∈ t.split u, piece ≠ .empty ∧ ¬u.points <:+: piece.points) ∧
    concat (t.split u) = t.replaceAll u .empty ∧
    ∀ budget, t.length + 1 < budget → LoopsEnd t u v budget := by
  refine ⟨fun h => ?_, exists_leftmost, fun pre post h => ?_, fun piece hpiece => ?_, ?_,
    fun budget => loopsEnd hu⟩
  · have hnone := breakAt_eq_none_iff.mpr h
    constructor
    · exact eq_of_points (by rw [replace_points hu, hnone]; rfl)
    · exact congrArg Text.mk (replacePoints_none hu hnone)
  · have hsome := breakAt_eq_some_iff.mpr h
    constructor
    · exact eq_of_points (by rw [replace_points hu, hsome]; rfl)
    · exact congrArg Text.mk (replacePoints_some hu hsome)
  · -- a piece is one of those around all occurrences, the empty ones left out
    have hmem : piece.points ∈ (piecesAround u.points t.points).filter (!·.isEmpty) := by
      rw [← split_points hu]
      exact List.mem_map_of_mem hpiece
    obtain ⟨hmem, hfull⟩ := List.mem_filter.mp hmem
    refine ⟨?_, not_infix_of_mem_piecesAround hu _ _ hmem⟩
    rintro rfl
    cases hfull
  · apply eq_of_points
    rw [points_concat, List.flatMap_def, split_points hu, List.flatten_filter_not_isEmpty,
      flatten_piecesAround hu]
    rfl

/-- Two occurrences of `aa` overlap in `aaa`, and the replacement holds the pattern itself. -/
theorem leftmost_occurrences_overlap :
    let t : Text := ⟨[0x61, 0x61, 0x61]⟩
    let u : Text := ⟨[0x61, 0x61]⟩
    Leftmost u.points t.points [] [0x61] ∧ t.replace u t = ⟨[0x61, 0x61, 0x61, 0x61]⟩ ∧
      (∀ piece ∈ t.split u, piece ≠ .empty ∧ ¬u.points <:+: piece.points) ∧
      concat (t.split u) = ⟨[0x61]⟩ ∧ LoopsEnd t u t 5 := by
  intro t u
  obtain ⟨-, -, hfound, hpieces, hconcat, hloops⟩ := leftmost_occurrences t u t (by decide)
  have hleft : Leftmost u.points t.points [] [0x61] := ⟨rfl, fun _ _ _ => Nat.zero_le _⟩
  exact ⟨hleft, (hfound _ _ hleft).1, hpieces, hconcat.trans (by decide +kernel),
    hloops 5 (by decide)⟩

-- The loops do run out of a budget that is too small.
example : splitFrom [0x2C] [0x61, 0x2C, 0x62] 3 0 = none := by decide

end TextScript.Text
