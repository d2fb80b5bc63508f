/-
TextScript/Proofs/Words.lean

White space around a text and between its words.

Which code points count as white space is a parameter throughout.  A text is a gap, or a gap and a
last word, or a gap, a word, a blank and another text; `Separated` is this reading of a text, the
words are exactly its words (`wordsOf_eq_iff`), and what holds of them is proved along it.  What
trimming leaves is pinned down in the same way, by what stands around it and what it begins and
ends with (`trimBy_eq_iff`).

Both are compared with loops over an index.  The slice that two converging indices enclose is what
trimming leaves, since what each index has passed over is a gap and it stops before something
else.  The splitting loop keeps the index at which a word began; what lies between that index and
the current one is the part of the word that has been seen, and is put in front of what is still
to come.
-/
import Mathlib.Data.List.TakeWhile
import TextScript.Proofs.Occurrences

namespace TextScript.Text

variable {blank : Int → Bool} {cs gap front back word rest : List Int} {ws : List (List Int)}
variable {c : Int}
variable {t u : Text}

/-! ### Gaps and words -/

/-- White space only. -/
def IsGap (blank : Int → Bool) (cs : List Int) : Prop :=
  ∀ c ∈ cs, blank c = true

/-- Something, and no white space. -/
def IsWord (blank : Int → Bool) (cs : List Int) : Prop :=
  cs ≠ [] ∧ ∀ c ∈ cs, blank c = false

theorem isGap_nil : IsGap blank [] := List.forall_mem_nil _

theorem IsWord.cons (hc : blank c = false) (h : IsWord blank word) : IsWord blank (c :: word) :=
  ⟨List.cons_ne_nil _ _, List.forall_mem_cons.mpr ⟨hc, h.2⟩⟩

theorem isWord_singleton (hc : blank c = false) : IsWord blank [c] :=
  ⟨List.cons_ne_nil _ _, List.forall_mem_singleton.mpr hc⟩

/-- `Separated blank cs ws`: the words of `cs`, from the left, are `ws`. -/
inductive Separated (blank : Int → Bool) : List Int → List (List Int) → Prop
  | gap {gap : List Int} : IsGap blank gap → Separated blank gap []
  | last {gap word : List Int} : IsGap blank gap → IsWord blank word →
      Separated blank (gap ++ word) [word]
  | more {gap word rest : List Int} {b : Int} {ws : List (List Int)} :
      IsGap blank gap → IsWord blank word → blank b = true → Separated blank rest ws →
      Separated blank (gap ++ (word ++ b :: rest)) (word :: ws)

theorem Separated.isWord (h : Separated blank cs ws) : ∀ w ∈ ws, IsWord blank w := by
  induction h with
  | gap => exact List.forall_mem_nil _
  | last _ hword => exact List.forall_mem_singleton.mpr hword
  | more _ hword _ _ ih => exact List.forall_mem_cons.mpr ⟨hword, ih⟩

/-- More white space in front changes no word. -/
theorem Separated.behind (h : Separated blank cs ws) (hfront : IsGap blank front) :
    Separated blank (front ++ cs) ws := by
  have hgap {gap : List Int} (h : IsGap blank gap) : IsGap blank (front ++ gap) :=
    List.forall_mem_append.mpr ⟨hfront, h⟩
  cases h with
  | gap h => exact .gap (hgap h)
  | last h hword =>
    rw [← List.append_assoc]
    exact .last (hgap h) hword
  | more h hword hb hrest =>
    rw [← List.append_assoc]
    exact .more (hgap h) hword hb hrest

/-- More white space at the end changes no word. -/
theorem Separated.before (h : Separated blank cs ws) (hback : IsGap blank back) :
    Separated blank (cs ++ back) ws := by
  induction h with
  | gap h => exact .gap (List.forall_mem_append.mpr ⟨h, hback⟩)
  | @last gap word h hword =>
    cases back with
    | nil =>
      rw [List.append_nil]
      exact .last h hword
    | cons b back =>
      obtain ⟨hb, hrest⟩ := List.forall_mem_cons.mp hback
      rw [List.append_assoc]
      exact .more h hword hb (.gap hrest)
  | more h hword hb _ ih =>
    rw [List.append_assoc, List.append_assoc, List.cons_append]
    exact .more h hword hb ih

/-! ### The words of a text -/

theorem wordsOf_blank (hc : blank c = true) (cs : List Int) :
    wordsOf blank (c :: cs) = wordsOf blank cs := by
  rw [wordsOf.eq_def]
  exact if_pos hc

theorem wordsOf_end (hc : blank c = false) (hrest : ∀ d ∈ rest.head?, blank d = true) :
    wordsOf blank (c :: rest) = [c] :: wordsOf blank rest := by
  cases rest with
  | nil => simp [wordsOf, hc]
  | cons d rest => simp [wordsOf, hc, hrest d rfl]

theorem wordsOf_next {d : Int} (hc : blank c = false) (hd : blank d = false) (cs : List Int) :
    wordsOf blank (c :: d :: cs) = (wordsOf blank (d :: cs)).modifyHead (c :: ·) := by
  simp [wordsOf, hc, hd]

theorem wordsOf_gap (h : IsGap blank gap) (cs : List Int) :
    wordsOf blank (gap ++ cs) = wordsOf blank cs := by
  induction gap with
  | nil => rfl
  | cons c gap ih =>
    obtain ⟨hc, hgap⟩ := List.forall_mem_cons.mp h
    rw [List.cons_append, wordsOf_blank hc, ih hgap]

/-- A word that ends where a gap begins, or with the text, is the first one. -/
theorem wordsOf_word (h : IsWord blank word) (hrest : ∀ d ∈ rest.head?, blank d = true) :
    wordsOf blank (word ++ rest) = word :: wordsOf blank rest := by
  obtain ⟨hne, hall⟩ := h
  induction word with
  | nil => exact absurd rfl hne
  | cons c word ih =>
    obtain ⟨hc, hword⟩ := List.forall_mem_cons.mp hall
    cases word with
    | nil => exact wordsOf_end hc hrest
    | cons d word =>
      have htail := ih (List.cons_ne_nil _ _) hword
      rw [List.cons_append] at htail
      rw [List.cons_append, List.cons_append, wordsOf_next hc (hword d List.mem_cons_self), htail]
      rfl

theorem wordsOf_of_isWord (h : IsWord blank word) : wordsOf blank word = [word] := by
  have hword : wordsOf blank (word ++ []) = word :: wordsOf blank [] := wordsOf_word h nofun
  rwa [List.append_nil] at hword

theorem Separated.wordsOf_eq (h : Separated blank cs ws) : wordsOf blank cs = ws := by
  induction h with
  | gap h =>
    have hnil := wordsOf_gap h []
    rwa [List.append_nil] at hnil
  | last h hword => rw [wordsOf_gap h, wordsOf_of_isWord hword]
  | more h hword hb _ ih =>
    rw [wordsOf_gap h, wordsOf_word hword (by simpa using hb), wordsOf_blank hb, ih]

/-- Every text is separated into words in some way. -/
theorem exists_separated (blank : Int → Bool) (cs : List Int) : ∃ ws, Separated blank cs ws := by
  induction cs with
  | nil => exact ⟨[], .gap isGap_nil⟩
  | cons c cs ih =>
    obtain ⟨ws, h⟩ := ih
    cases hc : blank c with
    | true =>
      have hfront : IsGap blank [c] := List.forall_mem_singleton.mpr hc
      exact ⟨ws, h.behind hfront⟩
    | false =>
      -- the code point begins a word of its own, or the one that it stands before
      have hlone : IsWord blank [c] := isWord_singleton hc
      cases h with
      | gap h =>
        cases cs with
        | nil => exact ⟨[[c]], .last isGap_nil hlone⟩
        | cons b gap =>
          obtain ⟨hb, hgap⟩ := List.forall_mem_cons.mp h
          exact ⟨[[c]], .more isGap_nil hlone hb (.gap hgap)⟩
      | @last gap word h hword =>
        cases gap with
        | nil => exact ⟨[c :: word], .last isGap_nil (hword.cons hc)⟩
        | cons b gap =>
          obtain ⟨hb, hgap⟩ := List.forall_mem_cons.mp h
          exact ⟨[[c], word], .more isGap_nil hlone hb (.last hgap hword)⟩
      | @more gap word rest d ws h hword hd hrest =>
        cases gap with
        | nil => exact ⟨(c :: word) :: ws, .more isGap_nil (hword.cons hc) hd hrest⟩
        | cons b gap =>
          obtain ⟨hb, hgap⟩ := List.forall_mem_cons.mp h
          exact ⟨[c] :: word :: ws, .more isGap_nil hlone hb (.more hgap hword hd hrest)⟩

theorem wordsOf_eq_iff : wordsOf blank cs = ws ↔ Separated blank cs ws := by
  refine ⟨?_, Separated.wordsOf_eq⟩
  rintro rfl
  obtain ⟨ws, h⟩ := exists_separated blank cs
  rwa [h.wordsOf_eq]

/-- What is left of a text without its white space is its words. -/
theorem Separated.flatten (h : Separated blank cs ws) : ws.flatten = cs.filter (!blank ·) := by
  have hgap {gap : List Int} (h : IsGap blank gap) : gap.filter (!blank ·) = [] := by
    rw [List.filter_eq_nil_iff]
    simpa [IsGap] using h
  have hword {word : List Int} (h : IsWord blank word) : word.filter (!blank ·) = word := by
    rw [List.filter_eq_self]
    simpa using h.2
  induction h with
  | gap h => exact (hgap h).symm
  | last h hw => rw [List.filter_append, hgap h, hword hw, List.flatten_singleton, List.nil_append]
  | more h hw hb _ ih =>
    rw [List.flatten_cons, ih, List.filter_append, List.filter_append, hgap h, hword hw,
      List.filter_cons]
    simp [hb]

/-- Words with one blank between them are separated into themselves. -/
theorem separated_intercalate (hc : blank c = true) (h : ∀ w ∈ ws, IsWord blank w) :
    Separated blank ([c].intercalate ws) ws := by
  induction ws with
  | nil => exact .gap isGap_nil
  | cons w ws ih =>
    obtain ⟨hw, hws⟩ := List.forall_mem_cons.mp h
    cases ws with
    | nil =>
      rw [List.intercalate_singleton]
      exact (Separated.last isGap_nil hw :)
    | cons v ws =>
      rw [List.intercalate_cons_cons, List.append_assoc]
      exact (Separated.more isGap_nil hw hc (ih hws) :)

/-! ### What trimming leaves -/

/-- `u` is what the white space at both ends of `t` stands around. -/
structure Trimmed (blank : Int → Bool) (t u : Text) : Prop where
  around : ∃ front back, t.points = front ++ (u.points ++ back) ∧
    IsGap blank front ∧ IsGap blank back
  first : ∀ c ∈ u.points.head?, blank c = false
  last : ∀ c ∈ u.points.getLast?, blank c = false

theorem dropWhile_of_head? (h : ∀ c ∈ cs.head?, blank c = false) : cs.dropWhile blank = cs := by
  cases cs with
  | nil => rfl
  | cons c cs => simp [h c rfl]

theorem head?_dropWhile (cs : List Int) : ∀ c ∈ (cs.dropWhile blank).head?, blank c = false := by
  intro c hc
  have hnot := List.head?_dropWhile_not blank cs
  rwa [Option.mem_def.mp hc] at hnot

theorem isGap_takeWhile (cs : List Int) : IsGap blank (cs.takeWhile blank) :=
  fun _ hc => List.mem_takeWhile_imp hc

theorem isGap_reverse : IsGap blank gap.reverse ↔ IsGap blank gap := by
  simp [IsGap]

theorem Trimmed.trimBy_eq (h : Trimmed blank t u) : t.trimBy blank = u := by
  obtain ⟨front, back, haround, hfront, hback⟩ := h.around
  refine eq_of_points ?_
  show ((t.points.dropWhile blank).reverse.dropWhile blank).reverse = u.points
  rw [haround, List.dropWhile_append_of_pos hfront]
  cases hu : u.points with
  | nil =>
    have hnil : back.dropWhile blank = [] := List.dropWhile_eq_nil_iff.mpr hback
    rw [List.nil_append, hnil]
    rfl
  | cons c cs =>
    have hhead : ∀ d ∈ (u.points ++ back).head?, blank d = false := by
      intro d hd
      exact h.first d (by simpa [hu] using hd)
    have hlast : ∀ d ∈ u.points.reverse.head?, blank d = false := by
      rw [List.head?_reverse]
      exact h.last
    rw [← hu, dropWhile_of_head? hhead, List.reverse_append,
      List.dropWhile_append_of_pos (isGap_reverse.mpr hback), dropWhile_of_head? hlast,
      List.reverse_reverse]

theorem exists_trimmed (blank : Int → Bool) (t : Text) : ∃ u, Trimmed blank t u := by
  -- the gap in front is taken off first, then the one at the end of what is left
  let front := t.points.takeWhile blank
  let rest := t.points.dropWhile blank
  let back := (rest.reverse.takeWhile blank).reverse
  let mid := (rest.reverse.dropWhile blank).reverse
  have hrest : rest = mid ++ back := by
    rw [← List.reverse_append, List.takeWhile_append_dropWhile, List.reverse_reverse]
  refine ⟨⟨mid⟩,
    ⟨front, back, ?_, isGap_takeWhile _, isGap_reverse.mpr (isGap_takeWhile _)⟩, ?_, ?_⟩
  · rw [← hrest, List.takeWhile_append_dropWhile]
  · intro c hc
    have hhead : c ∈ rest.head? := by
      rw [hrest, List.head?_append, Option.mem_def.mp hc]
      rfl
    exact head?_dropWhile _ c hhead
  · rw [List.getLast?_reverse]
    exact head?_dropWhile _

theorem trimBy_eq_iff : t.trimBy blank = u ↔ Trimmed blank t u := by
  refine ⟨?_, Trimmed.trimBy_eq⟩
  rintro rfl
  obtain ⟨u, h⟩ := exists_trimmed blank t
  rwa [h.trimBy_eq]

theorem Trimmed.wordsOf_eq (h : Trimmed blank t u) :
    wordsOf blank t.points = wordsOf blank u.points := by
  obtain ⟨front, back, haround, hfront, hback⟩ := h.around
  rw [haround]
  exact (((wordsOf_eq_iff.mp rfl).before hback).behind hfront).wordsOf_eq

/-! ### The loops over an index -/

/-- Moves an index up past white space, no further than `stop`. -/
def skipUp (blank : Int → Bool) (cs : List Int) (stop start : Nat) : Nat :=
  if start < stop ∧ cs[start]?.any blank then skipUp blank cs stop (start + 1) else start
termination_by stop - start
decreasing_by omega

/-- Moves an index down past white space, no further than `start`. -/
def skipDown (blank : Int → Bool) (cs : List Int) (start : Nat) : (stop : Nat) → Nat
  | 0 => 0
  | stop + 1 =>
    if start < stop + 1 ∧ cs[stop]?.any blank then skipDown blank cs start stop else stop + 1

/-- What lies between the two indices, the lower of which is moved first. -/
def enclosed (blank : Int → Bool) (cs : List Int) : List Int :=
  let start := skipUp blank cs cs.length 0
  (cs.take (skipDown blank cs start cs.length)).drop start

/-- Collects the words from the code point at index `i` on; `start` is where the word began that
has not ended yet. -/
def wordsFrom (blank : Int → Bool) (cs : List Int) : (start : Option Nat) → (i : Nat) → List Int →
    List (List Int)
  | some k, _, [] => [cs.drop k]
  | none, _, [] => []
  | start, i, c :: rest =>
    if blank c then
      match start with
      | some k => (cs.take i).drop k :: wordsFrom blank cs none (i + 1) rest
      | none => wordsFrom blank cs none (i + 1) rest
    else wordsFrom blank cs (some (start.getD i)) (i + 1) rest

/-- From index `i` up to index `j` there is nothing but white space. -/
def Passed (blank : Int → Bool) (cs : List Int) (i j : Nat) : Prop :=
  ∀ k c, i ≤ k → k < j → cs[k]? = some c → blank c = true

variable {start stop : Nat}

theorem Passed.take (h : Passed blank cs 0 stop) : IsGap blank (cs.take stop) := by
  intro c hc
  obtain ⟨k, hk, hget⟩ := List.mem_take_iff_getElem.mp hc
  exact h k c (Nat.zero_le k) (by omega) (hget ▸ List.getElem?_eq_getElem _)

theorem Passed.drop (h : Passed blank cs start cs.length) : IsGap blank (cs.drop start) := by
  intro c hc
  obtain ⟨k, hk, hget⟩ := List.mem_drop_iff_getElem.mp hc
  exact h (start + k) c (Nat.le_add_right _ _) (by omega) (hget ▸ List.getElem?_eq_getElem _)

/-- The lower index passes over white space only, and stops before something else. -/
theorem skipUp_passed (blank : Int → Bool) (cs : List Int) (hle : start ≤ stop) :
    Passed blank cs start (skipUp blank cs stop start) ∧ skipUp blank cs stop start ≤ stop ∧
      (skipUp blank cs stop start < stop →
        ∀ c ∈ cs[skipUp blank cs stop start]?, blank c = false) := by
  fun_induction skipUp blank cs stop start with
  | case1 start h ih =>
    obtain ⟨hlt, hblank⟩ := h
    obtain ⟨hpassed, hbound, hstops⟩ := ih hlt
    refine ⟨fun k c hk hup hc => ?_, hbound, hstops⟩
    rcases Nat.eq_or_lt_of_le hk with rfl | hk
    · rw [hc] at hblank
      exact hblank
    · exact hpassed k c hk hup hc
  | case2 start h =>
    refine ⟨fun k c hk hup _ => by omega, hle, fun hlt c hc => ?_⟩
    by_contra hblank
    exact h ⟨hlt, by rw [Option.mem_def.mp hc]; simpa using hblank⟩

/-- The upper index does the same from above. -/
theorem skipDown_passed (blank : Int → Bool) (cs : List Int) (hle : start ≤ stop) :
    Passed blank cs (skipDown blank cs start stop) stop ∧ skipDown blank cs start stop ≤ stop ∧
      start ≤ skipDown blank cs start stop ∧
      (start < skipDown blank cs start stop → ∀ c ∈ cs[skipDown blank cs start stop - 1]?,
        blank c = false) := by
  fun_induction skipDown blank cs start stop with
  | case1 => exact ⟨fun k c hk hup _ => by omega, Nat.le_refl 0, hle, fun hlt => by omega⟩
  | case2 stop h ih =>
    obtain ⟨hlt, hblank⟩ := h
    obtain ⟨hpassed, hbound, hmeet, hstops⟩ := ih (by omega)
    refine ⟨fun k c hk hup hc => ?_, by omega, hmeet, hstops⟩
    rcases Nat.eq_or_lt_of_le (Nat.le_of_lt_succ hup) with rfl | hup
    · rw [hc] at hblank
      exact hblank
    · exact hpassed k c hk hup hc
  | case3 stop h =>
    refine ⟨fun k c hk hup _ => by omega, Nat.le_refl _, hle, fun hlt c hc => ?_⟩
    by_contra hblank
    refine h ⟨hlt, ?_⟩
    rw [← Nat.add_sub_cancel (n := stop) (m := 1), Option.mem_def.mp hc]
    simpa using hblank

/-- The two indices enclose what trimming leaves. -/
theorem trimmed_enclosed (blank : Int → Bool) (t : Text) :
    Trimmed blank t ⟨enclosed blank t.points⟩ := by
  let cs := t.points
  obtain ⟨hup, hupper, hfirst⟩ := skipUp_passed blank cs (Nat.zero_le cs.length)
  obtain ⟨hdown, hlower, hmeet, hlast⟩ := skipDown_passed blank cs hupper
  rw [enclosed]
  generalize skipUp blank cs cs.length 0 = i at *
  generalize skipDown blank cs i cs.length = j at *
  -- in front of `i` and from `j` on all is blank, and neither end of what lies between is
  refine ⟨⟨cs.take i, cs.drop j, ?_, hup.take, hdown.drop⟩, fun c hc => ?_, fun c hc => ?_⟩
  · have hfront : cs.take i = (cs.take j).take i := by rw [List.take_take, Nat.min_eq_left hmeet]
    rw [hfront, ← List.append_assoc, List.take_append_drop, List.take_append_drop]
  · have hget : (if i < j then cs[i]? else none) = some c := by
      rw [← List.getElem?_take, ← List.head?_drop]
      exact hc
    split at hget
    · next hlt => exact hfirst (by omega) c hget
    · cases hget
  · change ((cs.take j).drop i).getLast? = some c at hc
    rw [List.getLast?_drop, List.length_take] at hc
    split at hc
    · cases hc
    · next hlt =>
      have hin : j - 1 < cs.length := by omega
      rw [List.getLast?_take, if_neg (by omega), List.getElem?_eq_getElem hin, Option.some_or] at hc
      exact hlast (by omega) c (by rw [List.getElem?_eq_getElem hin]; exact hc)

/-- The part of a word that lies behind its start is put in front of what is still to come. -/
theorem wordsFrom_eq {pre : List Int} (hcs : cs = pre ++ rest) :
    wordsFrom blank cs none pre.length rest = wordsOf blank rest ∧
      ∀ k, IsWord blank (pre.drop k) →
        wordsFrom blank cs (some k) pre.length rest = wordsOf blank (pre.drop k ++ rest) := by
  induction rest generalizing pre with
  | nil =>
    refine ⟨by simp [wordsFrom, wordsOf], fun k hword => ?_⟩
    rw [wordsFrom, hcs, List.append_nil, List.append_nil, wordsOf_of_isWord hword]
  | cons c rest ih =>
    have hlen : (pre ++ [c]).length = pre.length + 1 := List.length_append
    have hcs' : cs = (pre ++ [c]) ++ rest := hcs.trans (List.append_cons pre c rest)
    obtain ⟨hnone, hsome⟩ := ih hcs'
    rw [hlen] at hnone hsome
    cases hc : blank c with
    | true =>
      refine ⟨?_, fun k hword => ?_⟩
      · rw [wordsFrom, if_pos hc, hnone, wordsOf_blank hc]
      · rw [wordsFrom, if_pos hc, hnone, wordsOf_word hword (by simpa using hc),
          wordsOf_blank hc, hcs, List.take_left]
    | false =>
      have hopen : ¬blank c = true := by rw [hc]; exact Bool.false_ne_true
      refine ⟨?_, fun k hword => ?_⟩
      · -- the word begins here
        have hdrop : (pre ++ [c]).drop pre.length = [c] := List.drop_left
        have hstart := hsome pre.length (by rw [hdrop]; exact isWord_singleton hc)
        rw [wordsFrom, if_neg hopen, Option.getD_none, hstart, hdrop]
        rfl
      · have hk : k ≤ pre.length := by
          have hpos := List.length_pos_iff.mpr hword.1
          rw [List.length_drop] at hpos
          omega
        have hdrop : (pre ++ [c]).drop k = pre.drop k ++ [c] := List.drop_append_of_le_length hk
        have hlonger : IsWord blank (pre.drop k ++ [c]) :=
          ⟨by simp, List.forall_mem_append.mpr ⟨hword.2, List.forall_mem_singleton.mpr hc⟩⟩
        have hgrown := hsome k (by rw [hdrop]; exact hlonger)
        rw [wordsFrom, if_neg hopen, Option.getD_some, hgrown, hdrop, List.append_assoc]
        rfl

/-! ### Texts -/

/-- Texts with one of them between each two of the others. -/
def joined (sep : Text) (ts : List Text) : Text :=
  ⟨sep.points.intercalate (ts.map points)⟩

theorem splitBy_empty (blank : Int → Bool) (t : Text) :
    t.splitBy blank .empty = (wordsOf blank t.points).map Text.mk := rfl

theorem splitBy_empty_points (blank : Int → Bool) (t : Text) :
    (t.splitBy blank .empty).map points = wordsOf blank t.points := by
  rw [splitBy_empty, List.map_map]
  exact List.map_id _

/-- Whatever counts as white space, trimming and splitting agree on it, if only the space does.  A
text is white space, what trimming leaves, and white space, and what is left is empty or begins
and ends with something else.  A text and its trimmed form are split into the same pieces, which
are its words from the left: they are not empty and hold no white space, they are together the
text without its white space, and joined with single spaces they are split into themselves.  The
loops over an index come to the same. -/
theorem words_and_margins (hspace : blank (pointOf ' ') = true) (t : Text) :
    Trimmed blank t (t.trimBy blank) ∧
    (t.trimBy blank).splitBy blank .empty = t.splitBy blank .empty ∧
    Separated blank t.points ((t.splitBy blank .empty).map points) ∧
    (∀ piece ∈ t.splitBy blank .empty, piece ≠ .empty ∧ ∀ c ∈ piece.points, blank c = false) ∧
    concat (t.splitBy blank .empty) = ⟨t.points.filter (!blank ·)⟩ ∧
    (joined (.ofString " ") (t.splitBy blank .empty)).splitBy blank .empty =
      t.splitBy blank .empty ∧
    enclosed blank t.points = (t.trimBy blank).points ∧
    wordsFrom blank t.points none 0 t.points = (t.splitBy blank .empty).map points := by
  have htrimmed : Trimmed blank t (t.trimBy blank) := trimBy_eq_iff.mp rfl
  have hwords : Separated blank t.points (wordsOf blank t.points) := wordsOf_eq_iff.mp rfl
  have hjoined : Separated blank ([pointOf ' '].intercalate (wordsOf blank t.points))
      (wordsOf blank t.points) := separated_intercalate hspace hwords.isWord
  rw [splitBy_empty_points]
  refine ⟨htrimmed, ?_, hwords, ?_, ?_, ?_, ?_, (wordsFrom_eq (List.nil_append _).symm).1⟩
  · rw [splitBy_empty, splitBy_empty, htrimmed.wordsOf_eq]
  · intro piece hpiece
    obtain ⟨word, hword, rfl⟩ := List.mem_map.mp hpiece
    obtain ⟨hne, hall⟩ := hwords.isWord word hword
    exact ⟨fun h => hne (congrArg points h), hall⟩
  · refine eq_of_points ?_
    rw [points_concat, List.flatMap_def, splitBy_empty_points]
    exact hwords.flatten
  · rw [splitBy_empty, joined, splitBy_empty_points]
    exact congrArg (List.map Text.mk) hjoined.wordsOf_eq
  · exact congrArg points (trimmed_enclosed blank t).trimBy_eq.symm

/-- White space in front, in the middle and at the end, a wide space among it. -/
theorem words_and_margins_wide :
    let t : Text := .ofString " \t ab\u3000 c\n"
    Unicode.isBlank (pointOf ' ') = true ∧ t.trim = .ofString "ab\u3000 c" ∧
      Trimmed Unicode.isBlank t t.trim ∧ t.split .empty = [.ofString "ab", .ofString "c"] ∧
      t.trim.split .empty = t.split .empty ∧
      (joined (.ofString " ") (t.split .empty)).split .empty = t.split .empty := by
  intro t
  have hspace : Unicode.isBlank (pointOf ' ') = true := by decide
  obtain ⟨htrimmed, hsplit, -, -, -, hjoined, -⟩ := words_and_margins hspace t
  exact ⟨hspace, by decide, htrimmed, by decide, hsplit, hjoined⟩

end TextScript.Text
