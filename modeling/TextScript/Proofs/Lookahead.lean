/-
TextScript/Proofs/Lookahead.lean

How far the lexer looks.

Where a lexeme ends is settled by the character behind it, and in one case by two: an exclamation
mark belongs to a name unless an equals sign follows.  `Replaces r r'` says that `r'` may stand
behind a lexeme in place of `r` for all that the lexer can see of it: a blank or a line end would
end any lexeme, and otherwise the two begin alike.  A legal lexeme is then the same one
(`lexeme_replaced`).

A source is a gap, or a gap with a lexeme and a shorter source behind it (`lexeme_induction`).  A
gap only shifts the tokens behind it (`tokens_gap`), and the first token is the lexeme's
(`tokens_lexeme`), whatever may replace what is behind that (`tokens_lexeme_replaced`).
-/
import Mathlib.Data.List.Basic
import TextScript.Proofs.Layout

namespace TextScript

open Lexer

variable {limit : Int} {p : Position} {cs ds gap rest tail r r' : List Char} {c d : Char}

/-! ### What may follow -/

/-- `Replaces r r'`: behind a lexeme, `r'` looks like `r` or like something that ends every
lexeme. -/
def Replaces (r r' : List Char) : Prop :=
  r'.head? = some ' ' ∨ r'.head? = some '\n' ∨
    r'.head? = r.head? ∧ (r.take 2 = ['!', '='] → r'.take 2 = ['!', '='])

theorem replaces_blank (r rest : List Char) : Replaces r (' ' :: rest) := .inl rfl

theorem replaces_newline (r rest : List Char) : Replaces r ('\n' :: rest) := .inr (.inl rfl)

/-- What may follow the end may stand anywhere further behind. -/
theorem Replaces.append (h : Replaces [] rest) (r : List Char) : Replaces r (r ++ rest) := by
  cases r with
  | nil => exact h
  | cons d r =>
    refine .inr (.inr ⟨rfl, ?_⟩)
    cases r with
    | nil => simp
    | cons e r => simp

/-- What ends a stretch of characters in front of `r` ends it in front of `r'`. -/
theorem Replaces.stops {f : Char → Bool} (h : Replaces r r') (hblank : f ' ' = false)
    (hline : f '\n' = false) (hr : ∀ d, r.head? = some d → f d = false) :
    ∀ d, r'.head? = some d → f d = false := by
  intro d hd
  rcases h with h | h | ⟨h, -⟩
  · cases hd.symm.trans h
    exact hblank
  · cases hd.symm.trans h
    exact hline
  · exact hr d (h.symm.trans hd)

/-- What does not begin with a character of an operator still does not. -/
theorem Replaces.no_cons (h : Replaces r r') (hno : ∀ t, r = d :: t → False) (hblank : d ≠ ' ')
    (hline : d ≠ '\n') (t : List Char) : r' = d :: t → False := by
  rintro rfl
  have hne : ∀ e, r.head? = some e → (e == d) = false := by
    intro e he
    rw [beq_eq_false_iff_ne]
    rintro rfl
    obtain ⟨t, rfl⟩ := List.head?_eq_some_iff.mp he
    exact hno t rfl
  have hstop :=
    h.stops (f := (· == d)) (by simpa using hblank.symm) (by simpa using hline.symm) hne d rfl
  simp at hstop

/-- A stretch of characters of one kind, with nothing more of the kind behind it. -/
theorem takeWhile_eq_left {f : Char → Bool} :
    (cs ++ r).takeWhile f = cs ↔ (∀ d ∈ cs, f d = true) ∧ ∀ d, r.head? = some d → f d = false := by
  constructor
  · intro h
    have hcs : ∀ d ∈ cs, f d = true := by
      rw [← h, ← List.all_eq_true]
      exact List.all_takeWhile
    refine ⟨hcs, fun d hd => ?_⟩
    obtain ⟨t, rfl⟩ := List.head?_eq_some_iff.mp hd
    rw [List.takeWhile_append_of_pos hcs, List.append_right_eq_self, List.takeWhile_cons] at h
    by_contra hf
    simp [hf] at h
  · rintro ⟨hcs, hr⟩
    rw [List.takeWhile_append_of_pos hcs, List.append_right_eq_self]
    cases r with
    | nil => rfl
    | cons d r => simp [hr d rfl]

/-! ### Names and numbers -/

namespace Lexer

theorem takeWhile_replaced {f : Char → Bool} (h : Replaces r r') (hblank : f ' ' = false)
    (hline : f '\n' = false) (hcs : (cs ++ r).takeWhile f = cs) : (cs ++ r').takeWhile f = cs := by
  obtain ⟨hall, hr⟩ := takeWhile_eq_left.mp hcs
  exact takeWhile_eq_left.mpr ⟨hall, h.stops hblank hline hr⟩

theorem markSize_eq_zero_iff :
    markSize cs = 0 ↔ cs.head? ≠ some '?' ∧ (cs.head? = some '!' → cs.take 2 = ['!', '=']) := by
  fun_cases markSize cs with
  | case1 t => simp
  | case2 t => simp
  | case3 t hno =>
    have hne : t.take 1 ≠ ['='] := by
      intro ht
      cases t with
      | nil => cases ht
      | cons e t =>
        obtain ⟨rfl, -⟩ := List.cons.inj ht
        exact hno t rfl
    simp [hne]
  | case4 cs hquestion _ hbang =>
    refine ⟨fun _ => ⟨?_, ?_⟩, fun _ => rfl⟩
    · intro h
      obtain ⟨t, rfl⟩ := List.head?_eq_some_iff.mp h
      exact hquestion t rfl
    · intro h
      obtain ⟨t, rfl⟩ := List.head?_eq_some_iff.mp h
      exact (hbang t rfl).elim

theorem markSize_replaced {marks : List Char} (h : Replaces r r')
    (hmarks : markSize (marks ++ r) = marks.length) : markSize (marks ++ r') = marks.length := by
  induction marks with
  | nil =>
    obtain ⟨hquestion, hbang⟩ := markSize_eq_zero_iff.mp hmarks
    refine markSize_eq_zero_iff.mpr ⟨?_, ?_⟩
    · rcases h with h | h | ⟨h, -⟩
      · simp [h]
      · simp [h]
      · simpa [h] using hquestion
    · intro hr'
      rcases h with h | h | ⟨h, h2⟩
      · simp [h] at hr'
      · simp [h] at hr'
      · exact h2 (hbang (h.symm.trans hr'))
  | cons m marks ih =>
    generalize hcs : (m :: marks) ++ r = cs at hmarks
    revert hmarks
    fun_cases markSize cs with
    | case1 t =>
      intro hmarks
      obtain ⟨rfl, rfl⟩ := List.cons.inj hcs
      rw [List.cons_append, markSize, ih (Nat.succ.inj hmarks), List.length_cons]
    | case2 t => exact fun hmarks => by cases hmarks
    | case3 t hno =>
      intro hmarks
      obtain ⟨rfl, rfl⟩ := List.cons.inj hcs
      rw [List.cons_append, markSize, ih (Nat.succ.inj hmarks), List.length_cons]
      -- what follows is another mark, or was not an equals sign before either
      cases marks with
      | nil => exact h.no_cons hno (by decide) (by decide)
      | cons e marks =>
        exact fun t heq => hno _ (congrArg (· :: (marks ++ r)) (List.cons.inj heq).1)
    | case4 => exact fun hmarks => by cases hmarks

theorem nameSize_le (cs : List Char) : nameSize cs ≤ cs.length := by
  have hmarks : ∀ ds, markSize ds ≤ ds.length := by
    intro ds
    fun_induction markSize ds <;> simp_all
  have hbody : (cs.takeWhile isNamePart).length ≤ cs.length := (List.takeWhile_prefix _).length_le
  have hrest := hmarks (cs.drop (cs.takeWhile isNamePart).length)
  rw [List.length_drop] at hrest
  unfold nameSize
  dsimp only
  omega

/-- The body of a name and the marks behind it. -/
theorem nameSize_cut {name : List Char} (h : nameSize (name ++ r) = name.length) :
    ∃ body marks, name = body ++ marks ∧ (body ++ (marks ++ r)).takeWhile isNamePart = body ∧
      markSize (marks ++ r) = marks.length := by
  unfold nameSize at h
  have hbody := List.prefix_iff_eq_take.mp (List.takeWhile_prefix (l := name ++ r) isNamePart)
  have hle : ((name ++ r).takeWhile isNamePart).length ≤ name.length := by
    dsimp only at h
    omega
  rw [List.take_append_of_le_length hle] at hbody
  dsimp only at h
  rw [List.drop_append_of_le_length hle] at h
  generalize hsize : ((name ++ r).takeWhile isNamePart).length = size at h hbody hle
  refine ⟨name.take size, name.drop size, (List.take_append_drop _ _).symm, ?_, ?_⟩
  · rw [← List.append_assoc, List.take_append_drop]
    exact hbody
  · rw [List.length_drop]
    omega

theorem nameSize_replaced {name : List Char} (h : Replaces r r')
    (hname : nameSize (name ++ r) = name.length) : nameSize (name ++ r') = name.length := by
  obtain ⟨body, marks, rfl, hbody, hmarks⟩ := nameSize_cut hname
  have hbody' : (body ++ (marks ++ r')).takeWhile isNamePart = body := by
    cases marks with
    | nil => exact takeWhile_replaced h (by decide) (by decide) hbody
    | cons m marks =>
      obtain ⟨hall, hend⟩ := takeWhile_eq_left.mp hbody
      exact takeWhile_eq_left.mpr ⟨hall, hend⟩
  rw [nameSize, List.append_assoc, hbody']
  rw [List.drop_left, markSize_replaced h hmarks, List.length_append]

/-! ### Lexemes -/

theorem lexeme_name (limit : Int) (cs : List Char) (hc : isNameStart c = true) :
    lexeme limit c cs = ⟨.ident, nameSize (c :: cs), none⟩ := by
  unfold lexeme
  split <;> try exact absurd hc (by decide)
  exact if_pos hc

theorem lexeme_digit (limit : Int) (cs : List Char) (hname : ¬isNameStart c = true)
    (hc : isDigit c = true) :
    lexeme limit c cs = ⟨.int, ((c :: cs).takeWhile isDigit).length, none⟩ := by
  unfold lexeme
  split <;> try exact absurd hc (by decide)
  rw [if_neg hname, if_pos hc]

/-- No lexeme goes beyond its source. -/
theorem lexeme_size_le (limit : Int) (c : Char) (cs : List Char) :
    (lexeme limit c cs).size ≤ (c :: cs).length := by
  fun_cases lexeme limit c cs
  case case26 =>
    unfold textLexeme
    split
    · next n hscan =>
      obtain ⟨-, hquote⟩ := text_closed_iff.mp hscan
      obtain ⟨hlt, -⟩ := List.getElem?_eq_some_iff.mp hquote
      show n + 2 ≤ cs.length + 1
      omega
    · exact Nat.le_refl _
  case case27 => exact nameSize_le _
  case case28 => exact (List.takeWhile_prefix _).length_le
  all_goals simp

/-- A legal lexeme stays the same if what is behind it is replaced. -/
theorem lexeme_replaced (h : Replaces r r')
    (hsize : (lexeme limit c (tail ++ r)).size = tail.length + 1)
    (hlegal : (lexeme limit c (tail ++ r)).kind ≠ .illegal) :
    lexeme limit c (tail ++ r') = lexeme limit c (tail ++ r) := by
  by_cases hname : isNameStart c = true
  · rw [lexeme_name _ _ hname] at hsize ⊢
    rw [lexeme_name _ _ hname, ← List.cons_append, ← List.cons_append, nameSize_replaced h hsize]
    exact congrArg (Lexeme.mk .ident · none) hsize.symm
  by_cases hdigit : isDigit c = true
  · rw [lexeme_digit _ _ hname hdigit] at hsize ⊢
    have hdigits : ((c :: tail) ++ r).takeWhile isDigit = c :: tail := by
      have hfirst := List.prefix_iff_eq_take.mp
        (List.takeWhile_prefix (l := (c :: tail) ++ r) isDigit)
      rwa [List.cons_append, show (List.takeWhile _ _).length = (c :: tail).length from hsize,
        ← List.cons_append, List.take_left] at hfirst
    rw [lexeme_digit _ _ hname hdigit, ← List.cons_append, ← List.cons_append, hdigits,
      takeWhile_replaced h (by decide) (by decide) hdigits]
  generalize hcs : tail ++ r = cs at hsize hlegal
  revert hsize hlegal
  fun_cases lexeme limit c cs
  -- an operator that could be longer is not, since nothing new follows it
  case case6 hno | case8 hno | case13 hno =>
    intro hsize _
    obtain rfl := List.length_eq_zero_iff.mp (Nat.succ.inj hsize).symm
    subst hcs
    rw [List.nil_append, lexeme]
    exact h.no_cons hno (by decide) (by decide)
  case case4 _ hno | case11 _ hno =>
    intro hsize _
    obtain rfl := List.length_eq_zero_iff.mp (Nat.succ.inj hsize).symm
    subst hcs
    rw [List.nil_append, lexeme]
    · exact fun t => h.no_cons hno (by decide) (by decide) _
    · exact h.no_cons hno (by decide) (by decide)
  case case3 hno | case10 hno =>
    intro hsize _
    obtain ⟨x, rfl⟩ := List.length_eq_one_iff.mp (Nat.succ.inj hsize).symm
    obtain ⟨rfl, rfl⟩ := List.cons.inj hcs
    rw [List.singleton_append, lexeme]
    exact h.no_cons hno (by decide) (by decide)
  -- one that is as long as can be stays so
  case case5 | case7 | case12 | case14 | case15 =>
    intro hsize _
    obtain ⟨x, rfl⟩ := List.length_eq_one_iff.mp (Nat.succ.inj hsize).symm
    obtain ⟨rfl, -⟩ := List.cons.inj hcs
    rfl
  case case2 | case9 =>
    intro hsize _
    obtain ⟨x, y, rfl⟩ := List.length_eq_two.mp (Nat.succ.inj hsize).symm
    obtain ⟨rfl, hcs'⟩ := List.cons.inj hcs
    obtain ⟨rfl, -⟩ := List.cons.inj hcs'
    rfl
  -- a literal ends at its quote
  case case26 =>
    intro hsize hlegal
    have hk := (textLexeme_kind limit cs).resolve_right hlegal
    obtain ⟨body, more, k, rfl, hbody, hfit⟩ := textLexeme_span hk
    rw [← lexeme_quote, hbody.lexeme hfit] at hsize ⊢
    have htail : tail = body ++ ['"'] := by
      rw [List.append_cons] at hcs
      exact List.append_inj_left hcs (by simpa using (Nat.succ.inj hsize).symm)
    rw [htail, List.append_assoc, List.singleton_append, hbody.lexeme hfit]
  case case27 hc => contradiction
  case case28 hc => contradiction
  case case29 => exact fun _ hlegal => absurd rfl hlegal
  all_goals exact fun _ _ => rfl

/-! ### Gaps -/

theorem blankSize_le (inComment : Bool) (cs : List Char) : blankSize inComment cs ≤ cs.length := by
  fun_induction blankSize inComment cs <;> simp_all

theorem blankSize_newline (inComment : Bool) (rest : List Char) :
    blankSize inComment ('\n' :: rest) = 0 := by
  rw [blankSize.eq_def]
  cases inComment <;> simp

theorem blankSize_blank (hc : c = ' ' ∨ c = '\t' ∨ c = '\r') (cs : List Char) :
    blankSize false (c :: cs) = blankSize false cs + 1 := by
  rw [blankSize.eq_def]
  exact if_pos hc

theorem blankSize_comment (cs : List Char) :
    blankSize false (';' :: cs) = blankSize true cs + 1 := by
  rw [blankSize.eq_def]
  simp

theorem blankSize_continued (cs : List Char) :
    blankSize false ('\\' :: '\n' :: cs) = blankSize false cs + 2 := by
  rw [blankSize]
  simp

/-- What is neither a blank nor the start of a comment or of a continued line is not skipped. -/
theorem blankSize_other (hblank : ¬(c = ' ' ∨ c = '\t' ∨ c = '\r')) (hcomment : c ≠ ';')
    (hcont : c = '\\' → ∀ ds, cs ≠ '\n' :: ds) : blankSize false (c :: cs) = 0 := by
  rw [blankSize.eq_def]
  dsimp only
  rw [if_neg hblank, if_neg hcomment]
  split
  · next hc =>
    split
    · next ds => exact absurd rfl (hcont hc ds)
    · rfl
  · rfl

theorem blankSize_comment_body (h : '\n' ∉ gap) (hrest : rest = [] ∨ ∃ more, rest = '\n' :: more) :
    blankSize true (gap ++ rest) = gap.length := by
  induction gap with
  | nil =>
    rcases hrest with rfl | ⟨more, rfl⟩
    · rfl
    · exact blankSize_newline true more
  | cons c gap ih =>
    rw [List.mem_cons, not_or] at h
    rw [List.cons_append, blankSize, if_neg (Ne.symm h.1), ih h.2, List.length_cons]

/-- A gap is skipped in front of all that begins as it did. -/
theorem blankSize_gap (h : Gap gap r) (rest : List Char) (hr : rest.head? = r.head?) :
    blankSize false (gap ++ rest) = gap.length + blankSize false rest := by
  induction h with
  | none => simp
  | blank hc _ ih =>
    rw [List.cons_append, blankSize_blank hc, ih hr, List.length_cons]
    omega
  | continued _ ih =>
    rw [List.cons_append, List.cons_append, blankSize_continued, ih hr, List.length_cons,
      List.length_cons]
    omega
  | comment hline hend =>
    have hend' : rest = [] ∨ ∃ more, rest = '\n' :: more := by
      rcases hend with rfl | ⟨more, rfl⟩
      · exact .inl (List.head?_eq_none_iff.mp hr)
      · exact .inr (List.head?_eq_some_iff.mp hr)
    have hzero : blankSize false rest = 0 := by
      rcases hend' with rfl | ⟨more, rfl⟩
      · rfl
      · exact blankSize_newline false more
    rw [List.cons_append, blankSize_comment, blankSize_comment_body hline hend', hzero,
      List.length_cons]

/-- What begins a legal lexeme is not skipped. -/
theorem blankSize_of_legal (h : (lexeme limit c cs).kind ≠ .illegal) (ds : List Char) :
    blankSize false (c :: ds) = 0 := by
  refine blankSize_other ?_ ?_ ?_
  · rintro (rfl | rfl | rfl) <;> exact h rfl
  · rintro rfl
    exact h rfl
  · rintro rfl
    exact absurd rfl h

theorem gap_of_blankSize (h : blankSize false (gap ++ rest) = gap.length) : Gap gap rest := by
  have hgap := blank_gap (gap ++ rest)
  rwa [h, List.take_left, List.drop_left] at hgap

/-! ### Tokens -/

/-- A source is a gap with nothing behind it, or a gap, a lexeme, and a shorter source. -/
@[elab_as_elim] theorem lexeme_induction (limit : Int) {P : List Char → Prop}
    (done : ∀ gap, Gap gap [] → P gap)
    (next : ∀ gap c tail r, blankSize false (gap ++ c :: (tail ++ r)) = gap.length →
      (lexeme limit c (tail ++ r)).size = tail.length + 1 → P r → P (gap ++ c :: (tail ++ r)))
    (src : List Char) : P src := by
  induction src using source_induction limit with
  | done src hs =>
    have hall := Nat.le_antisymm (blankSize_le false src) (List.drop_eq_nil_iff.mp hs)
    exact done _ (gap_of_blankSize (by rw [List.append_nil, hall]))
  | next src c cs hs ih =>
    have hcut := List.take_append_drop (blankSize false src) src
    have hblank : blankSize false src = (src.take (blankSize false src)).length :=
      (List.length_take_of_le (blankSize_le false src)).symm
    obtain ⟨size, hsize⟩ := Nat.exists_eq_add_one.mpr (lexeme_size_pos limit c cs)
    have hle := lexeme_size_le limit c cs
    rw [hsize, List.length_cons] at hle
    rw [hsize, List.drop_succ_cons] at ih
    rw [hs] at hcut
    rw [← List.take_append_drop size cs] at hcut hsize
    generalize src.take (blankSize false src) = gap at hcut hblank
    rw [← hcut] at hblank ⊢
    refine next gap c _ _ hblank ?_ ih
    rw [hsize, List.length_take_of_le (Nat.le_of_succ_le_succ hle)]

/-- A gap in front of a source only shifts its tokens. -/
theorem tokens_gap (h : Gap gap rest) (p : Position) :
    tokens limit p (gap ++ rest) = tokens limit (p.advance gap) rest := by
  have hblank := blankSize_gap h rest rfl
  have hdrop : (gap ++ rest).drop (blankSize false (gap ++ rest)) =
      rest.drop (blankSize false rest) := by
    rw [hblank, List.drop_length_add_append]
  have htake : (gap ++ rest).take (blankSize false (gap ++ rest))
      = gap ++ rest.take (blankSize false rest) := by
    rw [hblank, List.take_length_add_append]
  cases hs : rest.drop (blankSize false rest) with
  | nil => rw [tokens_end (hdrop.trans hs), tokens_end hs, htake, Position.advance_append]
  | cons c cs => rw [tokens_next (hdrop.trans hs), tokens_next hs, htake, Position.advance_append]

theorem tokens_gap_end (h : Gap gap []) (p : Position) :
    tokens limit p gap = [{ kind := .eof, place := p.advance gap }] := by
  rw [← List.append_nil gap, tokens_gap h, tokens_end rfl, List.append_nil]
  rfl

/-- A gap, a lexeme and the rest make up a source, and so do their places. -/
theorem advance_lexeme (p : Position) (gap : List Char) (c : Char) (tail r : List Char) :
    p.advance (gap ++ c :: (tail ++ r)) = ((p.advance gap).advance (c :: tail)).advance r := by
  rw [← List.cons_append, Position.advance_append, Position.advance_append]

theorem take_lexeme (hsize : (lexeme limit c (tail ++ r)).size = tail.length + 1) :
    (c :: (tail ++ r)).take (lexeme limit c (tail ++ r)).size = c :: tail := by
  rw [hsize, ← List.cons_append, ← List.length_cons, List.take_left]

theorem drop_lexeme (hsize : (lexeme limit c (tail ++ r)).size = tail.length + 1) :
    (c :: (tail ++ r)).drop (lexeme limit c (tail ++ r)).size = r := by
  rw [hsize, ← List.cons_append, ← List.length_cons, List.drop_left]

/-- The first token of a source. -/
theorem tokens_lexeme (hblank : blankSize false (gap ++ c :: (tail ++ r)) = gap.length)
    (hsize : (lexeme limit c (tail ++ r)).size = tail.length + 1) (p : Position) :
    tokens limit p (gap ++ c :: (tail ++ r)) =
      token limit (lexeme limit c (tail ++ r)) (c :: tail) (p.advance gap) ::
        tokens limit ((p.advance gap).advance (c :: tail)) r := by
  have hdrop : (gap ++ c :: (tail ++ r)).drop (blankSize false (gap ++ c :: (tail ++ r)))
      = c :: (tail ++ r) := by
    rw [hblank, List.drop_left]
  rw [tokens_next hdrop, hblank, List.take_left, take_lexeme hsize, drop_lexeme hsize]

/-- The first token of a source, if it is legal, stays the same if what is behind it is replaced. -/
theorem tokens_lexeme_replaced (hblank : blankSize false (gap ++ c :: (tail ++ r)) = gap.length)
    (hsize : (lexeme limit c (tail ++ r)).size = tail.length + 1)
    (hlegal : (lexeme limit c (tail ++ r)).kind ≠ .illegal) (h : Replaces r r') (p : Position) :
    tokens limit p (gap ++ c :: (tail ++ r')) =
      token limit (lexeme limit c (tail ++ r)) (c :: tail) (p.advance gap) ::
        tokens limit ((p.advance gap).advance (c :: tail)) r' := by
  have hsame := lexeme_replaced h hsize hlegal
  have hblank' : blankSize false (gap ++ c :: (tail ++ r')) = gap.length := by
    rw [blankSize_gap (gap_of_blankSize hblank) (c :: (tail ++ r')) rfl, blankSize_of_legal hlegal,
      Nat.add_zero]
  rw [tokens_lexeme hblank' (by rw [hsame, hsize]), hsame]

end Lexer

end TextScript
