/-
TextScript/Proofs/Literals.lean

Reading a literal follows the split of its body into segments and codes.

The reader of parts is given once as an equation for each case of the split: a last segment, a block
whose code fits the limit, and one whose code does not.  Everything about literals is then an
induction on the split, without a look at the scanner.
-/
import TextScript.Literal.Interpolation
import TextScript.Proofs.Balance

namespace TextScript

open Interpolation

/-! ### Results without events -/

namespace Traced

variable {α β : Type}

theorem result_andThen (x : Traced α) (f : α → Traced β) :
    (x.andThen f).result = x.result.bind fun a => (f a).result :=
  result_bind x f

end Traced

theorem bind_eq_error {α β : Type} {x : Except Failure α} {g : α → Except Failure β} {f : Failure} :
    x.bind g = .error f ↔ x = .error f ∨ ∃ a, x = .ok a ∧ g a = .error f := by
  cases x <;> simp [Except.bind]

theorem bind_eq_ok {α β : Type} {x : Except Failure α} {g : α → Except Failure β} {b : β} :
    x.bind g = .ok b ↔ ∃ a, x = .ok a ∧ g a = .ok b := by
  cases x <;> simp [Except.bind]

theorem map_eq_error {α β : Type} {x : Except Failure α} {g : α → β} {f : Failure} :
    x.map g = .error f ↔ x = .error f := by
  cases x <;> simp [Except.map]

theorem map_eq_ok {α β : Type} {x : Except Failure α} {g : α → β} {b : β} :
    x.map g = .ok b ↔ ∃ a, x = .ok a ∧ g a = b := by
  cases x <;> simp [Except.map]

/-! ### Escapes -/

/-- Decoding fails only at a backslash. -/
theorem decodePoints_error {p : Position} {cs : List Char} {f : Failure}
    (h : Escape.decodePoints p cs = .error f) :
    ∃ (fault : Escape.Fault) (q : Position), f = fault.failure q := by
  fun_induction Escape.decodePoints p cs with
  | case1 => cases h
  | case2 p c rest fault _ => exact ⟨fault, p, (Except.error.inj h).symm⟩
  | case3 p c rest u _ ih => exact ih (map_eq_error.mp h)

/-- Where a body begins makes no difference to what it decodes to. -/
theorem decodePoints_moved {p : Position} {cs : List Char} {v : List Int}
    (h : Escape.decodePoints p cs = .ok v) (q : Position) : Escape.decodePoints q cs = .ok v := by
  fun_induction Escape.decodePoints p cs generalizing v q with
  | case1 =>
    rw [Escape.decodePoints]
    exact h
  | case2 => cases h
  | case3 p c rest u hu ih =>
    obtain ⟨w, hw, hv⟩ := map_eq_ok.mp h
    rw [Escape.decodePoints]
    split
    · next heq =>
      rw [hu] at heq
      cases heq
    · next heq =>
      rw [hu] at heq
      cases heq
      exact map_eq_ok.mpr ⟨w, ih hw _, hv⟩

theorem decodeAt_error {p : Position} {cs : List Char} {f : Failure}
    (h : Escape.decodeAt p cs = .error f) :
    ∃ (fault : Escape.Fault) (q : Position), f = fault.failure q :=
  decodePoints_error (map_eq_error.mp h)

theorem decodeAt_nil (p : Position) : Escape.decodeAt p [] = .ok .empty := by
  rw [Escape.decodeAt, Escape.decodePoints]
  rfl

/-- A segment that decodes does so at every place. -/
theorem decodeAt_moved {p : Position} {seg : List Char} {t : Text}
    (h : Escape.decodeAt p seg = .ok t) (q : Position) : Escape.decodeAt q seg = .ok t := by
  obtain ⟨v, hv, ht⟩ := map_eq_ok.mp h
  exact map_eq_ok.mpr ⟨v, decodePoints_moved hv q, ht⟩

variable {reader : Option CodeReader} {limit : Int} {tok : Token} {p : Position}
variable {j k : Nat} {cs seg code rest : List Char} {segs codes : List (List Char)}

/-! ### The size of a segment -/

/-- A segment ends where a block begins, or with the body. -/
theorem IsSegment.segmentSize_append (h : IsSegment seg)
    (hrest : rest = [] ∨ ∃ more, rest = '#' :: '{' :: more) :
    segmentSize (seg ++ rest) = seg.length := by
  induction h with
  | nil =>
    rcases hrest with rfl | ⟨more, rfl⟩ <;> simp [segmentSize]
  | @char c cs hb hi _ ih =>
    have hsep : rest.head? ≠ some '{' := by rcases hrest with rfl | ⟨more, rfl⟩ <;> simp
    have hi' : ∀ more, ¬(c = '#' ∧ cs ++ rest = '{' :: more) := by
      rintro more ⟨hc, hh⟩
      exact no_block_append hi hsep ⟨hc, by rw [hh]; rfl⟩
    -- of the four ways to go on, only the last one is left for such a character
    rw [List.cons_append, segmentSize.eq_def]
    split
    · next heq => cases heq
    · next heq => exact absurd (List.cons.inj heq).1 hb
    · next heq => exact absurd ⟨(List.cons.inj heq).1, (List.cons.inj heq).2⟩ (hi' _)
    · next heq =>
      rw [← (List.cons.inj heq).2, ih, List.length_cons]
  | escape c _ ih =>
    rw [List.cons_append, List.cons_append, segmentSize, ih]
    rfl

theorem segmentSize_append (h : Nested .body 0 seg)
    (hrest : rest = [] ∨ ∃ more, rest = '#' :: '{' :: more) :
    segmentSize (seg ++ rest) = seg.length :=
  (h.isSegment rfl rfl).segmentSize_append hrest

/-- What is cut off at the front of a body is followed by a block or by nothing. -/
theorem exists_front (cs : List Char) :
    ∃ seg rest, cs = seg ++ rest ∧ segmentSize cs = seg.length ∧
      (rest = [] ∨ ∃ more, rest = '#' :: '{' :: more) := by
  fun_induction segmentSize cs with
  | case1 => exact ⟨[], [], rfl, rfl, .inl rfl⟩
  | case2 c cs ih =>
    obtain ⟨seg, rest, rfl, hsize, hrest⟩ := ih
    exact ⟨'\\' :: c :: seg, rest, rfl, by simp [hsize], hrest⟩
  | case3 more => exact ⟨[], _, rfl, rfl, .inr ⟨more, rfl⟩⟩
  | case4 c cs _ _ ih =>
    obtain ⟨seg, rest, rfl, hsize, hrest⟩ := ih
    exact ⟨c :: seg, rest, rfl, by simp [hsize], hrest⟩

/-- Induction along a body.  It is all front, or it comes to a block: one whose code has no end
within the limit, or one with more of the body behind it. -/
@[elab_as_elim] theorem body_induction (limit : Int) {P : List Char → Prop}
    (last : ∀ seg, segmentSize seg = seg.length → P seg)
    (stuck : ∀ seg rest n why, segmentSize (seg ++ '#' :: '{' :: rest) = seg.length →
      Balance.code 1 limit rest = .stopped n why → P (seg ++ '#' :: '{' :: rest))
    (block : ∀ seg code rest,
      segmentSize (seg ++ '#' :: '{' :: (code ++ '}' :: rest)) = seg.length →
      Balance.code 1 limit (code ++ '}' :: rest) = .closed code.length → P rest →
      P (seg ++ '#' :: '{' :: (code ++ '}' :: rest)))
    (cs : List Char) : P cs := by
  induction hn : cs.length using Nat.strongRecOn generalizing cs with
  | ind n ih =>
    subst hn
    obtain ⟨seg, rest, rfl, hsize, rfl | ⟨more, rfl⟩⟩ := exists_front cs
    · rw [List.append_nil] at hsize ⊢
      exact last seg hsize
    rcases hscan : Balance.code 1 limit more with n | ⟨n, why⟩
    · obtain ⟨code, rest, -, rfl, rfl⟩ :=
        (take_getElem?_iff (P := fun span => ∃ k, Nested .code k span ∧ Fits limit 1 k)).mp
          (code_closed_iff.mp hscan)
      refine block seg code rest hsize hscan (ih rest.length ?_ rest rfl)
      simp only [List.length_append, List.length_cons]
      omega
    · exact stuck seg more n why hsize hscan

/-! ### One part of a body -/

/-- A body without blocks is its one segment. -/
theorem readParts_segment (h : segmentSize seg = seg.length) :
    readParts reader limit tok p seg
      = (Traced.lift (Escape.decodeAt p seg)).andThen fun v => .ok [.text tok v] := by
  rw [readParts]
  simp only [h, List.take_length]
  split
  · next hd => rw [hd]; rfl
  · next v hd =>
    rw [hd]
    split
    · next heq =>
      rw [h, List.drop_length] at heq
      cases heq
    · rfl

/-- A body with a block is a segment, the code of the block, and the rest. -/
theorem readParts_open (h : segmentSize (seg ++ '#' :: '{' :: rest) = seg.length) :
    readParts reader limit tok p (seg ++ '#' :: '{' :: rest)
      = (Traced.lift (Escape.decodeAt p seg)).andThen fun v =>
          match Balance.code 1 limit rest with
          | .stopped _ why => .fail (unbalanced limit tok why)
          | .closed n =>
            (readCode reader tok (String.ofList (rest.take n))
                (p.advance (seg ++ ['#', '{']))).andThen fun e =>
              (readParts reader limit tok
                  ((p.advance (seg ++ ['#', '{'])).advance (rest.take n ++ ['}']))
                  (rest.drop (n + 1))).andThen fun parts =>
                .ok (.text tok v :: e :: parts) := by
  rw [readParts]
  simp only [h, List.take_left]
  split
  · next hd => rw [hd]; rfl
  · next v hd =>
    rw [hd]
    split
    · next rest' heq =>
      rw [h, List.drop_left] at heq
      cases heq
      rfl
    · next hno => exact absurd (by rw [h, List.drop_left]) (hno rest)

/-- A block whose code has no end within the limit is refused, after its segment. -/
theorem readParts_stuck {n : Nat} {why : Unbalanced}
    (h : segmentSize (seg ++ '#' :: '{' :: rest) = seg.length)
    (hscan : Balance.code 1 limit rest = .stopped n why) :
    readParts reader limit tok p (seg ++ '#' :: '{' :: rest)
      = (Traced.lift (Escape.decodeAt p seg)).andThen fun _ =>
        .fail (unbalanced limit tok why) := by
  rw [readParts_open h, hscan]

theorem drop_code (code rest : List Char) :
    (code ++ '}' :: rest).drop (code.length + 1) = rest := by
  rw [List.drop_append]
  simp

/-- A block whose code has an end is read: its segment, its code, and the rest of the body. -/
theorem readParts_closed
    (h : segmentSize (seg ++ '#' :: '{' :: (code ++ '}' :: rest)) = seg.length)
    (hscan : Balance.code 1 limit (code ++ '}' :: rest) = .closed code.length) :
    readParts reader limit tok p (seg ++ '#' :: '{' :: (code ++ '}' :: rest))
      = (Traced.lift (Escape.decodeAt p seg)).andThen fun v =>
          (readCode reader tok (String.ofList code) (p.advance (seg ++ ['#', '{']))).andThen
            fun e =>
              (readParts reader limit tok
                ((p.advance (seg ++ ['#', '{'])).advance (code ++ ['}'])) rest).andThen
                fun parts => .ok (.text tok v :: e :: parts) := by
  rw [readParts_open h, hscan]
  simp only [List.take_left, drop_code]

theorem readParts_last (hs : Nested .body 0 seg) :
    (readParts reader limit tok p seg).result
      = (Escape.decodeAt p seg).bind fun v => .ok [.text tok v] := by
  have hsize : segmentSize seg = seg.length := by
    simpa using segmentSize_append hs (.inl (rfl : ([] : List Char) = []))
  rw [readParts_segment hsize, Traced.result_andThen]
  rfl

/-- A block whose code fits is read: its segment, its code, and the rest of the body. -/
theorem readParts_block (hs : Nested .body 0 seg) (hc : Nested .code j code)
    (hfit : Fits limit 1 j) :
    (readParts reader limit tok p (seg ++ '#' :: '{' :: (code ++ '}' :: rest))).result
      = (Escape.decodeAt p seg).bind fun v =>
          (readCode reader tok (String.ofList code) (p.advance (seg ++ ['#', '{']))).result.bind
            fun e =>
              (readParts reader limit tok
                ((p.advance (seg ++ ['#', '{'])).advance (code ++ ['}'])) rest).result.bind
                fun parts => .ok (.text tok v :: e :: parts) := by
  rw [readParts_closed (segmentSize_append hs (.inr ⟨_, rfl⟩)) (hc.code_closed hfit)]
  simp only [Traced.result_andThen]
  rfl

/-- A block whose code does not fit is refused, after its segment. -/
theorem readParts_block_tooDeep (hs : Nested .body 0 seg) (hc : Nested .code j code)
    (hfit : ¬Fits limit 1 j) :
    (readParts reader limit tok p (seg ++ '#' :: '{' :: (code ++ '}' :: rest))).result
      = (Escape.decodeAt p seg).bind fun _ => .error (unbalanced limit tok .tooDeep) := by
  obtain ⟨n, hn⟩ := hc.code_tooDeep hfit rest
  rw [readParts_stuck (segmentSize_append hs (.inr ⟨_, rfl⟩)) hn, Traced.result_andThen]
  rfl

/-! ### A whole body -/

/-- A block at the first level fits exactly if its code does: a limit allows one level or none. -/
theorem fits_block : Fits limit 0 (j + 1) ↔ Fits limit 1 j := by
  unfold Fits
  omega

/-- A body within the limit fails only at an escape or in the reader of its codes. -/
theorem Split.readParts_error {f : Failure} (h : Split k cs segs codes) (hfit : Fits limit 0 k)
    (herr : (readParts reader limit tok p cs).result = .error f) :
    (∃ q seg, Escape.decodeAt q seg = .error f) ∨
      ∃ code ∈ codes, ∃ q, (readCode reader tok (String.ofList code) q).result = .error f := by
  induction h generalizing p with
  | last hs =>
    rw [readParts_last hs, bind_eq_error] at herr
    rcases herr with hd | ⟨v, -, h⟩
    · exact .inl ⟨p, _, hd⟩
    · cases h
  | block hs hc hr ih =>
    obtain ⟨hblock, hrest⟩ := fits_max.mp hfit
    rw [readParts_block hs hc (fits_block.mp hblock)] at herr
    simp only [bind_eq_error] at herr
    -- in the segment, in the code, or in what follows the block
    rcases herr with hd | ⟨v, -, hcode | ⟨e, -, hparts | ⟨parts, -, h⟩⟩⟩
    · exact .inl ⟨p, _, hd⟩
    · exact .inr ⟨_, List.mem_cons_self, _, hcode⟩
    · rcases ih hrest hparts with hd | ⟨code, hmem, hcode⟩
      · exact .inl hd
      · exact .inr ⟨code, List.mem_cons_of_mem _ hmem, hcode⟩
    · cases h

/-- A body that was read had all of its codes read. -/
theorem Split.readParts_codes {parts : List Expr} (h : Split k cs segs codes)
    (hfit : Fits limit 0 k)
    (hok : (readParts reader limit tok p cs).result = .ok parts) (hmem : code ∈ codes) :
    ∃ q e, (readCode reader tok (String.ofList code) q).result = .ok e := by
  induction h generalizing p parts with
  | last => cases hmem
  | block hs hc hr ih =>
    obtain ⟨hblock, hrest⟩ := fits_max.mp hfit
    rw [readParts_block hs hc (fits_block.mp hblock)] at hok
    simp only [bind_eq_ok] at hok
    obtain ⟨v, -, e, hcode, parts', hparts, -⟩ := hok
    rcases List.mem_cons.mp hmem with rfl | hmem
    · exact ⟨_, e, hcode⟩
    · exact ih hrest hparts hmem

/-- Every segment decodes, and every code is read. -/
structure Sound (reader : Option CodeReader) (tok : Token)
    (segs codes : List (List Char)) : Prop where
  decodes : ∀ seg ∈ segs, ∀ q, ∃ v, Escape.decodeAt q seg = .ok v
  reads : ∀ code ∈ codes, ∀ q, ∃ e, (readCode reader tok (String.ofList code) q).result = .ok e

theorem Sound.tail (h : Sound reader tok (seg :: segs) (code :: codes)) :
    Sound reader tok segs codes :=
  ⟨fun s hs => h.decodes s (List.mem_cons_of_mem _ hs),
    fun c hc => h.reads c (List.mem_cons_of_mem _ hc)⟩

/-- A sound body within the limit is read. -/
theorem Split.readParts_ok (h : Split k cs segs codes) (hsound : Sound reader tok segs codes)
    (hfit : Fits limit 0 k) : ∃ parts, (readParts reader limit tok p cs).result = .ok parts := by
  induction h generalizing p with
  | last hs =>
    obtain ⟨v, hv⟩ := hsound.decodes _ List.mem_cons_self p
    rw [readParts_last hs, hv]
    exact ⟨_, rfl⟩
  | @block j k seg code rest segs codes hs hc hr ih =>
    obtain ⟨hblock, hrest⟩ := fits_max.mp hfit
    obtain ⟨v, hv⟩ := hsound.decodes _ List.mem_cons_self p
    obtain ⟨e, he⟩ := hsound.reads _ List.mem_cons_self (p.advance (seg ++ ['#', '{']))
    obtain ⟨parts, hparts⟩ :=
      ih hsound.tail hrest (p := (p.advance (seg ++ ['#', '{'])).advance (code ++ ['}']))
    rw [readParts_block hs hc (fits_block.mp hblock), hv]
    simp only [Except.bind, he, hparts]
    exact ⟨_, rfl⟩

/-- A sound body beyond the limit is refused as too deep. -/
theorem Split.readParts_tooDeep (h : Split k cs segs codes) (hsound : Sound reader tok segs codes)
    (hfit : ¬Fits limit 0 k) :
    (readParts reader limit tok p cs).result = .error (unbalanced limit tok .tooDeep) := by
  induction h generalizing p with
  | last hs => exact absurd (fits_zero limit 0) hfit
  | @block j k seg code rest segs codes hs hc hr ih =>
    obtain ⟨v, hv⟩ := hsound.decodes _ List.mem_cons_self p
    by_cases hj : Fits limit 1 j
    · -- the first block is read, so it is the rest that goes too deep
      have hk : ¬Fits limit 0 k := fun hk => hfit (fits_max.mpr ⟨fits_block.mpr hj, hk⟩)
      obtain ⟨e, he⟩ := hsound.reads _ List.mem_cons_self (p.advance (seg ++ ['#', '{']))
      rw [readParts_block hs hc hj, hv]
      simp only [Except.bind, he, ih hsound.tail hk]
    · rw [readParts_block_tooDeep hs hc hj, hv]
      rfl

/-! ### A whole literal -/

theorem read_error_iff {f : Failure} :
    (read reader limit tok).result = .error f ↔
      (readParts reader limit tok tok.place.next tok.lit.toList).result = .error f := by
  rw [Interpolation.read, Traced.result_andThen, bind_eq_error]
  constructor
  · rintro (h | ⟨parts, -, h⟩)
    · exact h
    · split at h <;> cases h
  · exact .inl

theorem read_ok_of_parts {parts : List Expr}
    (h : (readParts reader limit tok tok.place.next tok.lit.toList).result = .ok parts) :
    ∃ e, (read reader limit tok).result = .ok e := by
  rw [Interpolation.read, Traced.result_andThen, h]
  simp only [Except.bind]
  split <;> exact ⟨_, rfl⟩

theorem read_ok_parts {e : Expr} (h : (read reader limit tok).result = .ok e) :
    ∃ parts, (readParts reader limit tok tok.place.next tok.lit.toList).result = .ok parts := by
  rw [Interpolation.read, Traced.result_andThen, bind_eq_ok] at h
  obtain ⟨parts, hparts, -⟩ := h
  exact ⟨parts, hparts⟩

/-! ### Literals of one part -/

/-- A body without interpolations is read as its text. -/
theorem read_plain {body : List Char} {t : Text} (hlit : tok.lit = String.ofList body)
    (hb : Nested .body 0 body) (hd : ∀ q, Escape.decodeAt q body = .ok t) :
    (read reader limit tok).result = .ok (.text tok t) := by
  rw [Interpolation.read, Traced.result_andThen, hlit, String.toList_ofList, readParts_last hb, hd]
  rfl

/-- A literal that is one interpolation is read as its code between two empty segments. -/
theorem read_block (reader : Option CodeReader) (tok : Token)
    (hlit : tok.lit = String.ofList ('#' :: '{' :: (code ++ ['}']))) (hc : Nested .code k code)
    (hfit : Fits limit 1 k) :
    (read reader limit tok).result =
      (readCode reader tok (String.ofList code) (tok.place.next.advance ['#', '{'])).result.bind
        fun e => .ok (.concat tok [.text tok .empty, e, .text tok .empty]) := by
  rw [Interpolation.read, Traced.result_andThen, hlit, String.toList_ofList,
    ← List.nil_append ('#' :: _), readParts_block .bodyEnd hc hfit, decodeAt_nil]
  simp only [Except.bind, readParts_last .bodyEnd, decodeAt_nil, List.nil_append]
  cases (readCode reader tok (String.ofList code) _).result <;> rfl

end TextScript
