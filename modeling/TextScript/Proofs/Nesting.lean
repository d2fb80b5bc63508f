/-
TextScript/Proofs/Nesting.lean

The grammar of literals, with the depth of their interpolations.

Two regions alternate: the body of a literal, and the code of an interpolation.  A body is made of
characters, escapes and blocks `#{ code }`; code is made of characters, braced code and literals.
`Nested r k cs` says that `cs` is a region of kind `r` in which blocks nest exactly `k` deep, so the
depth of a span is read off its derivation and costs nothing extra in an induction.

Nothing here mentions the scanner: the grammar is the other side of every theorem about it.
-/
import TextScript.Literal.Balance

namespace TextScript

/-- What a span of characters is read as. -/
inductive Region where
  /-- The inside of a literal. -/
  | body
  /-- The inside of an interpolation. -/
  | code
deriving DecidableEq, Repr

/-- `Nested r k cs`: the characters `cs` make up a region of kind `r` whose interpolations nest
exactly `k` deep. -/
inductive Nested : Region → Nat → List Char → Prop
  | bodyEnd : Nested .body 0 []
  | bodyChar {k c cs} :
      c ≠ '\\' → c ≠ '"' → ¬(c = '#' ∧ cs.head? = some '{') →
      Nested .body k cs → Nested .body k (c :: cs)
  | bodyEscape {k cs} (c : Char) :
      Nested .body k cs → Nested .body k ('\\' :: c :: cs)
  | bodyBlock {j k code cs} :
      Nested .code j code → Nested .body k cs →
      Nested .body (max (j + 1) k) ('#' :: '{' :: (code ++ '}' :: cs))
  | codeEnd : Nested .code 0 []
  | codeChar {k c cs} :
      c ≠ '"' → c ≠ '{' → c ≠ '}' → Nested .code k cs → Nested .code k (c :: cs)
  | codeBraces {j k inner cs} :
      Nested .code j inner → Nested .code k cs →
      Nested .code (max j k) ('{' :: (inner ++ '}' :: cs))
  | codeLiteral {j k body cs} :
      Nested .body j body → Nested .code k cs →
      Nested .code (max j k) ('"' :: (body ++ '"' :: cs))

/-- The characters make up the body of a literal. -/
def IsBody (cs : List Char) : Prop := ∃ k, Nested .body k cs

/-- The characters make up the code of an interpolation. -/
def IsCode (cs : List Char) : Prop := ∃ k, Nested .code k cs

/-- A body that breaks off: a whole body, or one with a lone backslash after it. -/
def IsOpenBody (cs : List Char) : Prop :=
  IsBody cs ∨ ∃ body, IsBody body ∧ cs = body ++ ['\\']

/-- Some code at the start is ended by a brace. -/
def ClosesCode (cs : List Char) : Prop :=
  ∃ code rest, IsCode code ∧ cs = code ++ '}' :: rest

/-- What begins no block before some characters begins none before a part of them. -/
theorem no_block_of_initial {c : Char} {cs seg : List Char} (hp : seg <+: cs)
    (hi : ¬(c = '#' ∧ cs.head? = some '{')) : ¬(c = '#' ∧ seg.head? = some '{') := by
  rintro ⟨hc, hh⟩
  obtain ⟨ds, rfl⟩ := List.head?_eq_some_iff.mp hh
  obtain ⟨rest, rfl⟩ := hp
  exact hi ⟨hc, rfl⟩

/-- Nor does it before more characters, if these do not begin with the brace. -/
theorem no_block_append {c : Char} {cs rest : List Char} (hi : ¬(c = '#' ∧ cs.head? = some '{'))
    (hsep : rest.head? ≠ some '{') : ¬(c = '#' ∧ (cs ++ rest).head? = some '{') := by
  rintro ⟨hc, hh⟩
  cases cs with
  | nil => exact hsep hh
  | cons d ds => exact hi ⟨hc, hh⟩

/-! ### The rules without the depth -/

theorem isBody_nil : IsBody [] := ⟨0, .bodyEnd⟩

theorem isCode_nil : IsCode [] := ⟨0, .codeEnd⟩

theorem IsBody.escape {cs : List Char} (c : Char) (h : IsBody cs) : IsBody ('\\' :: c :: cs) := by
  obtain ⟨k, hk⟩ := h
  exact ⟨k, .bodyEscape c hk⟩

theorem IsBody.char {c : Char} {cs : List Char} (hb : c ≠ '\\') (hq : c ≠ '"')
    (hi : ¬(c = '#' ∧ cs.head? = some '{')) (h : IsBody cs) : IsBody (c :: cs) := by
  obtain ⟨k, hk⟩ := h
  exact ⟨k, .bodyChar hb hq hi hk⟩

theorem IsBody.block {code cs : List Char} (hc : IsCode code) (h : IsBody cs) :
    IsBody ('#' :: '{' :: (code ++ '}' :: cs)) := by
  obtain ⟨j, hj⟩ := hc
  obtain ⟨k, hk⟩ := h
  exact ⟨_, .bodyBlock hj hk⟩

theorem IsCode.char {c : Char} {cs : List Char} (hq : c ≠ '"') (ho : c ≠ '{') (hc : c ≠ '}')
    (h : IsCode cs) : IsCode (c :: cs) := by
  obtain ⟨k, hk⟩ := h
  exact ⟨k, .codeChar hq ho hc hk⟩

theorem IsCode.braces {inner cs : List Char} (hi : IsCode inner) (h : IsCode cs) :
    IsCode ('{' :: (inner ++ '}' :: cs)) := by
  obtain ⟨j, hj⟩ := hi
  obtain ⟨k, hk⟩ := h
  exact ⟨_, .codeBraces hj hk⟩

theorem IsCode.literal {body cs : List Char} (hb : IsBody body) (h : IsCode cs) :
    IsCode ('"' :: (body ++ '"' :: cs)) := by
  obtain ⟨j, hj⟩ := hb
  obtain ⟨k, hk⟩ := h
  exact ⟨_, .codeLiteral hj hk⟩

/-- A literal is code as deep as its body. -/
theorem Nested.literal_code {k : Nat} {body : List Char} (h : Nested .body k body) :
    Nested .code k ('"' :: (body ++ ['"'])) := by
  simpa using Nested.codeLiteral h .codeEnd

/-! ### Segments and codes -/

/-- `IsSegment cs`: no block begins in the characters `cs`.  A backslash hides the character after
it, and there is one. -/
inductive IsSegment : List Char → Prop
  | nil : IsSegment []
  | char {c cs} : c ≠ '\\' → ¬(c = '#' ∧ cs.head? = some '{') → IsSegment cs → IsSegment (c :: cs)
  | escape {cs} (c : Char) : IsSegment cs → IsSegment ('\\' :: c :: cs)

/-- A body without blocks is a segment. -/
theorem Nested.isSegment {r : Region} {k : Nat} {cs : List Char} (h : Nested r k cs)
    (hr : r = .body) (hk : k = 0) : IsSegment cs := by
  induction h with
  | bodyEnd => exact .nil
  | bodyChar hb _ hi _ ih => exact .char hb hi (ih hr hk)
  | bodyEscape c _ ih => exact .escape c (ih hr hk)
  | bodyBlock => omega
  | codeEnd => cases hr
  | codeChar => cases hr
  | codeBraces => cases hr
  | codeLiteral => cases hr

/-- `Split k cs segs codes`: the body `cs` is cut into the segments `segs`, which hold no blocks,
and the codes of the blocks between them, where the blocks nest `k` deep. -/
inductive Split : Nat → List Char → List (List Char) → List (List Char) → Prop
  | last {seg} : Nested .body 0 seg → Split 0 seg [seg] []
  | block {j k seg code rest segs codes} :
      Nested .body 0 seg → Nested .code j code → Split k rest segs codes →
      Split (max (j + 1) k) (seg ++ '#' :: '{' :: (code ++ '}' :: rest)) (seg :: segs)
        (code :: codes)

/-- Characters that may stand before a segment may stand before a split body. -/
theorem Split.prepend {k : Nat} {cs : List Char} {segs codes : List (List Char)}
    (h : Split k cs segs codes) (pre : List Char)
    (hpre : ∀ seg, seg <+: cs → Nested .body 0 seg → Nested .body 0 (pre ++ seg)) :
    ∃ segs', Split k (pre ++ cs) segs' codes := by
  cases h with
  | last hs => exact ⟨_, .last (hpre _ (List.prefix_refl _) hs)⟩
  | block hs hc hr =>
    rw [← List.append_assoc]
    exact ⟨_, .block (hpre _ (List.prefix_append _ _) hs) hc hr⟩

/-- Every body can be cut into segments and codes. -/
theorem Nested.split {r : Region} {k : Nat} {cs : List Char} (h : Nested r k cs) (hr : r = .body) :
    ∃ segs codes, Split k cs segs codes := by
  induction h with
  | bodyEnd => exact ⟨_, _, .last .bodyEnd⟩
  | @bodyChar k c cs hb hq hi _ ih =>
    obtain ⟨segs, codes, hsplit⟩ := ih rfl
    obtain ⟨segs', h'⟩ := hsplit.prepend [c] fun seg hp hseg =>
      .bodyChar hb hq (no_block_of_initial hp hi) hseg
    exact ⟨segs', codes, h'⟩
  | bodyEscape c _ ih =>
    obtain ⟨segs, codes, hsplit⟩ := ih rfl
    obtain ⟨segs', h'⟩ := hsplit.prepend ['\\', c] fun seg _ hseg => .bodyEscape c hseg
    exact ⟨segs', codes, h'⟩
  | bodyBlock hc _ _ ih =>
    -- what comes before this block is joined to its segment later, character by character
    obtain ⟨segs, codes, hsplit⟩ := ih rfl
    exact ⟨_, _, .block .bodyEnd hc hsplit⟩
  | codeEnd => cases hr
  | codeChar => cases hr
  | codeBraces => cases hr
  | codeLiteral => cases hr

/-- The codes of a body are code, one level down. -/
theorem Split.code_nested {k : Nat} {cs : List Char} {segs codes : List (List Char)}
    (h : Split k cs segs codes) {code : List Char} (hmem : code ∈ codes) :
    (∃ j, Nested .code j code ∧ j + 1 ≤ k) ∧ ∀ c ∈ code, c ∈ cs := by
  induction h with
  | last => cases hmem
  | block hs hc hr ih =>
    rcases List.mem_cons.mp hmem with rfl | hmem
    · refine ⟨⟨_, hc, Nat.le_max_left _ _⟩, fun c hcm => by simp [hcm]⟩
    · obtain ⟨⟨j, hj, hle⟩, hsub⟩ := ih hmem
      refine ⟨⟨j, hj, Nat.le_trans hle (Nat.le_max_right _ _)⟩, fun c hcm => ?_⟩
      simp [hsub c hcm]

/-- Some block of a body is as deep as the body. -/
theorem Split.exists_deepest {k : Nat} {cs : List Char} {segs codes : List (List Char)}
    (h : Split (k + 1) cs segs codes) : ∃ code ∈ codes, Nested .code k code := by
  generalize hn : k + 1 = n at h
  induction h with
  | last => cases hn
  | @block i j seg code rest segs codes hs hc hr ih =>
    -- the depth is the greater one of this block's and the rest's
    by_cases hle : j ≤ i + 1
    · have hki : k = i := by omega
      exact ⟨code, List.mem_cons_self, hki ▸ hc⟩
    · obtain ⟨code', hmem, hcode⟩ := ih (by omega)
      exact ⟨code', List.mem_cons_of_mem _ hmem, hcode⟩

/-- A segment may stand before a body that does not join up with it. -/
theorem Nested.append_plain {r : Region} {j k : Nat} {seg rest : List Char} (h : Nested r j seg)
    (hr : r = .body) (hj : j = 0) (hsep : rest.head? ≠ some '{') (hrest : Nested .body k rest) :
    Nested .body k (seg ++ rest) := by
  induction h with
  | bodyEnd => exact hrest
  | bodyChar hb hq hi _ ih => exact .bodyChar hb hq (no_block_append hi hsep) (ih hr hj)
  | bodyEscape c _ ih => exact .bodyEscape c (ih hr hj)
  | bodyBlock => omega
  | codeEnd => cases hr
  | codeChar => cases hr
  | codeBraces => cases hr
  | codeLiteral => cases hr

/-- What is cut into segments and codes is a body. -/
theorem Split.nested {k : Nat} {cs : List Char} {segs codes : List (List Char)}
    (h : Split k cs segs codes) : Nested .body k cs := by
  induction h with
  | last hs => exact hs
  | block hs hc _ ih => exact hs.append_plain rfl rfl (by simp) (.bodyBlock hc ih)

end TextScript
