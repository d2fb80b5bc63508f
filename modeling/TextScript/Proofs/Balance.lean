/-
TextScript/Proofs/Balance.lean

The scanner and the grammar of literals agree.

The scanner keeps a stack where the grammar nests, so the link between the two is a lemma about
spans under any stack: `Nested.scan_append` says that a region whose blocks may all be opened is
passed over and leaves the stack as it was, and `Nested.scan_tooDeep` that any other stops the
scan as too deep.  Neither asks what depths are, only that a block leaves the depth as it was:
words do as well as integers.  For integers a region may be opened if it fits the limit
(`Nested.passes`, `Nested.exceeds`).  Without a limit the other half is a case split on what the
characters begin with: a closed body, an open one, or a block that never closes (`bodyOutcome`).
-/
import TextScript.Proofs.Nesting

namespace TextScript

open Balance

variable {outer : List Enclosure} {c : Char} {cs : List Char}

/-! ### Shifted scans -/

namespace Scan

@[simp] theorem shift_closed (n k : Nat) : (closed k).shift n = closed (k + n) := rfl

@[simp] theorem shift_stopped (n k : Nat) (why : Unbalanced) :
    (stopped k why).shift n = stopped (k + n) why := rfl

@[simp] theorem shift_zero (s : Scan) : s.shift 0 = s := by
  cases s <;> rfl

@[simp] theorem shift_shift (s : Scan) (m n : Nat) : (s.shift m).shift n = s.shift (m + n) := by
  cases s <;> simp [Nat.add_assoc]

end Scan

section

variable {δ : Type} [Add δ] [LT δ] [OfNat δ 0] [OfNat δ 1] {limit depth : δ}

/-! ### Blocks that may be opened -/

/-- Blocks may be opened one inside of the other, `k` of them from a depth on. -/
def MayOpen (limit : δ) : (depth : δ) → (k : Nat) → Prop
  | _, 0 => True
  | depth, k + 1 => ¬(0 < limit ∧ limit < depth + 1) ∧ MayOpen limit (depth + 1) k

theorem MayOpen.mono {j k : Nat} (h : MayOpen limit depth k) (hle : j ≤ k) :
    MayOpen limit depth j := by
  induction k generalizing j depth with
  | zero =>
    obtain rfl := Nat.le_zero.mp hle
    exact h
  | succ k ih =>
    cases j with
    | zero => exact trivial
    | succ j => exact ⟨h.1, ih h.2 (Nat.le_of_succ_le_succ hle)⟩

theorem mayOpen_max {j k : Nat} :
    MayOpen limit depth (max j k) ↔ MayOpen limit depth j ∧ MayOpen limit depth k := by
  constructor
  · exact fun h => ⟨h.mono (Nat.le_max_left j k), h.mono (Nat.le_max_right j k)⟩
  · rintro ⟨hj, hk⟩
    rcases Nat.le_total j k with hle | hle
    · rwa [Nat.max_eq_right hle]
    · rwa [Nat.max_eq_left hle]

variable [Sub δ] [DecidableLT δ]

/-! ### One character of a scan -/

namespace Balance

@[simp] theorem scan_nil (stack : List Enclosure) :
    scan limit depth stack [] = .stopped 0 (missing stack) := by
  rw [scan.eq_def]

/-- A character inside of a literal. -/
theorem scan_text (c : Char) (cs : List Char) :
    scan limit depth (.text :: outer) (c :: cs) =
      if c = '\\' then
        match cs with
        | [] => .stopped 1 (missing (.text :: outer))
        | _ :: cs => (scan limit depth (.text :: outer) cs).shift 2
      else if c = '"' then
        match outer with
        | [] => .closed 0
        | _ => (scan limit depth outer cs).shift 1
      else if c = '#' then
        match cs with
        | '{' :: cs =>
          if 0 < limit ∧ limit < depth + 1 then .stopped 0 .tooDeep
          else (scan limit (depth + 1) (.code 0 :: .text :: outer) cs).shift 2
        | cs => (scan limit depth (.text :: outer) cs).shift 1
      else (scan limit depth (.text :: outer) cs).shift 1 :=
  scan.eq_def limit depth (.text :: outer) (c :: cs)

/-- A character inside of code. -/
theorem scan_code (n : Nat) (c : Char) (cs : List Char) :
    scan limit depth (.code n :: outer) (c :: cs) =
      if c = '"' then (scan limit depth (.text :: .code n :: outer) cs).shift 1
      else if c = '{' then (scan limit depth (.code (n + 1) :: outer) cs).shift 1
      else if c = '}' then
        match n, outer with
        | 0, [] => .closed 0
        | 0, outer => (scan limit (depth - 1) outer cs).shift 1
        | n + 1, outer => (scan limit depth (.code n :: outer) cs).shift 1
      else (scan limit depth (.code n :: outer) cs).shift 1 :=
  scan.eq_def limit depth (.code n :: outer) (c :: cs)

theorem scan_text_escape :
    scan limit depth (.text :: outer) ('\\' :: c :: cs)
      = (scan limit depth (.text :: outer) cs).shift 2 := by
  rw [scan_text]; simp

theorem scan_text_backslash :
    scan limit depth (.text :: outer) ['\\'] = .stopped 1 (missing (.text :: outer)) := by
  rw [scan_text]; simp

theorem scan_text_quote : scan limit depth [.text] ('"' :: cs) = .closed 0 := by
  rw [scan_text]; simp

theorem scan_text_quote_outer (ho : outer ≠ []) :
    scan limit depth (.text :: outer) ('"' :: cs) = (scan limit depth outer cs).shift 1 := by
  rw [scan_text]; simp

theorem scan_text_block (h : ¬(0 < limit ∧ limit < depth + 1)) :
    scan limit depth (.text :: outer) ('#' :: '{' :: cs)
      = (scan limit (depth + 1) (.code 0 :: .text :: outer) cs).shift 2 := by
  rw [scan_text, if_neg (by decide), if_neg (by decide), if_pos rfl]
  exact if_neg h

theorem scan_text_block_tooDeep (h : 0 < limit ∧ limit < depth + 1) :
    scan limit depth (.text :: outer) ('#' :: '{' :: cs) = .stopped 0 .tooDeep := by
  rw [scan_text, if_neg (by decide), if_neg (by decide), if_pos rfl]
  exact if_pos h

theorem scan_text_char (hb : c ≠ '\\') (hq : c ≠ '"') (hi : ¬(c = '#' ∧ cs.head? = some '{')) :
    scan limit depth (.text :: outer) (c :: cs)
      = (scan limit depth (.text :: outer) cs).shift 1 := by
  rw [scan_text]
  simp only [if_neg hb, if_neg hq]
  split
  · next hc =>
    split
    · exact absurd ⟨hc, rfl⟩ hi
    · rfl
  · rfl

theorem scan_code_quote {n : Nat} :
    scan limit depth (.code n :: outer) ('"' :: cs)
      = (scan limit depth (.text :: .code n :: outer) cs).shift 1 := by
  rw [scan_code]; simp

theorem scan_code_open {n : Nat} :
    scan limit depth (.code n :: outer) ('{' :: cs)
      = (scan limit depth (.code (n + 1) :: outer) cs).shift 1 := by
  rw [scan_code]; simp

theorem scan_code_inner {n : Nat} :
    scan limit depth (.code (n + 1) :: outer) ('}' :: cs)
      = (scan limit depth (.code n :: outer) cs).shift 1 := by
  rw [scan_code]; simp

theorem scan_code_close : scan limit depth [.code 0] ('}' :: cs) = .closed 0 := by
  rw [scan_code]; simp

theorem scan_code_close_outer (ho : outer ≠ []) :
    scan limit depth (.code 0 :: outer) ('}' :: cs)
      = (scan limit (depth - 1) outer cs).shift 1 := by
  rw [scan_code]; simp

theorem scan_code_char {n : Nat} (hq : c ≠ '"') (ho : c ≠ '{') (hc : c ≠ '}') :
    scan limit depth (.code n :: outer) (c :: cs)
      = (scan limit depth (.code n :: outer) cs).shift 1 := by
  rw [scan_code]; simp [hq, ho, hc]

end Balance

/-! ### Regions are passed over -/

/-- The innermost enclosure is the one that a region is read in. -/
inductive Inside : Region → List Enclosure → Prop
  | body (outer : List Enclosure) : Inside .body (.text :: outer)
  | code (n : Nat) (outer : List Enclosure) : Inside .code (.code n :: outer)

/-- A region is followed by something that does not join up with its last character. -/
def Separate (r : Region) (rest : List Char) : Prop :=
  r = .body → rest.head? ≠ some '{'

theorem separate_code (rest : List Char) : Separate .code rest := fun h => nomatch h

theorem separate_quote (r : Region) (rest : List Char) : Separate r ('"' :: rest) := by
  intro _
  simp

/-- What follows a delimited span follows what comes after its delimiter. -/
theorem delimited_append (span rest : List Char) :
    span ++ c :: cs ++ rest = span ++ c :: (cs ++ rest) := by
  simp

/-- A region whose blocks may be opened is passed over, and the stack is then as it was before. -/
theorem Nested.scan_append (hback : ∀ e : δ, e + 1 - 1 = e) {r : Region} {k : Nat}
    (h : Nested r k cs) :
    ∀ {depth : δ} {stack : List Enclosure} {rest : List Char}, Inside r stack →
      Separate r rest → MayOpen limit depth k →
      scan limit depth stack (cs ++ rest) = (scan limit depth stack rest).shift cs.length := by
  induction h with
  | bodyEnd =>
    intro depth stack rest hin hsep hopens
    simp
  | bodyChar hb hq hi _ ih =>
    intro depth stack rest hin hsep hopens
    cases hin with
    | body outer =>
      rw [List.cons_append, scan_text_char hb hq (no_block_append hi (hsep rfl)),
        ih (.body outer) hsep hopens]
      simp
  | bodyEscape c _ ih =>
    intro depth stack rest hin hsep hopens
    cases hin with
    | body outer =>
      rw [List.cons_append, List.cons_append, scan_text_escape, ih (.body outer) hsep hopens]
      simp
  | @bodyBlock j k code cs _ _ ihc ihb =>
    intro depth stack rest hin hsep hopens
    cases hin with
    | body outer =>
      obtain ⟨⟨hopen, hcode⟩, hrest⟩ := mayOpen_max.mp hopens
      -- into the block one level down, and out of it at its brace
      rw [List.cons_append, List.cons_append, delimited_append, scan_text_block hopen,
        ihc (.code 0 _) (separate_code _) hcode,
        scan_code_close_outer (List.cons_ne_nil _ _), hback, ihb (.body outer) hsep hrest]
      simp only [Scan.shift_shift, List.length_cons, List.length_append]
      congr 1
      omega
  | codeEnd =>
    intro depth stack rest hin hsep hopens
    simp
  | codeChar hq ho hc _ ih =>
    intro depth stack rest hin hsep hopens
    cases hin with
    | code n outer =>
      rw [List.cons_append, scan_code_char hq ho hc, ih (.code n outer) hsep hopens]
      simp
  | @codeBraces j k inner cs _ _ ihi ihc =>
    intro depth stack rest hin hsep hopens
    cases hin with
    | code n outer =>
      obtain ⟨hinner, hrest⟩ := mayOpen_max.mp hopens
      -- braces are counted, not nested: the stack keeps its height
      rw [List.cons_append, delimited_append, scan_code_open,
        ihi (.code (n + 1) outer) (separate_code _) hinner, scan_code_inner,
        ihc (.code n outer) hsep hrest]
      simp only [Scan.shift_shift, List.length_cons, List.length_append]
      congr 1
      omega
  | @codeLiteral j k body cs _ _ ihb ihc =>
    intro depth stack rest hin hsep hopens
    cases hin with
    | code n outer =>
      obtain ⟨hbody, hrest⟩ := mayOpen_max.mp hopens
      -- a literal costs no depth of its own
      rw [List.cons_append, delimited_append, scan_code_quote,
        ihb (.body _) (separate_quote _ _) hbody,
        scan_text_quote_outer (List.cons_ne_nil _ _), ihc (.code n outer) hsep hrest]
      simp only [Scan.shift_shift, List.length_cons, List.length_append]
      congr 1
      omega

/-- A region with a block that may not be opened stops the scan. -/
theorem Nested.scan_tooDeep (hback : ∀ e : δ, e + 1 - 1 = e) {r : Region} {k : Nat}
    (h : Nested r k cs) :
    ∀ {depth : δ} {stack : List Enclosure} {rest : List Char}, Inside r stack →
      Separate r rest → ¬MayOpen limit depth k →
      ∃ n, scan limit depth stack (cs ++ rest) = .stopped n .tooDeep := by
  induction h with
  | bodyEnd =>
    intro depth stack rest hin hsep hopens
    exact absurd trivial hopens
  | bodyChar hb hq hi _ ih =>
    intro depth stack rest hin hsep hopens
    cases hin with
    | body outer =>
      obtain ⟨n, hn⟩ := ih (.body outer) hsep hopens
      rw [List.cons_append, scan_text_char hb hq (no_block_append hi (hsep rfl)), hn]
      exact ⟨_, rfl⟩
  | bodyEscape c _ ih =>
    intro depth stack rest hin hsep hopens
    cases hin with
    | body outer =>
      obtain ⟨n, hn⟩ := ih (.body outer) hsep hopens
      rw [List.cons_append, List.cons_append, scan_text_escape, hn]
      exact ⟨_, rfl⟩
  | @bodyBlock j k code cs hcode _ ihc ihb =>
    intro depth stack rest hin hsep hopens
    cases hin with
    | body outer =>
      rw [List.cons_append, List.cons_append, delimited_append]
      -- three ways to stop: at the opening of the block, inside of it, or after it
      by_cases hopen : 0 < limit ∧ limit < depth + 1
      · exact ⟨_, scan_text_block_tooDeep hopen⟩
      rw [scan_text_block hopen]
      by_cases hj : MayOpen limit (depth + 1) j
      · -- the block is passed over, so it is the rest of the body that may not be opened
        have hk : ¬MayOpen limit depth k := fun hk =>
          hopens (mayOpen_max.mpr ⟨⟨hopen, hj⟩, hk⟩)
        obtain ⟨n, hn⟩ := ihb (.body outer) hsep hk
        rw [hcode.scan_append hback (.code 0 _) (separate_code _) hj,
          scan_code_close_outer (List.cons_ne_nil _ _), hback, hn]
        exact ⟨_, rfl⟩
      · obtain ⟨n, hn⟩ := ihc (.code 0 _) (separate_code ('}' :: (cs ++ rest))) hj
        rw [hn]
        exact ⟨_, rfl⟩
  | codeEnd =>
    intro depth stack rest hin hsep hopens
    exact absurd trivial hopens
  | codeChar hq ho hc _ ih =>
    intro depth stack rest hin hsep hopens
    cases hin with
    | code n outer =>
      obtain ⟨m, hm⟩ := ih (.code n outer) hsep hopens
      rw [List.cons_append, scan_code_char hq ho hc, hm]
      exact ⟨_, rfl⟩
  | @codeBraces j k inner cs hinner _ ihi ihc =>
    intro depth stack rest hin hsep hopens
    cases hin with
    | code n outer =>
      rw [List.cons_append, delimited_append, scan_code_open]
      by_cases hj : MayOpen limit depth j
      · obtain ⟨m, hm⟩ := ihc (.code n outer) hsep fun hk => hopens (mayOpen_max.mpr ⟨hj, hk⟩)
        rw [hinner.scan_append hback (.code (n + 1) outer) (separate_code _) hj,
          scan_code_inner, hm]
        exact ⟨_, rfl⟩
      · obtain ⟨m, hm⟩ := ihi (.code (n + 1) outer) (separate_code ('}' :: (cs ++ rest))) hj
        rw [hm]
        exact ⟨_, rfl⟩
  | @codeLiteral j k body cs hbody _ ihb ihc =>
    intro depth stack rest hin hsep hopens
    cases hin with
    | code n outer =>
      rw [List.cons_append, delimited_append, scan_code_quote]
      by_cases hj : MayOpen limit depth j
      · obtain ⟨m, hm⟩ := ihc (.code n outer) hsep fun hk => hopens (mayOpen_max.mpr ⟨hj, hk⟩)
        rw [hbody.scan_append hback (.body _) (separate_quote _ _) hj,
          scan_text_quote_outer (List.cons_ne_nil _ _), hm]
        exact ⟨_, rfl⟩
      · obtain ⟨m, hm⟩ := ihb (.body (.code n :: outer)) (separate_quote _ (cs ++ rest)) hj
        rw [hm]
        exact ⟨_, rfl⟩

end

/-! ### Depths that are integers -/

variable {limit depth : Int}

/-- Interpolations that nest `k` deep at a depth stay within a limit. -/
def Fits (limit depth : Int) (k : Nat) : Prop :=
  limit ≤ 0 ∨ k = 0 ∨ depth + k ≤ limit

theorem fits_zero (limit depth : Int) : Fits limit depth 0 := .inr (.inl rfl)

theorem fits_unlimited (depth : Int) (k : Nat) : Fits 0 depth k := .inl (Int.le_refl 0)

theorem fits_max {j k : Nat} :
    Fits limit depth (max j k) ↔ Fits limit depth j ∧ Fits limit depth k := by
  unfold Fits
  omega

/-- A block fits if it may be opened and its code fits one level down. -/
theorem fits_succ {j : Nat} :
    Fits limit depth (j + 1) ↔
      ¬(0 < limit ∧ limit < depth + 1) ∧ Fits limit (depth + 1) j := by
  unfold Fits
  omega

theorem Fits.mono {j k : Nat} (h : Fits limit depth k) (hle : j ≤ k) : Fits limit depth j := by
  unfold Fits at *
  omega

/-- Blocks may be opened as long as they fit. -/
theorem fits_iff_mayOpen {k : Nat} : Fits limit depth k ↔ MayOpen limit depth k := by
  induction k generalizing depth with
  | zero => exact iff_of_true (fits_zero limit depth) trivial
  | succ k ih => rw [fits_succ, ih, MayOpen]

/-- A region that fits the limit is passed over, and the stack is then as it was before. -/
theorem Nested.passes {r : Region} {k : Nat} {stack : List Enclosure} {rest : List Char}
    (h : Nested r k cs) (hin : Inside r stack) (hsep : Separate r rest)
    (hfit : Fits limit depth k) :
    scan limit depth stack (cs ++ rest) = (scan limit depth stack rest).shift cs.length :=
  h.scan_append (fun e => Int.add_sub_cancel e 1) hin hsep (fits_iff_mayOpen.mp hfit)

/-- A region that does not fit the limit stops the scan. -/
theorem Nested.exceeds {r : Region} {k : Nat} {stack : List Enclosure} {rest : List Char}
    (h : Nested r k cs) (hin : Inside r stack) (hsep : Separate r rest)
    (hfit : ¬Fits limit depth k) : ∃ n, scan limit depth stack (cs ++ rest) = .stopped n .tooDeep :=
  h.scan_tooDeep (fun e => Int.add_sub_cancel e 1) hin hsep (mt fits_iff_mayOpen.mpr hfit)

/-- One limit allows whatever another one does. -/
def Looser (loose limit : Int) : Prop := loose ≤ 0 ∨ 0 < limit ∧ limit ≤ loose

theorem looser_unlimited (limit : Int) : Looser 0 limit := .inl (Int.le_refl 0)

/-- A scan either stops as too deep or ends like another one. -/
def LimitedTo (s u : Scan) : Prop := (∃ n, s = .stopped n .tooDeep) ∨ s = u

theorem LimitedTo.shift {s u : Scan} (n : Nat) (h : LimitedTo s u) :
    LimitedTo (s.shift n) (u.shift n) := by
  rcases h with ⟨m, rfl⟩ | rfl
  · exact .inl ⟨_, rfl⟩
  · exact .inr rfl

/-- A limit changes nothing about a scan unless it stops it. -/
theorem scan_limitedTo {loose : Int} (h : Looser loose limit) (depth : Int) (stack : List Enclosure)
    (cs : List Char) : LimitedTo (scan limit depth stack cs) (scan loose depth stack cs) := by
  fun_induction scan limit depth stack cs with
  | case1 depth stack => rw [scan_nil]; exact .inr rfl
  | case2 depth c cs => rw [scan.eq_def]; exact .inr rfl
  | case3 depth outer => rw [scan_text_backslash]; exact .inr rfl
  | case4 depth outer c cs ih => rw [scan_text_escape]; exact ih.shift 2
  | case5 depth cs => rw [scan_text_quote]; exact .inr rfl
  | case6 depth outer cs ho _ ih => rw [scan_text_quote_outer ho]; exact ih.shift 1
  -- the one case that the tighter limit decides on its own
  | case7 depth outer cs hdeep => exact .inl ⟨0, rfl⟩
  | case8 depth outer cs hdeep _ _ ih =>
    have hopen : ¬(0 < loose ∧ loose < depth + 1) := by
      unfold Looser at h
      omega
    rw [scan_text_block hopen]
    exact ih.shift 2
  | case9 depth outer cs hcs hb hq ih =>
    have hi : ¬('#' = '#' ∧ cs.head? = some '{') := by
      rintro ⟨-, hh⟩
      obtain ⟨ds, rfl⟩ := List.head?_eq_some_iff.mp hh
      exact hcs ds rfl
    rw [scan_text_char hb hq hi]
    exact ih.shift 1
  | case10 depth outer c cs hb hq hi ih =>
    rw [scan_text_char hb hq fun h => hi h.1]
    exact ih.shift 1
  | case11 depth n outer cs ih => rw [scan_code_quote]; exact ih.shift 1
  | case12 depth n outer cs _ ih => rw [scan_code_open]; exact ih.shift 1
  | case13 depth cs => rw [scan_code_close]; exact .inr rfl
  | case14 depth cs outer ho _ _ ih => rw [scan_code_close_outer ho]; exact ih.shift 1
  | case15 depth cs n outer _ _ ih => rw [scan_code_inner]; exact ih.shift 1
  | case16 depth n outer c cs hq ho hc ih => rw [scan_code_char hq ho hc]; exact ih.shift 1

/-! ### What characters begin with -/

/-- What a body at the start of some characters comes to. -/
inductive BodyOutcome : List Char → Prop
  /-- A quote ends it. -/
  | closed {body : List Char} (rest : List Char) : IsBody body → BodyOutcome (body ++ '"' :: rest)
  /-- The characters end first, outside of any block. -/
  | broken {cs : List Char} : IsOpenBody cs → BodyOutcome cs
  /-- It reaches a block whose code never closes. -/
  | stuck {body rest : List Char} :
      IsBody body → ¬ClosesCode rest → BodyOutcome (body ++ '#' :: '{' :: rest)

/-- Characters that may stand before any body at the start of `cs` change no outcome. -/
theorem BodyOutcome.prepend (pre : List Char)
    (hpre : ∀ body, body <+: cs → IsBody body → IsBody (pre ++ body)) (h : BodyOutcome cs) :
    BodyOutcome (pre ++ cs) := by
  cases h with
  | closed rest hb =>
    rw [← List.append_assoc]
    exact .closed rest (hpre _ (List.prefix_append _ _) hb)
  | broken ho =>
    rcases ho with hb | ⟨body, hb, rfl⟩
    · exact .broken (.inl (hpre _ (List.prefix_refl _) hb))
    · rw [← List.append_assoc]
      exact .broken (.inr ⟨_, hpre _ (List.prefix_append _ _) hb, rfl⟩)
  | stuck hb hr =>
    rw [← List.append_assoc]
    exact .stuck (hpre _ (List.prefix_append _ _) hb) hr

theorem bodyOutcome_cons (hb : c ≠ '\\') (hq : c ≠ '"') (hi : ¬(c = '#' ∧ cs.head? = some '{'))
    (h : BodyOutcome cs) : BodyOutcome (c :: cs) := by
  exact h.prepend [c] fun body hp hbody => .char hb hq (no_block_of_initial hp hi) hbody

/-- Every sequence of characters has one of the outcomes. -/
theorem bodyOutcome (cs : List Char) : BodyOutcome cs := by
  -- not structural: after a block the search goes on behind it
  induction hn : cs.length using Nat.strongRecOn generalizing cs with
  | ind n ih =>
    subst hn
    cases cs with
    | nil => exact .broken (.inl isBody_nil)
    | cons c cs =>
      have hlt : cs.length < (c :: cs).length := Nat.lt_succ_self _
      by_cases hb : c = '\\'
      · subst hb
        cases cs with
        | nil => exact .broken (.inr ⟨[], isBody_nil, rfl⟩)
        | cons d ds =>
          have hd := ih ds.length (by simp only [List.length_cons]; omega) ds rfl
          exact hd.prepend ['\\', d] fun body _ hbody => hbody.escape d
      by_cases hq : c = '"'
      · subst hq
        exact .closed cs isBody_nil
      by_cases hi : c = '#' ∧ cs.head? = some '{'
      · obtain ⟨rfl, hh⟩ := hi
        obtain ⟨ds, rfl⟩ := List.head?_eq_some_iff.mp hh
        -- a block: the body goes on behind it, or is stuck in it
        by_cases hclose : ClosesCode ds
        · obtain ⟨code, rest, hcode, rfl⟩ := hclose
          have hlen : rest.length < ('#' :: '{' :: (code ++ '}' :: rest)).length := by
            simp only [List.length_cons, List.length_append]
            omega
          have hrest := ih rest.length hlen rest rfl
          have := hrest.prepend ('#' :: '{' :: (code ++ ['}'])) fun body _ hbody => by
            simpa using IsBody.block hcode hbody
          simpa using this
        · exact .stuck isBody_nil hclose
      · exact bodyOutcome_cons hb hq hi (ih cs.length hlt cs rfl)

/-! ### Scans without a limit -/

/-- A body that breaks off leaves the scanner where it is. -/
theorem scan_openBody (h : IsOpenBody cs) :
    scan 0 depth (.text :: outer) cs = .stopped cs.length (missing (.text :: outer)) := by
  rcases h with ⟨k, hk⟩ | ⟨body, ⟨k, hk⟩, rfl⟩
  · have hpass : scan 0 depth (.text :: outer) (cs ++ []) = _ :=
      hk.passes (.body outer) (by intro _; simp) (fits_unlimited depth k)
    simpa using hpass
  · rw [hk.passes (.body outer) (by intro _; simp) (fits_unlimited depth k), scan_text_backslash]
    simp [Nat.add_comm]

/-- Code that never closes keeps the scanner inside of it up to the end. -/
theorem scan_openCode (h : ¬ClosesCode cs) (n : Nat) :
    scan 0 depth (.code n :: outer) cs = .stopped cs.length .unterminatedInterpolation := by
  induction hn : cs.length using Nat.strongRecOn generalizing cs n depth outer with
  | ind m ih =>
    subst hn
    cases cs with
    | nil => simp [missing]
    | cons c cs =>
      have step : ∀ {ds : List Char}, ds.length < (c :: cs).length → ¬ClosesCode ds →
          ∀ (depth : Int) (n : Nat) (outer : List Enclosure),
          scan 0 depth (.code n :: outer) ds = .stopped ds.length .unterminatedInterpolation :=
        fun hlt hds depth n outer => ih _ hlt hds n rfl
      by_cases hq : c = '"'
      · subst hq
        rw [scan_code_quote]
        -- a literal: whatever becomes of it, the code around it stays open
        cases bodyOutcome cs with
        | @closed body rest hb =>
          have hrest : ¬ClosesCode rest := by
            rintro ⟨code, more, hcode, rfl⟩
            exact h ⟨_, more, IsCode.literal hb hcode, by simp⟩
          have hlen : rest.length < ('"' :: (body ++ '"' :: rest)).length := by
            simp only [List.length_cons, List.length_append]
            omega
          obtain ⟨k, hk⟩ := hb
          rw [hk.passes (.body _) (separate_quote _ _) (fits_unlimited depth k),
            scan_text_quote_outer (List.cons_ne_nil _ _), step hlen hrest]
          simp only [Scan.shift_stopped, List.length_cons, List.length_append,
            Scan.stopped.injEq, and_true]
          omega
        | broken ho =>
          rw [scan_openBody ho]
          simp [missing]
        | @stuck body rest hb hrest =>
          have hlen : rest.length < ('"' :: (body ++ '#' :: '{' :: rest)).length := by
            simp only [List.length_cons, List.length_append]
            omega
          obtain ⟨k, hk⟩ := hb
          rw [hk.passes (.body _) (by intro _; simp) (fits_unlimited depth k),
            scan_text_block (by simp), step hlen hrest]
          simp only [Scan.shift_stopped, List.length_cons, List.length_append,
            Scan.stopped.injEq, and_true]
          omega
      by_cases ho : c = '{'
      · subst ho
        rw [scan_code_open]
        by_cases hclose : ClosesCode cs
        · obtain ⟨inner, rest, hinner, rfl⟩ := hclose
          have hrest : ¬ClosesCode rest := by
            rintro ⟨code, more, hcode, rfl⟩
            exact h ⟨_, more, hinner.braces hcode, by simp⟩
          have hlen : rest.length < ('{' :: (inner ++ '}' :: rest)).length := by
            simp only [List.length_cons, List.length_append]
            omega
          obtain ⟨k, hk⟩ := hinner
          rw [hk.passes (.code _ _) (separate_code _) (fits_unlimited depth k), scan_code_inner,
            step hlen hrest]
          simp only [Scan.shift_stopped, List.length_cons, List.length_append,
            Scan.stopped.injEq, and_true]
          omega
        · rw [step (Nat.lt_succ_self _) hclose]
          rfl
      by_cases hc : c = '}'
      · subst hc
        exact absurd ⟨[], cs, isCode_nil, rfl⟩ h
      · have hcs : ¬ClosesCode cs := by
          rintro ⟨code, rest, hcode, rfl⟩
          exact h ⟨_, rest, hcode.char hq ho hc, rfl⟩
        rw [scan_code_char hq ho hc, step (Nat.lt_succ_self _) hcs]
        rfl

/-- A body in a literal that reaches a block which never closes. -/
theorem scan_stuckBody {body rest : List Char} (hb : IsBody body) (hr : ¬ClosesCode rest) :
    scan 0 depth (.text :: outer) (body ++ '#' :: '{' :: rest)
      = .stopped (body ++ '#' :: '{' :: rest).length .unterminatedInterpolation := by
  obtain ⟨k, hk⟩ := hb
  rw [hk.passes (.body _) (by intro _; simp) (fits_unlimited depth k), scan_text_block (by simp),
    scan_openCode hr]
  simp only [Scan.shift_stopped, List.length_cons, List.length_append,
    Scan.stopped.injEq, and_true]
  omega

/-! ### The closing character -/

/-- A span and the character after it, by position and by cutting. -/
theorem take_getElem?_iff {P : List Char → Prop} {n : Nat} :
    P (cs.take n) ∧ cs[n]? = some c ↔
      ∃ span rest, P span ∧ cs = span ++ c :: rest ∧ span.length = n := by
  constructor
  · rintro ⟨hP, hc⟩
    obtain ⟨hn, hget⟩ := List.getElem?_eq_some_iff.mp hc
    refine ⟨cs.take n, cs.drop (n + 1), hP, ?_, List.length_take_of_le (Nat.le_of_lt hn)⟩
    rw [← hget, ← List.drop_eq_getElem_cons hn, List.take_append_drop]
  · rintro ⟨span, rest, hP, rfl, rfl⟩
    simpa using hP

theorem Nested.text_closed {k : Nat} {body rest : List Char} (h : Nested .body k body)
    (hfit : Fits limit depth k) : text depth limit (body ++ '"' :: rest) = .closed body.length := by
  rw [text, h.passes (.body []) (separate_quote _ _) hfit, scan_text_quote]
  simp

theorem Nested.text_tooDeep {k : Nat} {body : List Char} (h : Nested .body k body)
    (hfit : ¬Fits limit depth k) (rest : List Char) :
    ∃ n, text depth limit (body ++ '"' :: rest) = .stopped n .tooDeep :=
  h.exceeds (.body []) (separate_quote _ _) hfit

theorem Nested.code_closed {k : Nat} {code rest : List Char} (h : Nested .code k code)
    (hfit : Fits limit depth k) :
    Balance.code depth limit (code ++ '}' :: rest) = .closed code.length := by
  rw [Balance.code, h.passes (.code 0 []) (separate_code _) hfit, scan_code_close]
  simp

theorem Nested.code_tooDeep {k : Nat} {code : List Char} (h : Nested .code k code)
    (hfit : ¬Fits limit depth k) (rest : List Char) :
    ∃ n, Balance.code depth limit (code ++ '}' :: rest) = .stopped n .tooDeep :=
  h.exceeds (.code 0 []) (separate_code _) hfit

/-- A scan closes a literal exactly at the quote after a body that fits the limit. -/
theorem text_closed_iff {n : Nat} :
    text depth limit cs = .closed n ↔
      (∃ k, Nested .body k (cs.take n) ∧ Fits limit depth k) ∧ cs[n]? = some '"' := by
  rw [take_getElem?_iff (P := fun span => ∃ k, Nested .body k span ∧ Fits limit depth k)]
  constructor
  · intro h
    -- a scan that closes also closes without a limit, so the characters begin with a body
    rcases scan_limitedTo (looser_unlimited limit) depth [.text] cs with ⟨m, hm⟩ | hfree
    · exact absurd (h.symm.trans hm) (by simp)
    have h0 : scan 0 depth [.text] cs = .closed n := hfree.symm.trans h
    cases bodyOutcome cs with
    | closed rest hb =>
      obtain ⟨k, hk⟩ := hb
      by_cases hfit : Fits limit depth k
      · rw [hk.text_closed hfit] at h
        exact ⟨_, rest, ⟨k, hk, hfit⟩, rfl, Scan.closed.inj h⟩
      · obtain ⟨m, hm⟩ := hk.text_tooDeep hfit rest
        exact absurd (h.symm.trans hm) (by simp)
    | broken ho => exact absurd (h0.symm.trans (scan_openBody ho)) (by simp)
    | stuck hb hr => exact absurd (h0.symm.trans (scan_stuckBody hb hr)) (by simp)
  · rintro ⟨body, rest, ⟨k, hk, hfit⟩, rfl, rfl⟩
    exact hk.text_closed hfit

/-- A scan closes an interpolation exactly at the brace after code that fits the limit. -/
theorem code_closed_iff {n : Nat} :
    Balance.code depth limit cs = .closed n ↔
      (∃ k, Nested .code k (cs.take n) ∧ Fits limit depth k) ∧ cs[n]? = some '}' := by
  rw [take_getElem?_iff (P := fun span => ∃ k, Nested .code k span ∧ Fits limit depth k)]
  constructor
  · intro h
    rcases scan_limitedTo (looser_unlimited limit) depth [.code 0] cs with ⟨m, hm⟩ | hfree
    · exact absurd (h.symm.trans hm) (by simp)
    have h0 : scan 0 depth [.code 0] cs = .closed n := hfree.symm.trans h
    by_cases hclose : ClosesCode cs
    · obtain ⟨code, rest, ⟨k, hk⟩, rfl⟩ := hclose
      by_cases hfit : Fits limit depth k
      · rw [hk.code_closed hfit] at h
        exact ⟨code, rest, ⟨k, hk, hfit⟩, rfl, Scan.closed.inj h⟩
      · obtain ⟨m, hm⟩ := hk.code_tooDeep hfit rest
        exact absurd (h.symm.trans hm) (by simp)
    · exact absurd (h0.symm.trans (scan_openCode hclose 0)) (by simp)
  · rintro ⟨code, rest, ⟨k, hk, hfit⟩, rfl, rfl⟩
    exact hk.code_closed hfit

/-- Without a limit nothing is too deep. -/
theorem text_unlimited_ne_tooDeep (cs : List Char) (n : Nat) :
    text depth 0 cs ≠ .stopped n .tooDeep := by
  intro h
  cases bodyOutcome cs with
  | closed rest hb =>
    obtain ⟨k, hk⟩ := hb
    rw [hk.text_closed (fits_unlimited depth k)] at h
    cases h
  | broken ho => exact absurd (h.symm.trans (scan_openBody ho)) (by simp [missing])
  | stuck hb hr => exact absurd (h.symm.trans (scan_stuckBody hb hr)) (by simp)

/-- A body has one depth: a limit between two depths would both stop a scan and not stop it. -/
theorem Nested.depth_le {j k : Nat} {body : List Char} (hj : Nested .body j body)
    (hk : Nested .body k body) : k ≤ j := by
  rcases Nat.lt_or_ge j k with hlt | hle
  · -- from depth 1 - j the limit 1 leaves room for j levels and no more
    have hfit : Fits 1 (1 - j) j := .inr (.inr (by omega))
    have hnot : ¬Fits 1 (1 - j) k := by
      unfold Fits
      omega
    obtain ⟨n, hn⟩ := hk.text_tooDeep hnot []
    rw [hj.text_closed hfit] at hn
    cases hn
  · exact hle

/-- Without a limit the two scans accept exactly the grammar of literals, and a scan that finds no
end says what was left open: only a literal whose blocks are all closed is an unterminated
literal. -/
theorem unlimited_scans_follow_grammar (cs : List Char) :
    (∀ n, text 0 0 cs = .closed n ↔ IsBody (cs.take n) ∧ cs[n]? = some '"') ∧
    (∀ n, code 1 0 cs = .closed n ↔ IsCode (cs.take n) ∧ cs[n]? = some '}') ∧
    ((¬∃ n, IsBody (cs.take n) ∧ cs[n]? = some '"') →
      (IsOpenBody cs → text 0 0 cs = .stopped cs.length .unterminatedText) ∧
      (¬IsOpenBody cs → text 0 0 cs = .stopped cs.length .unterminatedInterpolation)) ∧
    ((¬∃ n, IsCode (cs.take n) ∧ cs[n]? = some '}') →
      code 1 0 cs = .stopped cs.length .unterminatedInterpolation) := by
  refine ⟨fun n => ?_, fun n => ?_, ?_, ?_⟩
  · simp only [text_closed_iff, fits_unlimited, and_true, IsBody]
  · simp only [code_closed_iff, fits_unlimited, and_true, IsCode]
  · intro hno
    refine ⟨fun ho => scan_openBody ho, fun ho => ?_⟩
    cases bodyOutcome cs with
    | @closed body rest hb => exact absurd ⟨body.length, by simpa using hb⟩ hno
    | broken hb => exact absurd hb ho
    | stuck hb hr => exact scan_stuckBody hb hr
  · intro hno
    refine scan_openCode ?_ 0
    rintro ⟨code, rest, hc, rfl⟩
    exact hno ⟨code.length, by simpa using hc⟩

end TextScript
