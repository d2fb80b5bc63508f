/-
TextScript/Proofs/DepthLimit.lean

The nesting limit, exactly.

A literal whose interpolations nest `k` deep passes a limit `m` exactly if `k ≤ m`, and the three
stages that look at it agree on this: the scanner, which counts from the depth it is given; the
lexer, which starts the scanner at depth 0; and the reader of interpolations, which enters the
scanner inside of a block, at depth 1.

A scanner that counts in words computes a sum for each block it opens.  Below the limit none of
these sums overflows (`mayOpen_of_within`); beyond it none does unless the depth that the scan
starts from or the limit is the greatest word (`not_mayOpen_of_beyond`).
-/
import TextScript.Proofs.Literals
import TextScript.Proofs.Ranges
import TextScript.Proofs.Tokens

namespace TextScript

open Balance

/-! ### Depths as words -/

variable {d m : Int64} {k n : Nat} {cs : List Char}

theorem word_depth_back (e : Int64) : e + 1 - 1 = e := Int64.add_sub_cancel e 1

/-- The depth of a block is exact unless it is beyond all words. -/
theorem toInt_succ_depth (h : d.toInt < Int64.maxValue.toInt) : (d + 1).toInt = d.toInt + 1 := by
  have hlow : Int64.minValue.toInt ≤ d.toInt := Int64.minValue_le_toInt d
  rw [Int64.toInt_minValue] at hlow
  rw [Int64.toInt_maxValue] at h
  rw [Range.toInt_add_of_fits] <;> rw [Int64.toInt_one] <;> omega

theorem opens_iff (hm : 1 ≤ m.toInt) (h : d.toInt < Int64.maxValue.toInt) :
    ¬(0 < m ∧ m < d + 1) ↔ d.toInt + 1 ≤ m.toInt := by
  rw [Int64.lt_iff_toInt_lt, Int64.lt_iff_toInt_lt, toInt_succ_depth h, Int64.toInt_zero]
  omega

/-- Up to the limit all blocks may be opened. -/
theorem mayOpen_of_within (hm : 1 ≤ m.toInt) (h : k = 0 ∨ d.toInt + k ≤ m.toInt) :
    MayOpen m d k := by
  induction k generalizing d with
  | zero => exact trivial
  | succ k ih =>
    have hk : d.toInt + (k + 1) ≤ m.toInt := by simpa using h
    have hmax : m.toInt ≤ Int64.maxValue.toInt := Int64.toInt_le m
    have hd : d.toInt < Int64.maxValue.toInt := by omega
    refine ⟨(opens_iff hm hd).mpr (by omega), ih (.inr ?_)⟩
    rw [toInt_succ_depth hd]
    omega

/-- Beyond the limit some block may not be opened, if no depth on the way overflows: a depth that
is reached is at most the limit or the one that the scan starts from. -/
theorem not_mayOpen_of_beyond (hm : 1 ≤ m.toInt) (h : ¬(k = 0 ∨ d.toInt + k ≤ m.toInt))
    (hd : d.toInt < Int64.maxValue.toInt) (hlimit : m.toInt < Int64.maxValue.toInt) :
    ¬MayOpen m d k := by
  induction k generalizing d with
  | zero => exact absurd (.inl rfl) h
  | succ k ih =>
    rintro ⟨hopen, hrest⟩
    have hle : d.toInt + 1 ≤ m.toInt := (opens_iff hm hd).mp hopen
    refine ih (d := d + 1) ?_ ?_ hrest <;> rw [toInt_succ_depth hd] <;> omega

/-- Without a limit it makes no difference what depths are. -/
theorem scan_unlimited (d : Int64) (depth : Int) (stack : List Enclosure) (cs : List Char) :
    scan 0 d stack cs = scan 0 depth stack cs := by
  fun_induction scan 0 d stack cs generalizing depth with
  | case1 d stack => rw [scan_nil]
  | case2 d c cs => rw [scan.eq_def]
  | case3 d outer => rw [scan_text_backslash]
  | case4 d outer c cs ih => rw [scan_text_escape, ih]
  | case5 d cs => rw [scan_text_quote]
  | case6 d outer cs ho _ ih => rw [scan_text_quote_outer ho, ih]
  | case7 d outer cs hdeep => exact absurd hdeep.1 (by decide)
  | case8 d outer cs _ _ _ ih => rw [scan_text_block (by simp), ih]
  | case9 d outer cs hcs hb hq ih =>
    have hi : ¬('#' = '#' ∧ cs.head? = some '{') := by
      rintro ⟨-, hh⟩
      obtain ⟨ds, rfl⟩ := List.head?_eq_some_iff.mp hh
      exact hcs ds rfl
    rw [scan_text_char hb hq hi, ih]
  | case10 d outer c cs hb hq hi ih => rw [scan_text_char hb hq fun h => hi h.1, ih]
  | case11 d n outer cs ih => rw [scan_code_quote, ih]
  | case12 d n outer cs _ ih => rw [scan_code_open, ih]
  | case13 d cs => rw [scan_code_close]
  | case14 d cs outer ho _ _ ih => rw [scan_code_close_outer ho, ih]
  | case15 d cs n outer _ _ ih => rw [scan_code_inner, ih]
  | case16 d n outer c cs hq ho hc ih => rw [scan_code_char hq ho hc, ih]

/-- What becomes of a scan from depth `d` that closes after `n` characters and passes over blocks
that nest `k` deep, once it has the limit `m`.  What is beyond the limit is too deep if neither the
depth after `d` nor the one after `m` overflows; otherwise nothing is said of it. -/
structure LimitVerdict (d m : Int64) (k n : Nat) (s : Scan) : Prop where
  within : k = 0 ∨ d.toInt + k ≤ m.toInt → s = .closed n
  beyond : ¬(k = 0 ∨ d.toInt + k ≤ m.toInt) → d.toInt + 1 ≤ Int64.maxValue.toInt →
    m.toInt + 1 ≤ Int64.maxValue.toInt → ∃ i, s = .stopped i .tooDeep

/-- A limit makes the verdict on a region whose delimiter would close the scan. -/
theorem Nested.limitVerdict {r : Region} {stack : List Enclosure} {span rest : List Char}
    (h : Nested r k span) (hin : Inside r stack) (hsep : Separate r rest) (hm : 1 ≤ m.toInt)
    (hclose : scan m d stack rest = .closed 0) :
    LimitVerdict d m k span.length (scan m d stack (span ++ rest)) where
  within hk := by
    rw [h.scan_append word_depth_back hin hsep (mayOpen_of_within hm hk), hclose,
      Scan.shift_closed, Nat.zero_add]
  beyond hk hd hlimit :=
    h.scan_tooDeep word_depth_back hin hsep (not_mayOpen_of_beyond hm hk hd hlimit)

/-- A limit makes the verdict on a scan of the body of a literal. -/
theorem textAt_verdict (hm : 1 ≤ m.toInt) (h : textAt d 0 cs = .closed n)
    (hspan : Nested .body k (cs.take n)) : LimitVerdict d m k n (textAt d m cs) := by
  have hfree : Balance.text 0 0 cs = .closed n := (scan_unlimited d 0 [.text] cs).symm.trans h
  obtain ⟨-, hq⟩ := text_closed_iff.mp hfree
  obtain ⟨body, rest, hbody, rfl, rfl⟩ :=
    (take_getElem?_iff (P := fun span => Nested .body k span)).mp ⟨hspan, hq⟩
  exact hbody.limitVerdict (.body []) (separate_quote _ _) hm scan_text_quote

/-- A limit makes the verdict on a scan of the code of an interpolation. -/
theorem codeAt_verdict (hm : 1 ≤ m.toInt) (h : codeAt d 0 cs = .closed n)
    (hspan : Nested .code k (cs.take n)) : LimitVerdict d m k n (codeAt d m cs) := by
  have hfree : Balance.code 0 0 cs = .closed n := (scan_unlimited d 0 [.code 0] cs).symm.trans h
  obtain ⟨-, hq⟩ := code_closed_iff.mp hfree
  obtain ⟨code, rest, hcode, rfl, rfl⟩ :=
    (take_getElem?_iff (P := fun span => Nested .code k span)).mp ⟨hspan, hq⟩
  exact hcode.limitVerdict (.code 0 []) (separate_code _) hm scan_code_close

/-! ### Literals -/

theorem fits_iff {limit : Int} (h : 1 ≤ limit) : Fits limit 0 k ↔ (k : Int) ≤ limit := by
  unfold Fits
  omega

/-- A reader that never fails reads every code. -/
theorem readCode_total {reader : CodeReader} (h : ∀ code q, ∃ e, (reader code q).result = .ok e)
    (tok : Token) (code : String) (q : Position) :
    ∃ e, (Interpolation.readCode (some reader) tok code q).result = .ok e := by
  unfold Interpolation.readCode
  split
  · exact ⟨_, rfl⟩
  · obtain ⟨e, he⟩ := h code q
    exact ⟨e, (Traced.result_bind _ _).trans he⟩

/-- With valid escapes and a reader that never fails, a literal is refused exactly beyond the
limit. -/
theorem read_limited {limit : Int} {tok : Token} {segs codes : List (List Char)}
    {reader : CodeReader} (hsplit : Split k tok.lit.toList segs codes)
    (hdec : ∀ seg ∈ segs, ∃ t, Escape.decode seg = .ok t)
    (hread : ∀ code q, ∃ e, (reader code q).result = .ok e) :
    (Fits limit 0 k → ∃ e, (Interpolation.read (some reader) limit tok).result = .ok e) ∧
    (¬Fits limit 0 k →
      (Interpolation.read (some reader) limit tok).result =
        .error (tooDeepAt limit tok.place)) := by
  have hsound : Sound (some reader) tok segs codes := by
    refine ⟨fun seg hseg q => ?_, fun code _ q => readCode_total hread tok _ q⟩
    obtain ⟨t, ht⟩ := hdec seg hseg
    exact ⟨t, decodeAt_moved ht q⟩
  constructor
  · intro hfit
    obtain ⟨parts, hparts⟩ := hsplit.readParts_ok hsound hfit
    exact read_ok_of_parts hparts
  · intro hfit
    exact read_error_iff.mpr (hsplit.readParts_tooDeep hsound hfit)

/-! ### The three stages -/

/-- The limit is exact at every stage.  A scan that would close is closed at the same place or too
deep, as long as no depth it computes overflows; a whole literal is one token or an illegal one
that is placed at its quote; and the reader of its interpolations accepts the body or refuses it
at the place of the literal. -/
theorem depth_limit_exact :
    (∀ (d m : Int64) (cs : List Char) (n k : Nat), 1 ≤ m.toInt →
      (textAt d 0 cs = .closed n → Nested .body k (cs.take n) →
        LimitVerdict d m k n (textAt d m cs)) ∧
      (codeAt d 0 cs = .closed n → Nested .code k (cs.take n) →
        LimitVerdict d m k n (codeAt d m cs))) ∧
    (∀ (m : Int) (k : Nat) (body rest : List Char) (p : Position), 1 ≤ m → Nested .body k body →
      (k ≤ m → (Lexer.tokens m p ('"' :: (body ++ '"' :: rest))).head?
        = some { kind := .text, lit := String.ofList body, place := p }) ∧
      (m < k → ∃ lit, (Lexer.tokens m p ('"' :: (body ++ '"' :: rest))).head?
        = some { kind := .illegal, lit, place := p, fault := some (tooDeepAt m p) })) ∧
    ∀ (m : Int) (k : Nat) (tok : Token) (segs codes : List (List Char)) (reader : CodeReader),
      1 ≤ m → Split k tok.lit.toList segs codes → (∀ seg ∈ segs, ∃ t, Escape.decode seg = .ok t) →
      (∀ code q, ∃ e, (reader code q).result = .ok e) →
      (k ≤ m → ∃ e, (Interpolation.read (some reader) m tok).result = .ok e) ∧
      (m < k → (Interpolation.read (some reader) m tok).result =
        .error (tooDeepAt m tok.place)) := by
  refine ⟨fun d m cs n k hm => ⟨textAt_verdict hm, codeAt_verdict hm⟩, ?_, ?_⟩
  · intro m k body rest p hm hbody
    refine ⟨fun hle => ?_, fun hlt => ?_⟩
    · rw [hbody.tokens ((fits_iff hm).mpr hle)]
      rfl
    · obtain ⟨lit, toks, htokens⟩ :=
        hbody.tokens_tooDeep (fun hfit => by have := (fits_iff hm).mp hfit; omega) p rest
      rw [htokens]
      exact ⟨lit, rfl⟩
  · intro m k tok segs codes reader hm hsplit hdec hread
    obtain ⟨hok, hdeep⟩ := read_limited hsplit hdec hread
    refine ⟨fun hle => hok ((fits_iff hm).mpr hle), fun hlt => hdeep fun hfit => ?_⟩
    have := (fits_iff hm).mp hfit
    omega

/-- One block under the limit 1: too deep for a scan that begins at depth 1, a token for the lexer,
and accepted by a reader of interpolations. -/
theorem depth_limit_exact_one_block :
    (∃ i, textAt 1 1 ['#', '{', 'a', '}', '"'] = .stopped i .tooDeep) ∧
    (Lexer.tokens 1 {} ('"' :: (['#', '{', 'a', '}'] ++ ['"']))).head?
      = some { kind := .text, lit := String.ofList ['#', '{', 'a', '}'], place := {} } ∧
    ∃ e, (Interpolation.read (some fun _ _ => .ok (.foreign "")) 1
      { kind := .text, lit := String.ofList ['#', '{', 'a', '}'] }).result = .ok e := by
  have hcode : Nested .code 0 ['a'] := .codeChar (by decide) (by decide) (by decide) .codeEnd
  have hbody : Nested .body 1 ['#', '{', 'a', '}'] := .bodyBlock hcode .bodyEnd
  have hsplit : Split 1 (String.ofList ['#', '{', 'a', '}']).toList [[], []] [['a']] := by
    rw [String.toList_ofList]
    exact .block .bodyEnd hcode (.last .bodyEnd)
  have hdec : ∀ seg ∈ ([[], []] : List (List Char)), ∃ t, Escape.decode seg = .ok t := by
    intro seg hseg
    obtain rfl : seg = [] := by simpa using hseg
    exact ⟨.empty, decodeAt_nil {}⟩
  obtain ⟨hscan, hlex, hread⟩ := depth_limit_exact
  refine ⟨?_, ?_, ?_⟩
  · have hverdict := (hscan 1 1 ['#', '{', 'a', '}', '"'] 4 1 (by decide)).1 (by decide) hbody
    exact hverdict.beyond (by decide) (by decide) (by decide)
  · exact (hlex 1 1 ['#', '{', 'a', '}'] [] {} (by decide) hbody).1 (by decide)
  · exact (hread 1 1 _ _ _ _ (by decide) hsplit hdec fun _ _ => ⟨_, rfl⟩).1 (by decide)

/-- The verdict needs its condition: the depth after the greatest word is the least one, and a block
that is opened there passes the limit 1. -/
theorem greatest_depth_not_limited :
    ¬∀ (d m : Int64) (cs : List Char) (n k : Nat), 1 ≤ m.toInt → textAt d 0 cs = .closed n →
      Nested .body k (cs.take n) → ¬(k = 0 ∨ d.toInt + k ≤ m.toInt) →
      ∃ i, textAt d m cs = .stopped i .tooDeep := by
  intro h
  have hbody : Nested .body 1 ['#', '{', 'a', '}'] :=
    .bodyBlock (.codeChar (by decide) (by decide) (by decide) .codeEnd) .bodyEnd
  obtain ⟨i, hi⟩ := h Int64.maxValue 1 ['#', '{', 'a', '}', '"'] 4 1 (by decide) (by decide) hbody
    (by decide)
  have hclosed : textAt Int64.maxValue 1 ['#', '{', 'a', '}', '"'] = .closed 4 := by decide
  rw [hclosed] at hi
  cases hi

end TextScript
