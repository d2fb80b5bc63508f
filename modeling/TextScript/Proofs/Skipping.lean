/-
TextScript/Proofs/Skipping.lean

The scan of a literal as two walks that call each other.

One walk skips the body of a literal and the other the code of an interpolation; where a body
opens a block the first calls the second, and where code begins a literal the second calls the
first.  A walk is a loop of turns over an index, and each turn stops the walk or goes on from
another index.  Nothing bounds the calls, so the walks are given a budget: every call and every
turn takes one of it.

A walk that stays within its budget comes to what the scanner comes to, which keeps a stack where
the walks call each other (`skips_sound`).  Every turn goes on from a later index, so a budget for
each character that is left, and one more, is always enough (`skips_within`).
-/
import TextScript.Proofs.Balance

namespace TextScript

/-- What one turn of a loop does. -/
inductive Turn (σ α : Type) where
  /-- The loop ends. -/
  | stop (s : σ)
  /-- The loop goes on from here. -/
  | goOn (next : α)

namespace Balance

variable {limit depth : Int} {src : List Char} {i j n inner : Nat} {c : Char} {s : Scan}
variable {outer : List Enclosure}

/-! ### The walks -/

/-- One turn of the walk over a body, at index `i`; `block` skips a block that begins at an
index. -/
def textTurn (limit depth : Int) (src : List Char) (block : Nat → Option Scan) (i : Nat) :
    Option (Turn Scan Nat) :=
  match src[i]? with
  | none => some (.stop (.stopped src.length .unterminatedText))
  | some c =>
    if c = '\\' then some (.goOn (i + 2))
    else if c = '"' then some (.stop (.closed i))
    else if c = '#' ∧ src[i + 1]? = some '{' then
      if 0 < limit ∧ limit < depth + 1 then some (.stop (.stopped i .tooDeep))
      else (block (i + 2)).map fun
        | .closed k => .goOn (k + 1)
        | .stopped k why => .stop (.stopped k why)
    else some (.goOn (i + 1))

/-- One turn of the walk over code, at index `i` and with `inner` braces open besides the first;
`literal` skips a body that begins at an index. -/
def codeTurn (src : List Char) (literal : Nat → Option Scan) (i inner : Nat) :
    Option (Turn Scan (Nat × Nat)) :=
  match src[i]? with
  | none => some (.stop (.stopped src.length .unterminatedInterpolation))
  | some c =>
    if c = '"' then
      (literal (i + 1)).map fun
        | .closed k => .goOn (k + 1, inner)
        | .stopped _ .unterminatedText => .stop (.stopped src.length .unterminatedInterpolation)
        | .stopped k why => .stop (.stopped k why)
    else if c = '{' then some (.goOn (i + 1, inner + 1))
    else if c = '}' then
      match inner with
      | 0 => some (.stop (.closed i))
      | inner + 1 => some (.goOn (i + 1, inner))
    else some (.goOn (i + 1, inner))

mutual

/-- Walks over the body of a literal in `src`, from index `i`. -/
def skipText (limit : Int) (src : List Char) : (budget : Nat) → Int → Nat → Option Scan
  | 0, _, _ => none
  | n + 1, depth, i =>
    (textTurn limit depth src (fun j => skipCode limit src n (depth + 1) j 0) i).bind fun
      | .stop s => some s
      | .goOn j => skipText limit src n depth j

/-- Walks over the code of an interpolation in `src`, from index `i`. -/
def skipCode (limit : Int) (src : List Char) : (budget : Nat) → Int → Nat → Nat → Option Scan
  | 0, _, _, _ => none
  | n + 1, depth, i, inner =>
    (codeTurn src (fun j => skipText limit src n depth j) i inner).bind fun
      | .stop s => some s
      | .goOn (j, inner) => skipCode limit src n depth j inner

end

/-! ### The scanner at an index -/

/-- The scan from index `i` on, ended by an index; nothing is left from an index beyond the end. -/
def scanFrom (limit : Int) (src : List Char) (depth : Int) (stack : List Enclosure)
    (i : Nat) : Scan :=
  (scan limit depth stack (src.drop i)).shift (min i src.length)

/-- What an ended walk comes to inside of more enclosures: behind the closing character these are
read on, and a literal that breaks off is not open alone. -/
def leave (limit : Int) (src : List Char) (depth : Int) (outer : List Enclosure) : Scan → Scan
  | .closed k =>
    match outer with
    | [] => .closed k
    | _ => scanFrom limit src depth outer (k + 1)
  | .stopped k .unterminatedText => .stopped k (missing (.text :: outer))
  | .stopped k why => .stopped k why

theorem leave_nil (s : Scan) : leave limit src depth [] s = s := by
  cases s with
  | closed => rfl
  | stopped k why => cases why <;> rfl

theorem leave_stopped {why : Unbalanced} (h : why ≠ .unterminatedText) :
    leave limit src depth outer (.stopped j why) = .stopped j why := by
  cases why with
  | unterminatedText => exact absurd rfl h
  | unterminatedInterpolation => rfl
  | tooDeep => rfl

theorem drop_of_getElem? (hc : src[i]? = some c) :
    i < src.length ∧ src.drop i = c :: src.drop (i + 1) := by
  obtain ⟨hi, rfl⟩ := List.getElem?_eq_some_iff.mp hc
  exact ⟨hi, List.drop_eq_getElem_cons hi⟩

theorem scanFrom_end {stack : List Enclosure} (hc : src[i]? = none) :
    scanFrom limit src depth stack i = .stopped src.length (missing stack) := by
  have hlen : src.length ≤ i := List.getElem?_eq_none_iff.mp hc
  rw [scanFrom, List.drop_eq_nil_of_le hlen, scan_nil, Scan.shift_stopped, Nat.min_eq_right hlen,
    Nat.zero_add]

/-- One character passed. -/
theorem scanFrom_next {stack stack' : List Enclosure} {depth' : Int} (hc : src[i]? = some c)
    (h : ∀ cs, cs.head? = src[i + 1]? →
      scan limit depth stack (c :: cs) = (scan limit depth' stack' cs).shift 1) :
    scanFrom limit src depth stack i = scanFrom limit src depth' stack' (i + 1) := by
  obtain ⟨hi, hdrop⟩ := drop_of_getElem? hc
  have hmin : 1 + min i src.length = min (i + 1) src.length := by omega
  rw [scanFrom, hdrop, h _ (by rw [List.head?_drop]), Scan.shift_shift, hmin]
  rfl

/-- Two characters passed. -/
theorem scanFrom_next_two {stack stack' : List Enclosure} {depth' : Int} {d : Char}
    (hc : src[i]? = some c) (hd : src[i + 1]? = some d)
    (h : ∀ cs, scan limit depth stack (c :: d :: cs) = (scan limit depth' stack' cs).shift 2) :
    scanFrom limit src depth stack i = scanFrom limit src depth' stack' (i + 2) := by
  obtain ⟨hi, hdrop⟩ := drop_of_getElem? hd
  have hmin : 2 + min i src.length = min (i + 2) src.length := by omega
  rw [scanFrom, (drop_of_getElem? hc).2, hdrop, h, Scan.shift_shift, hmin]
  rfl

/-- The scan ends at a character. -/
theorem scanFrom_stop {stack : List Enclosure} {r : Scan} (hc : src[i]? = some c)
    (h : ∀ cs, cs.head? = src[i + 1]? → scan limit depth stack (c :: cs) = r) :
    scanFrom limit src depth stack i = r.shift i := by
  obtain ⟨hi, hdrop⟩ := drop_of_getElem? hc
  rw [scanFrom, hdrop, h _ (by rw [List.head?_drop]), Nat.min_eq_left (Nat.le_of_lt hi)]

/-- A backslash hides the character behind it, if there is one. -/
theorem scanFrom_escape (hc : src[i]? = some '\\') :
    scanFrom limit src depth (.text :: outer) i =
      scanFrom limit src depth (.text :: outer) (i + 2) := by
  rcases hd : src[i + 1]? with - | d
  · have hend : src[i + 2]? = none :=
      List.getElem?_eq_none_iff.mpr (Nat.le_succ_of_le (List.getElem?_eq_none_iff.mp hd))
    have hlen : src.length = i + 1 :=
      Nat.le_antisymm (List.getElem?_eq_none_iff.mp hd) (drop_of_getElem? hc).1
    have hstop : scanFrom limit src depth (.text :: outer) i
        = (Scan.stopped 1 (missing (.text :: outer))).shift i := by
      refine scanFrom_stop hc fun cs hcs => ?_
      rw [hd, List.head?_eq_none_iff] at hcs
      rw [hcs, scan_text_backslash]
    rw [hstop, scanFrom_end hend, hlen, Scan.shift_stopped, Nat.add_comm]
  · exact scanFrom_next_two hc hd fun _ => scan_text_escape

/-- A block beyond the limit is where the scan stops. -/
theorem scanFrom_tooDeep (hc : src[i]? = some '#') (hbrace : src[i + 1]? = some '{')
    (hdeep : 0 < limit ∧ limit < depth + 1) :
    scanFrom limit src depth (.text :: outer) i = .stopped i .tooDeep := by
  have hscan : ∀ cs, cs.head? = src[i + 1]? →
      scan limit depth (.text :: outer) ('#' :: cs) = .stopped 0 .tooDeep := by
    intro cs hcs
    obtain ⟨rest, rfl⟩ := List.head?_eq_some_iff.mp (hcs.trans hbrace)
    exact scan_text_block_tooDeep hdeep
  rw [scanFrom_stop hc hscan, Scan.shift_stopped, Nat.zero_add]

/-- A scan ends where it began or later. -/
theorem le_scanFrom_count (stack : List Enclosure) (i : Nat) :
    min i src.length ≤ (scanFrom limit src depth stack i).count := by
  unfold scanFrom
  cases scan limit depth stack (src.drop i) with
  | closed k => exact Nat.le_add_left _ _
  | stopped k why => exact Nat.le_add_left _ _

/-- A scan passes no more characters than there are. -/
theorem scan_count_le (limit depth : Int) (stack : List Enclosure) (cs : List Char) :
    (scan limit depth stack cs).count ≤ cs.length := by
  have shifted {s : Scan} {m k : Nat} (h : s.count ≤ m) : (s.shift k).count ≤ m + k := by
    cases s <;> exact Nat.add_le_add_right h k
  fun_induction scan limit depth stack cs <;>
    first
    | exact Nat.zero_le _
    | exact Nat.le_refl _
    | (rename_i ih; exact shifted ih)

/-! ### The walks are the scan -/

/-- A walk over a body from index `i` may end with `s`: that is how a scan goes on from there, with
the literal inside of whatever else. -/
structure SkipsText (limit : Int) (src : List Char) (depth : Int) (i : Nat) (s : Scan) : Prop where
  scan : ∀ outer, scanFrom limit src depth (.text :: outer) i = leave limit src depth outer s
  at_end : ∀ k, s = .stopped k .unterminatedText → k = src.length

/-- A walk over code from index `i`, with `inner` braces open besides the first, may end with
`s`. -/
structure SkipsCode (limit : Int) (src : List Char) (depth : Int) (i inner : Nat) (s : Scan) :
    Prop where
  scan : ∀ outer,
    scanFrom limit src depth (.code inner :: outer) i = leave limit src (depth - 1) outer s
  not_text : ∀ k, s ≠ .stopped k .unterminatedText

theorem SkipsText.le_count (h : SkipsText limit src depth i s) : min i src.length ≤ s.count := by
  have hscan := h.scan []
  rw [leave_nil] at hscan
  rw [← hscan]
  exact le_scanFrom_count _ i

theorem SkipsCode.le_count (h : SkipsCode limit src depth i inner s) :
    min i src.length ≤ s.count := by
  have hscan := h.scan []
  rw [leave_nil] at hscan
  rw [← hscan]
  exact le_scanFrom_count _ i

/-- A turn of the walk over a body is sound, and goes on from a later index, if `block` is sound. -/
theorem textTurn_sound {block : Nat → Option Scan} {t : Turn Scan Nat}
    (hblock : ∀ j s, block j = some s → SkipsCode limit src (depth + 1) j 0 s)
    (h : textTurn limit depth src block i = some t) :
    match t with
    | .stop s => SkipsText limit src depth i s
    | .goOn j => i < j ∧ i < src.length ∧ ∀ outer,
        scanFrom limit src depth (.text :: outer) i =
          scanFrom limit src depth (.text :: outer) j := by
  have stops {s : Scan} (hs : ∀ k, s ≠ .stopped k .unterminatedText)
      (h : ∀ outer, scanFrom limit src depth (.text :: outer) i = leave limit src depth outer s) :
      SkipsText limit src depth i s := ⟨h, fun k hk => absurd hk (hs k)⟩
  unfold textTurn at h
  split at h
  · next hc =>
    cases h
    exact ⟨fun outer => scanFrom_end hc, fun k hk => by cases hk; rfl⟩
  next c hc =>
  have hi := (drop_of_getElem? hc).1
  split at h
  · next hb =>
    subst hb
    cases h
    exact ⟨by omega, hi, fun outer => scanFrom_escape hc⟩
  split at h
  · next hq =>
    subst hq
    cases h
    refine stops (by simp) fun outer => ?_
    cases outer with
    | nil =>
      rw [scanFrom_stop hc fun _ _ => scan_text_quote, Scan.shift_closed, Nat.zero_add]
      rfl
    | cons f rest => exact scanFrom_next hc fun _ _ => scan_text_quote_outer (List.cons_ne_nil _ _)
  split at h
  · next hopen =>
    obtain ⟨rfl, hbrace⟩ := hopen
    split at h
    · next hdeep =>
      cases h
      exact stops (by simp) fun outer => scanFrom_tooDeep hc hbrace hdeep
    next hlevel =>
    -- into the block one level down, and out of it at its brace
    obtain ⟨s, hs, rfl⟩ := Option.map_eq_some_iff.mp h
    have hskip := hblock (i + 2) s hs
    have hle := hskip.le_count
    have hbound := (drop_of_getElem? hbrace).1
    have hscan (outer : List Enclosure) : scanFrom limit src depth (.text :: outer) i
        = leave limit src depth (.text :: outer) s := by
      rw [scanFrom_next_two hc hbrace fun _ => scan_text_block hlevel, hskip.scan,
        Int.add_sub_cancel]
    cases s with
    | closed k =>
      have hk : i + 2 ≤ k := Nat.le_trans (by omega) hle
      exact ⟨by omega, hi, hscan⟩
    | stopped k why =>
      have hwhy : why ≠ .unterminatedText := fun he => hskip.not_text k (by rw [he])
      refine stops hskip.not_text fun outer => ?_
      rw [hscan, leave_stopped hwhy, leave_stopped hwhy]
  · next hb hq hblock =>
    cases h
    refine ⟨Nat.lt_succ_self i, hi, fun outer => scanFrom_next hc fun cs hcs => ?_⟩
    exact scan_text_char hb hq (by rwa [hcs])

/-- A turn of the walk over code is sound, and goes on from a later index, if `literal` is sound. -/
theorem codeTurn_sound {literal : Nat → Option Scan} {t : Turn Scan (Nat × Nat)}
    (hliteral : ∀ j s, literal j = some s → SkipsText limit src depth j s)
    (h : codeTurn src literal i inner = some t) :
    match t with
    | .stop s => SkipsCode limit src depth i inner s
    | .goOn (j, inner') => i < j ∧ i < src.length ∧ ∀ outer,
        scanFrom limit src depth (.code inner :: outer) i
          = scanFrom limit src depth (.code inner' :: outer) j := by
  unfold codeTurn at h
  split at h
  · next hc =>
    cases h
    exact ⟨fun outer => scanFrom_end hc, by simp⟩
  next c hc =>
  have hi := (drop_of_getElem? hc).1
  split at h
  · next hq =>
    subst hq
    -- the literal is read inside of the code
    obtain ⟨s, hs, rfl⟩ := Option.map_eq_some_iff.mp h
    have hskip := hliteral (i + 1) s hs
    have hle := hskip.le_count
    have hscan (outer : List Enclosure) : scanFrom limit src depth (.code inner :: outer) i
        = leave limit src depth (.code inner :: outer) s := by
      rw [scanFrom_next hc fun _ _ => scan_code_quote, hskip.scan]
    cases s with
    | closed k =>
      have hk : i + 1 ≤ k := Nat.le_trans (by omega) hle
      exact ⟨by omega, hi, hscan⟩
    | stopped k why =>
      cases why with
      | unterminatedText =>
        obtain rfl := hskip.at_end k rfl
        exact ⟨hscan, by simp⟩
      | unterminatedInterpolation => exact ⟨hscan, by simp⟩
      | tooDeep => exact ⟨hscan, by simp⟩
  split at h
  · next ho =>
    subst ho
    cases h
    exact ⟨Nat.lt_succ_self i, hi, fun outer => scanFrom_next hc fun _ _ => scan_code_open⟩
  split at h
  · next hclose =>
    subst hclose
    cases inner with
    | succ inner =>
      cases h
      exact ⟨Nat.lt_succ_self i, hi, fun outer => scanFrom_next hc fun _ _ => scan_code_inner⟩
    | zero =>
      cases h
      refine ⟨fun outer => ?_, by simp⟩
      cases outer with
      | nil =>
        rw [scanFrom_stop hc fun _ _ => scan_code_close, Scan.shift_closed, Nat.zero_add]
        rfl
      | cons f rest =>
        exact scanFrom_next hc fun _ _ => scan_code_close_outer (List.cons_ne_nil _ _)
  · next hq ho hclose =>
    cases h
    exact ⟨Nat.lt_succ_self i, hi,
      fun outer => scanFrom_next hc fun _ _ => scan_code_char hq ho hclose⟩

/-- Walks that stay within their budget are sound. -/
theorem skips_sound (limit : Int) (src : List Char) (n : Nat) :
    (∀ depth i s, skipText limit src n depth i = some s → SkipsText limit src depth i s) ∧
    (∀ depth i inner s, skipCode limit src n depth i inner = some s →
      SkipsCode limit src depth i inner s) := by
  induction n with
  | zero => exact ⟨fun _ _ _ h => by simp [skipText] at h, fun _ _ _ _ h => by simp [skipCode] at h⟩
  | succ n ih =>
    obtain ⟨htext, hcode⟩ := ih
    refine ⟨fun depth i s h => ?_, fun depth i inner s h => ?_⟩
    · rw [skipText, Option.bind_eq_some_iff] at h
      obtain ⟨t, ht, h⟩ := h
      have hturn := textTurn_sound (fun j s hs => hcode (depth + 1) j 0 s hs) ht
      cases t with
      | stop s' =>
        cases h
        exact hturn
      | goOn j =>
        -- this turn, and behind it the walk of the smaller budget
        have hrest := htext depth j s h
        exact ⟨fun outer => (hturn.2.2 outer).trans (hrest.scan outer), hrest.at_end⟩
    · rw [skipCode, Option.bind_eq_some_iff] at h
      obtain ⟨t, ht, h⟩ := h
      have hturn := codeTurn_sound (fun j s hs => htext depth j s hs) ht
      cases t with
      | stop s' =>
        cases h
        exact hturn
      | goOn next =>
        have hrest := hcode depth next.1 next.2 s h
        exact ⟨fun outer => (hturn.2.2 outer).trans (hrest.scan outer), hrest.not_text⟩

/-! ### The budget -/

/-- A turn of the walk over a body ends if the walk that it calls does. -/
theorem textTurn_ne_none {block : Nat → Option Scan}
    (hblock : i + 1 < src.length → block (i + 2) ≠ none) :
    textTurn limit depth src block i ≠ none := by
  unfold textTurn
  split
  · simp
  split
  · simp
  split
  · simp
  split
  · next hopen =>
    have hcall := hblock (drop_of_getElem? hopen.2).1
    split
    · simp
    · simpa using hcall
  · simp

theorem codeTurn_ne_none {literal : Nat → Option Scan}
    (hliteral : i < src.length → literal (i + 1) ≠ none) :
    codeTurn src literal i inner ≠ none := by
  unfold codeTurn
  split
  · simp
  next c hc =>
  have hcall := hliteral (drop_of_getElem? hc).1
  split
  · simpa using hcall
  split
  · simp
  split
  · split <;> simp
  · simp

/-- A walk takes at most one of its budget for each character that is left, and one more. -/
theorem skips_within (limit : Int) (src : List Char) (n : Nat) :
    (∀ depth i, src.length - i < n → skipText limit src n depth i ≠ none) ∧
    (∀ depth i inner, src.length - i < n → skipCode limit src n depth i inner ≠ none) := by
  induction n with
  | zero => exact ⟨fun _ _ h => by omega, fun _ _ _ h => by omega⟩
  | succ n ih =>
    obtain ⟨htext, hcode⟩ := ih
    -- what is sound of the inner walks says that a turn goes forward
    obtain ⟨stext, scode⟩ := skips_sound limit src n
    refine ⟨fun depth i hn => ?_, fun depth i inner hn => ?_⟩
    · have hne :
          textTurn limit depth src (fun j => skipCode limit src n (depth + 1) j 0) i ≠ none :=
        textTurn_ne_none fun hi => hcode _ _ _ (by omega)
      obtain ⟨t, ht⟩ := Option.ne_none_iff_exists'.mp hne
      have hturn := textTurn_sound (fun j s hs => scode (depth + 1) j 0 s hs) ht
      rw [skipText, ht]
      cases t with
      | stop s => simp
      | goOn j => exact htext depth j (by have := hturn.1; have := hturn.2.1; omega)
    · have hne : codeTurn src (fun j => skipText limit src n depth j) i inner ≠ none :=
        codeTurn_ne_none fun hi => htext _ _ (by omega)
      obtain ⟨t, ht⟩ := Option.ne_none_iff_exists'.mp hne
      have hturn := codeTurn_sound (fun j s hs => stext depth j s hs) ht
      rw [skipCode, ht]
      cases t with
      | stop s => simp
      | goOn next =>
        exact hcode depth next.1 next.2 (by have := hturn.1; have := hturn.2.1; omega)

/-- A walk over a body that stays within its budget is the scan of it. -/
theorem skipText_sound (hi : i ≤ src.length) (h : skipText limit src n depth i = some s) :
    s = (text depth limit (src.drop i)).shift i := by
  have hscan := ((skips_sound limit src n).1 depth i s h).scan []
  rw [leave_nil, scanFrom, Nat.min_eq_left hi] at hscan
  exact hscan.symm

/-- A walk over code that stays within its budget is the scan of it. -/
theorem skipCode_sound (hi : i ≤ src.length) (h : skipCode limit src n depth i 0 = some s) :
    s = (code depth limit (src.drop i)).shift i := by
  have hscan := ((skips_sound limit src n).2 depth i 0 s h).scan []
  rw [leave_nil, scanFrom, Nat.min_eq_left hi] at hscan
  exact hscan.symm

/-- A scan from an index within the characters ends at an index within them, and not before. -/
theorem scan_within (stack : List Enclosure) (hi : i ≤ src.length) :
    i ≤ ((scan limit depth stack (src.drop i)).shift i).count ∧
      ((scan limit depth stack (src.drop i)).shift i).count ≤ src.length := by
  have hcount := scan_count_le limit depth stack (src.drop i)
  have hlen : (src.drop i).length = src.length - i := List.length_drop
  have hshift : ((scan limit depth stack (src.drop i)).shift i).count
      = (scan limit depth stack (src.drop i)).count + i := by
    cases scan limit depth stack (src.drop i) <;> rfl
  omega

end Balance

end TextScript
