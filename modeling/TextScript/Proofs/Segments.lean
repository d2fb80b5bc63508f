/-
TextScript/Proofs/Segments.lean

A literal that is read was cut into segments and codes in turn, in the one way there is.

The cut goes by its own idea of an escape: a backslash and one more character.  The decoder has
another one, where an escape may be longer.  The two agree on what matters: the further characters
of a longer escape are digits or line ends and hide nothing, so in a segment that decodes every
backslash has its character (`whole_of_decodePoints`).  Hence no segment breaks off in an escape,
and the block behind it is where the grammar has it.

What is read is the decoded segments and the answers for the codes, woven together, and the reader
of codes is asked once for each code that is not blank, in order.
-/
import Mathlib.Data.List.Forall2
import TextScript.Proofs.Sources

namespace TextScript

open Interpolation

variable {c : Char} {cs seg code rest : List Char} {segs codes segs' codes' : List (List Char)}
variable {reader : Option CodeReader} {tok : Token} {p : Position} {e : Expr}

/-! ### Escapes and what they hide -/

/-- `Whole cs`: every backslash has a character behind it to hide. -/
inductive Whole : List Char → Prop
  | nil : Whole []
  | char {c : Char} {cs : List Char} : c ≠ '\\' → Whole cs → Whole (c :: cs)
  | escape {cs : List Char} (c : Char) : Whole cs → Whole ('\\' :: c :: cs)

/-- What lies in front of the first block and has whole escapes is a segment. -/
theorem Whole.isSegment (h : Whole seg) (hsize : seg.length ≤ segmentSize (seg ++ rest)) :
    IsSegment seg := by
  induction h with
  | nil => exact .nil
  | @char c cs hc _ ih =>
    rw [List.cons_append, segmentSize.eq_def] at hsize
    split at hsize
    · next heq => cases heq
    · next heq => exact absurd (List.cons.inj heq).1 hc
    · simp at hsize
    · next hno heq =>
      obtain ⟨rfl, rfl⟩ := List.cons.inj heq
      have hi : ¬(c = '#' ∧ cs.head? = some '{') := by
        rintro ⟨rfl, hh⟩
        obtain ⟨ds, rfl⟩ := List.head?_eq_some_iff.mp hh
        exact hno _ rfl rfl
      exact .char hc hi (ih (Nat.le_of_succ_le_succ hsize))
  | escape c _ ih =>
    rw [List.cons_append, List.cons_append, segmentSize] at hsize
    exact .escape c (ih (Nat.le_of_succ_le_succ (Nat.le_of_succ_le_succ hsize)))

theorem Whole.plain_append {pre : List Char} (h : Whole cs) (hpre : ∀ c ∈ pre, c ≠ '\\') :
    Whole (pre ++ cs) := by
  induction pre with
  | nil => exact h
  | cons c pre ih =>
    exact .char (hpre c List.mem_cons_self) (ih fun d hd => hpre d (List.mem_cons_of_mem _ hd))

/-- The digits that a numeral is read from are no backslashes. -/
theorem backslash_not_mem_leading (base most : Nat) (cs : List Char) :
    ∀ c ∈ cs.take (Numeral.leading base most cs).length, c ≠ '\\' := by
  fun_induction Numeral.leading base most cs with
  | case1 most c cs v hv ih =>
    intro d hd
    rw [List.length_cons, List.take_succ_cons] at hd
    rcases List.mem_cons.mp hd with rfl | hd
    · rintro rfl
      cases hv
    · exact ih d hd
  | case2 => simp
  | case3 => simp

/-- An escape takes its backslash, the character after it, and perhaps more that are no
backslashes. -/
theorem escape_span {d : Char} {ds : List Char} {u : Escape.Glyph}
    (h : Escape.escape (d :: ds) = .ok u) : ∃ n, u.size = n + 2 ∧ ∀ c ∈ ds.take n, c ≠ '\\' := by
  unfold Escape.escape at h
  simp only at h
  split at h
  · cases h; exact ⟨0, rfl, by simp⟩
  · cases h; exact ⟨0, rfl, by simp⟩
  · cases h; exact ⟨0, rfl, by simp⟩
  · cases h; exact ⟨0, rfl, by simp⟩
  · cases h; exact ⟨0, rfl, by simp⟩
  · cases h; exact ⟨0, rfl, by simp⟩
  · cases h; exact ⟨0, rfl, by simp⟩
  · cases h; exact ⟨0, rfl, by simp⟩
  · cases h; exact ⟨0, rfl, by simp⟩
  · -- a carriage return takes the line feed behind it
    split at h
    · cases h; exact ⟨1, rfl, by simp⟩
    · cases h; exact ⟨0, rfl, by simp⟩
  · split at h
    · next hlen =>
      cases h
      have hdigits := backslash_not_mem_leading 16 4 ds
      rw [hlen] at hdigits
      exact ⟨4, rfl, hdigits⟩
    · cases h
  · split at h
    · cases h
    · next hne =>
      cases h
      have hdigits := backslash_not_mem_leading 8 (Escape.octalReach d) (d :: ds)
      obtain ⟨n, hn⟩ : ∃ n, (Numeral.leading 8 (Escape.octalReach d) (d :: ds)).length = n + 1 :=
        Nat.exists_eq_succ_of_ne_zero (by simpa [List.isEmpty_iff] using hne)
      rw [hn, List.take_succ_cons] at hdigits
      exact ⟨n, by rw [hn], fun c hc => hdigits c (List.mem_cons_of_mem _ hc)⟩

theorem Whole.unit_append {u : Escape.Glyph} {more : List Char} (h : Escape.unit c cs = .ok u)
    (hmore : Whole more) : Whole ((c :: cs).take u.size ++ more) := by
  unfold Escape.unit at h
  split at h
  · next hc =>
    subst hc
    cases cs with
    | nil => cases h
    | cons d ds =>
      obtain ⟨n, hsize, hspan⟩ := escape_span h
      rw [hsize]
      exact .escape d (hmore.plain_append hspan)
  · next hc =>
    cases h
    exact .char hc hmore

/-- What decodes has whole escapes, in the sense of the cut. -/
theorem whole_of_decodePoints {v : List Int} (h : Escape.decodePoints p cs = .ok v) : Whole cs := by
  fun_induction Escape.decodePoints p cs generalizing v with
  | case1 => exact .nil
  | case2 => cases h
  | case3 p c rest u hu ih =>
    obtain ⟨w, hw, -⟩ := map_eq_ok.mp h
    have hwhole := Whole.unit_append hu (ih hw)
    rwa [List.take_append_drop] at hwhole

theorem isSegment_of_decodeAt {v : Text} (hsize : segmentSize (seg ++ rest) = seg.length)
    (h : Escape.decodeAt p seg = .ok v) : IsSegment seg := by
  obtain ⟨w, hw, -⟩ := map_eq_ok.mp h
  exact (whole_of_decodePoints hw).isSegment (Nat.le_of_eq hsize.symm)

/-! ### The cut -/

/-- `Alternates cs segs codes`: the characters `cs` are the segments `segs` with the
interpolations of the codes `codes` between them, each code reaching up to the brace that matches
the one before it. -/
inductive Alternates : List Char → List (List Char) → List (List Char) → Prop
  | last {seg : List Char} : IsSegment seg → Alternates seg [seg] []
  | block {seg code rest : List Char} {segs codes : List (List Char)} :
      IsSegment seg → IsCode code → Alternates rest segs codes →
      Alternates (seg ++ '#' :: '{' :: (code ++ '}' :: rest)) (seg :: segs) (code :: codes)

theorem Alternates.length_eq (h : Alternates cs segs codes) : segs.length = codes.length + 1 := by
  induction h with
  | last => rfl
  | block _ _ _ ih => simp [ih]

theorem IsCode.code_closed (h : IsCode code) (rest : List Char) :
    Balance.code 1 0 (code ++ '}' :: rest) = .closed code.length := by
  obtain ⟨k, hk⟩ := h
  exact hk.code_closed (fits_unlimited 1 k)

theorem isCode_of_closed {depth limit : Int}
    (h : Balance.code depth limit (code ++ '}' :: rest) = .closed code.length) : IsCode code := by
  obtain ⟨⟨k, hk, -⟩, -⟩ := code_closed_iff.mp h
  rw [List.take_left] at hk
  exact ⟨k, hk⟩

/-- The first segment of a body with a block and its code are where the two scans stop. -/
theorem block_unique {seg' code' rest' : List Char} (hs : IsSegment seg) (hs' : IsSegment seg')
    (hc : IsCode code) (hc' : IsCode code')
    (h : seg ++ '#' :: '{' :: (code ++ '}' :: rest) =
      seg' ++ '#' :: '{' :: (code' ++ '}' :: rest')) :
    seg = seg' ∧ code = code' ∧ rest = rest' := by
  have hlen : seg.length = seg'.length := by
    rw [← hs.segmentSize_append (.inr ⟨_, rfl⟩), h, hs'.segmentSize_append (.inr ⟨_, rfl⟩)]
  obtain ⟨hseg, htail⟩ := List.append_inj h hlen
  have htail' : code ++ '}' :: rest = code' ++ '}' :: rest' :=
    (List.cons.inj (List.cons.inj htail).2).2
  have hclosed := hc.code_closed rest
  rw [htail', hc'.code_closed rest'] at hclosed
  obtain ⟨hcode, hrest⟩ := List.append_inj htail' (Scan.closed.inj hclosed).symm
  exact ⟨hseg, hcode, (List.cons.inj hrest).2⟩

/-- No segment is a body with a block. -/
theorem IsSegment.ne_block {seg' : List Char} (hs : IsSegment seg) (hs' : IsSegment seg') :
    seg ≠ seg' ++ '#' :: '{' :: rest := by
  intro h
  have hlen := hs.segmentSize_append (.inl (rfl : ([] : List Char) = []))
  rw [List.append_nil, h, hs'.segmentSize_append (.inr ⟨_, rfl⟩)] at hlen
  simp at hlen

/-- There is at most one way to cut a body. -/
theorem Alternates.unique (h : Alternates cs segs codes) (h' : Alternates cs segs' codes') :
    segs' = segs ∧ codes' = codes := by
  induction h generalizing segs' codes' with
  | @last seg hs =>
    generalize hcs : seg = cs at h'
    cases h' with
    | last => exact ⟨rfl, rfl⟩
    | block hs' => exact absurd hcs (hs.ne_block hs')
  | @block seg code rest segs codes hs hc hr ih =>
    generalize hcs : seg ++ '#' :: '{' :: (code ++ '}' :: rest) = cs at h'
    cases h' with
    | last hs' => exact absurd hcs.symm (hs'.ne_block hs)
    | block hs' hc' hr' =>
      obtain ⟨rfl, rfl, rfl⟩ := block_unique hs hs' hc hc' hcs
      obtain ⟨rfl, rfl⟩ := ih hr'
      exact ⟨rfl, rfl⟩

/-! ### What is read -/

/-- The codes of a body that begins at `p`, each with the place where it begins. -/
def callsAt : Position → List (List Char) → List (List Char) → List (String × Position)
  | p, seg :: segs, code :: codes =>
    let place := p.advance (seg ++ ['#', '{'])
    (String.ofList code, place) :: callsAt (place.advance (code ++ ['}'])) segs codes
  | _, _, _ => []

/-- `Answers reader tok call e`: the reader of codes has answered the call with `e`, or the code
is blank and `e` the empty text. -/
def Answers (reader : Option CodeReader) (tok : Token) (call : String × Position)
    (e : Expr) : Prop :=
  if Text.isBlankString call.1 then e = .text tok .empty
  else ∃ read, reader = some read ∧ (read call.1 call.2).result = .ok e

/-- What is reported of a call.  Blank code is not handed over. -/
def reported (reader : Option CodeReader) (call : String × Position) : List Event :=
  if Text.isBlankString call.1 then []
  else .codeHanded call.1 call.2 :: (reader.map fun read => (read call.1 call.2).events).getD []

/-- Decoded segments and embedded expressions in turn. -/
def weave (tok : Token) : List Text → List Expr → List Expr
  | v :: vs, e :: es => .text tok v :: e :: weave tok vs es
  | vs, _ => vs.map (.text tok)

/-- `Decodes seg v`: the segment stands for the text `v`. -/
def Decodes (seg : List Char) (v : Text) : Prop :=
  Escape.decode seg = .ok v

theorem decodes_of_decodeAt {v : Text} (h : Escape.decodeAt p seg = .ok v) : Decodes seg v :=
  decodeAt_moved h {}

theorem Traced.events_andThen {α β : Type} {x : Traced α} {f : α → Traced β} {a : α}
    (h : x.result = .ok a) : (x.andThen f).events = x.events ++ (f a).events := by
  unfold andThen
  rw [h]

theorem readCode_answers {text : String} (h : (readCode reader tok text p).result = .ok e) :
    Answers reader tok (text, p) e ∧
    (readCode reader tok text p).events = reported reader (text, p) := by
  unfold Answers reported
  cases hblank : Text.isBlankString text with
  | true =>
    unfold readCode at h ⊢
    rw [if_pos hblank] at h ⊢
    cases h
    exact ⟨rfl, rfl⟩
  | false =>
    obtain ⟨read, rfl, hread⟩ := readCode_ok hblank h
    refine ⟨⟨read, rfl, hread⟩, ?_⟩
    rw [readCode.eq_def, if_neg (by simp [hblank])]
    rfl

/-- A body that is read is cut; its parts are the segments and the answers for its codes. -/
theorem readParts_alternates {parts : List Expr}
    (hok : (readParts reader 0 tok p cs).result = .ok parts) :
    ∃ segs codes values embedded, Alternates cs segs codes ∧ List.Forall₂ Decodes segs values ∧
      List.Forall₂ (Answers reader tok) (callsAt p segs codes) embedded ∧
      parts = weave tok values embedded ∧
      (readParts reader 0 tok p cs).events = (callsAt p segs codes).flatMap (reported reader) := by
  induction cs using body_induction 0 generalizing p parts with
  | last seg hsize =>
    rw [readParts_segment hsize] at hok ⊢
    rw [Traced.result_andThen, bind_eq_ok] at hok
    obtain ⟨v, hv, hparts⟩ := hok
    cases hparts
    have hseg : IsSegment seg := isSegment_of_decodeAt (by rw [List.append_nil]; exact hsize) hv
    refine ⟨[seg], [], [v], [], .last hseg, .cons (decodes_of_decodeAt hv) .nil, .nil, rfl, ?_⟩
    rw [Traced.events_andThen hv]
    rfl
  | stuck seg rest n why hsize hscan =>
    rw [readParts_stuck hsize hscan, Traced.result_andThen, bind_eq_ok] at hok
    obtain ⟨v, -, hfail⟩ := hok
    cases hfail
  | block seg code rest hsize hscan ih =>
    rw [readParts_closed hsize hscan] at hok ⊢
    simp only [Traced.result_andThen, bind_eq_ok] at hok
    obtain ⟨v, hv, e, he, more, hmore, hparts⟩ := hok
    cases hparts
    -- the cut of the rest, with this segment and this code in front of it
    obtain ⟨segs, codes, values, embedded, hcut, hvalues, hembedded, rfl, hevents⟩ := ih hmore
    obtain ⟨hanswer, hreport⟩ := readCode_answers he
    refine ⟨seg :: segs, code :: codes, v :: values, e :: embedded,
      .block (isSegment_of_decodeAt hsize hv) (isCode_of_closed hscan) hcut,
      .cons (decodes_of_decodeAt hv) hvalues, .cons hanswer hembedded, rfl, ?_⟩
    rw [Traced.events_andThen hv, Traced.events_andThen he, Traced.events_andThen hmore,
      hreport, hevents]
    simp [callsAt, Traced.lift, Traced.ok]

/-! ### Weaving -/

variable {values : List Text} {embedded : List Expr}

theorem weave_length (tok : Token) (h : values.length = embedded.length + 1) :
    (weave tok values embedded).length = 2 * embedded.length + 1 := by
  induction embedded generalizing values with
  | nil =>
    rw [weave, List.length_map, h]
    · rfl
    · simp
  | cons e es ih =>
    cases values with
    | nil => cases h
    | cons v vs =>
      simp only [weave, List.length_cons, ih (Nat.succ.inj h)]
      omega

theorem weave_even (h : values.length = embedded.length + 1) (k : Nat) :
    (weave tok values embedded)[2 * k]? = values[k]?.map (.text tok) := by
  induction embedded generalizing values k with
  | nil =>
    obtain ⟨v, rfl⟩ := List.length_eq_one_iff.mp h
    cases k <;> simp [weave]
  | cons e es ih =>
    cases values with
    | nil => cases h
    | cons v vs =>
      cases k with
      | zero => rfl
      | succ k => exact ih (Nat.succ.inj h) k

theorem weave_odd (h : values.length = embedded.length + 1) (k : Nat) :
    (weave tok values embedded)[2 * k + 1]? = embedded[k]? := by
  induction embedded generalizing values k with
  | nil =>
    obtain ⟨v, rfl⟩ := List.length_eq_one_iff.mp h
    simp [weave]
  | cons e es ih =>
    cases values with
    | nil => cases h
    | cons v vs =>
      cases k with
      | zero => rfl
      | succ k => exact ih (Nat.succ.inj h) k

theorem segments_weave (h : values.length = embedded.length + 1) :
    Expr.segments (weave tok values embedded) = values := by
  induction embedded generalizing values with
  | nil =>
    obtain ⟨v, rfl⟩ := List.length_eq_one_iff.mp h
    rfl
  | cons e es ih =>
    cases values with
    | nil => cases h
    | cons v vs =>
      have hlen : vs.length = es.length + 1 := Nat.succ.inj h
      have hrest := ih hlen
      unfold Expr.segments at hrest ⊢
      simp [weave, Expr.evens, hrest]

theorem evens_cons {α : Type} (a : α) (l : List α) :
    Expr.evens (a :: l) = a :: Expr.evens (l.drop 1) := by
  cases l <;> rfl

theorem interpolations_weave (h : values.length = embedded.length + 1) :
    Expr.interpolations (weave tok values embedded) = embedded := by
  induction embedded generalizing values with
  | nil =>
    obtain ⟨v, rfl⟩ := List.length_eq_one_iff.mp h
    rfl
  | cons e es ih =>
    cases values with
    | nil => cases h
    | cons v vs =>
      have hlen : vs.length = es.length + 1 := Nat.succ.inj h
      have hrest := ih hlen
      unfold Expr.interpolations at hrest ⊢
      rw [weave, List.drop_one, List.tail_cons, evens_cons, hrest]

/-! ### Whole literals -/

theorem length_callsAt (h : segs.length = codes.length + 1) (p : Position) :
    (callsAt p segs codes).length = codes.length := by
  induction codes generalizing segs p with
  | nil => cases segs <;> rfl
  | cons code codes ih =>
    cases segs with
    | nil => cases h
    | cons seg segs =>
      rw [callsAt, List.length_cons, ih (Nat.succ.inj h), List.length_cons]

/-- A body that is read without a limit is cut into segments and codes in one way only.  What is
read alternates between the decoded segments and the answers for the codes, and the reader of
codes is called once for each code that is not blank, in order. -/
theorem read_body_alternates (reader : Option CodeReader) (raw : String)
    (quote : Position) (e : Expr) (hok : (readBody reader 0 raw quote).result = .ok e) :
    let tok : Token := { kind := .text, lit := raw, place := quote }
    ∃ segs codes, Alternates raw.toList segs codes ∧ segs.length = codes.length + 1 ∧
      (∀ segs' codes', Alternates raw.toList segs' codes' → segs' = segs ∧ codes' = codes) ∧
      ∃ values embedded,
        List.Forall₂ (fun seg v => Escape.decode seg = .ok v) segs values ∧
        List.Forall₂ (Answers reader tok) (callsAt quote.next segs codes) embedded ∧
        (codes = [] → ∃ v, values = [v] ∧ e = .text tok v) ∧
        (codes ≠ [] → ∃ parts, e = .concat tok parts ∧ parts.length = 2 * codes.length + 1 ∧
          (∀ k, parts[2 * k]? = values[k]?.map (.text tok)) ∧
          (∀ k, parts[2 * k + 1]? = embedded[k]?) ∧
          Expr.segments parts = values ∧ Expr.interpolations parts = embedded) ∧
        (readBody reader 0 raw quote).events =
          (callsAt quote.next segs codes).flatMap (reported reader) ++
            if codes = [] then [] else [.literalRead quote codes.length] := by
  intro tok
  have hread : readBody reader 0 raw quote = Interpolation.read reader 0 tok := rfl
  rw [hread] at hok ⊢
  rw [Interpolation.read, Traced.result_andThen, bind_eq_ok] at hok
  obtain ⟨parts, hparts, he⟩ := hok
  obtain ⟨segs, codes, values, embedded, hcut, hvalues, hembedded, rfl, hevents⟩ :=
    readParts_alternates hparts
  have hsegs := hcut.length_eq
  have hcalls := length_callsAt hsegs quote.next
  have hlen : embedded.length = codes.length := hembedded.length_eq.symm.trans hcalls
  have hweave : values.length = embedded.length + 1 := by
    rw [← hvalues.length_eq, hsegs, hlen]
  refine ⟨segs, codes, hcut, hsegs, fun segs' codes' h => hcut.unique h, values, embedded, hvalues,
    hembedded, ?_⟩
  rw [Interpolation.read, Traced.events_andThen hparts, hevents]
  cases embedded with
  | nil =>
    -- no code, so the one segment is the whole literal
    obtain rfl : codes = [] := List.length_eq_zero_iff.mp hlen.symm
    obtain ⟨v, rfl⟩ := List.length_eq_one_iff.mp hweave
    cases he
    exact ⟨fun _ => ⟨v, rfl, rfl⟩, fun h => absurd rfl h, rfl⟩
  | cons x xs =>
    have hne : codes ≠ [] := by
      rintro rfl
      cases hlen
    obtain ⟨v, vs, rfl⟩ := List.exists_cons_of_ne_nil (List.ne_nil_of_length_eq_add_one hweave)
    have hparts := weave_length tok hweave
    rw [hlen] at hparts
    cases he
    refine ⟨fun h => absurd h hne, fun _ => ⟨_, rfl, hparts, weave_even hweave, weave_odd hweave,
      segments_weave hweave, interpolations_weave hweave⟩, ?_⟩
    have hhalf : (2 * codes.length + 1) / 2 = codes.length := by omega
    rw [if_neg hne, ← hhalf, ← hparts]
    rfl

/-- A literal with two interpolations: a blank one behind a segment with a hidden mark, and one
with a brace in a literal of its own, behind a mark that opens nothing. -/
theorem read_body_alternates_two :
    let read : CodeReader := fun code _ => .ok (.foreign code)
    let raw :=
      String.ofList ['a', '\\', '#', '{', '#', '{', ' ', '}', '#', '#', '{', '"', '}', '"', '}']
    ∃ e parts, (readBody (some read) 0 raw {}).result = .ok e ∧
      Alternates raw.toList [['a', '\\', '#', '{'], ['#'], []] [[' '], ['"', '}', '"']] ∧
      e = .concat { kind := .text, lit := raw, place := {} } parts ∧ parts.length = 5 ∧
      (readBody (some read) 0 raw {}).events
        = [.codeHanded "\"\x7d\"" ⟨1, 13⟩, .literalRead {} 2] := by
  intro read raw
  have hcut : Alternates raw.toList [['a', '\\', '#', '{'], ['#'], []]
      [[' '], ['"', '}', '"']] := by
    have hbody : IsBody ['}'] := isBody_nil.char (by decide) (by decide) (by decide)
    have hfirst : IsSegment ['a', '\\', '#', '{'] :=
      .char (by decide) (by decide) (.escape '#' (.char (by decide) (by decide) .nil))
    have hlast : Alternates ['#', '#', '{', '"', '}', '"', '}'] [['#'], []] [['"', '}', '"']] :=
      .block (.char (by decide) (by decide) .nil) (IsCode.literal hbody isCode_nil) (.last .nil)
    have hblank : IsCode [' '] := isCode_nil.char (by decide) (by decide) (by decide)
    rw [String.toList_ofList]
    exact .block hfirst hblank hlast
  have hok : (readBody (some read) 0 raw {}).result.isOk = true := by decide +kernel
  cases hres : (readBody (some read) 0 raw {}).result with
  | error f =>
    rw [hres] at hok
    cases hok
  | ok e =>
    obtain ⟨segs, codes, -, -, hunique, values, embedded, -, -, -, hconcat, -⟩ :=
      read_body_alternates (some read) raw {} e hres
    obtain ⟨rfl, rfl⟩ := hunique _ _ hcut
    obtain ⟨parts, rfl, hlen, -⟩ := hconcat (by simp)
    exact ⟨_, parts, rfl, hcut, rfl, hlen, by decide +kernel⟩

end TextScript
