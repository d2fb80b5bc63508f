/-
TextScript/Proofs/Spelling.lean

Tokens that are written one after the other.

Characters that are written for tokens come to these tokens again if nothing behind them goes on
with the last one: `Spells limit cs P` says that, wherever the characters `cs` stand, and whatever
is behind them as long as it begins like the written form of a tree goes on (`Stops`), they are
cut into tokens of one line with the property `P`, and the rest is cut as a source of its own.

A name that was a token once is spelled by its characters (`IsName`), an integer by its digits,
and a text by its literal.  Each stays what it is with a blank in front of it, between brackets,
or before a comma.
-/
import Mathlib.Algebra.Group.Nat.Defs
import TextScript.Proofs.Digits
import TextScript.Proofs.Lookahead
import TextScript.Proofs.RoundTrip
import TextScript.Proofs.Segments

namespace TextScript

open Lexer ParseState

variable {limit : Int} {p : Position} {cs ds rest src : List Char} {c d : Char} {tok : Token}
variable {P Q : List Token → Prop}

/-! ### What may follow -/

/-- The characters that may follow a token in the written form of a program. -/
def stoppers : List Char :=
  [' ', '\n', ',', '(', ')', '[', ']']

/-- Nothing follows, or something that goes on with no token. -/
def Stops (rest : List Char) : Prop :=
  ∀ d, rest.head? = some d → d ∈ stoppers

theorem stops_nil : Stops [] := fun _ h => by cases h

theorem stops_cons (hd : d ∈ stoppers) (rest : List Char) : Stops (d :: rest) := by
  rintro e ⟨⟩
  exact hd

theorem Stops.ends {f : Char → Bool} (h : Stops rest) (hf : stoppers.any f = false) :
    ∀ d, rest.head? = some d → f d = false :=
  fun d hd => Bool.eq_false_iff.mpr (List.any_eq_false.mp hf d (h d hd))

/-! ### Names -/

/-- A name: a character that a name may begin with, more parts of a name, and marks. -/
def IsName (cs : List Char) : Prop :=
  ∃ c body marks, cs = c :: (body ++ marks) ∧ isNameStart c = true ∧
    (∀ d ∈ body, isNamePart d = true) ∧ ∀ m ∈ marks, m = '?' ∨ m = '!'

namespace Lexer

theorem isNamePart_of_isNameStart (h : isNameStart c = true) : isNamePart c = true := by
  simp [isNamePart, h]

theorem markSize_marks {marks : List Char} (hmarks : ∀ m ∈ marks, m = '?' ∨ m = '!')
    (h : Stops rest) : markSize (marks ++ rest) = marks.length := by
  induction marks with
  | nil =>
    refine markSize_eq_zero_iff.mpr ⟨fun hq => ?_, fun hb => ?_⟩
    · exact absurd (h _ hq) (by decide)
    · exact absurd (h _ hb) (by decide)
  | cons m marks ih =>
    obtain ⟨hm, hrest⟩ := List.forall_mem_cons.mp hmarks
    rcases hm with rfl | rfl
    · rw [List.cons_append, markSize, ih hrest, List.length_cons]
    · rw [List.cons_append, markSize, ih hrest, List.length_cons]
      -- an equals sign is no mark, and does not follow either
      intro t ht
      cases marks with
      | nil =>
        have hstop : '=' ∈ stoppers := h _ (congrArg List.head? ht)
        exact absurd hstop (by decide)
      | cons m marks =>
        obtain ⟨rfl, -⟩ := List.cons.inj ht
        exact absurd (hrest _ List.mem_cons_self) (by decide)

theorem marks_of_markSize {marks : List Char} (h : markSize (marks ++ rest) = marks.length) :
    ∀ m ∈ marks, m = '?' ∨ m = '!' := by
  induction marks with
  | nil => exact List.forall_mem_nil _
  | cons m marks ih =>
    generalize hcs : (m :: marks) ++ rest = cs at h
    revert h
    fun_cases markSize cs with
    | case1 t =>
      intro h
      obtain ⟨rfl, rfl⟩ := List.cons.inj hcs
      exact List.forall_mem_cons.mpr ⟨.inl rfl, ih (Nat.succ.inj h)⟩
    | case2 t => exact fun h => by cases h
    | case3 t _ =>
      intro h
      obtain ⟨rfl, rfl⟩ := List.cons.inj hcs
      exact List.forall_mem_cons.mpr ⟨.inr rfl, ih (Nat.succ.inj h)⟩
    | case4 => exact fun h => by cases h

/-- What begins a name and is cut off as one is one. -/
theorem isName_of_nameSize {name : List Char} (hc : isNameStart c = true)
    (h : nameSize ((c :: name) ++ rest) = (c :: name).length) : IsName (c :: name) := by
  obtain ⟨body, marks, hname, hbody, hmarks⟩ := nameSize_cut h
  obtain ⟨hall, -⟩ := takeWhile_eq_left.mp hbody
  cases body with
  | cons d body =>
    obtain ⟨rfl, rfl⟩ := List.cons.inj hname
    exact ⟨c, body, marks, rfl, hc, fun d hd => hall d (List.mem_cons_of_mem _ hd),
      marks_of_markSize hmarks⟩
  | nil =>
    -- the first character is a part of the name, so the body is not empty
    rw [List.nil_append] at hname
    rw [← hname, List.nil_append, List.cons_append, List.takeWhile_cons,
      if_pos (isNamePart_of_isNameStart hc)] at hbody
    cases hbody

theorem isNameStart_of_ident (h : (lexeme limit c cs).kind = .ident) : isNameStart c = true := by
  by_contra hc
  revert h
  fun_cases lexeme limit c cs
  case case26 =>
    intro h
    rcases textLexeme_kind limit cs with hk | hk <;> rw [hk] at h <;> cases h
  case case27 => contradiction
  all_goals exact fun h => by cases h

/-- The spelling of a name in a source is a name. -/
theorem isName_of_mem_tokens (h : tok ∈ tokens limit p src) (hk : tok.kind = .ident) :
    IsName tok.lit.toList := by
  rcases mem_tokens h with ⟨q, rfl⟩ | ⟨pre, c, cs, q, rfl, rfl⟩
  · cases hk
  · have hc : isNameStart c = true := isNameStart_of_ident hk
    have hlit :
        (token limit (lexeme limit c cs) ((c :: cs).take (lexeme limit c cs).size) q).lit.toList
          = (c :: cs).take (nameSize (c :: cs)) := by
      rw [lexeme_name _ _ hc]
      exact String.toList_ofList
    obtain ⟨size, hsize⟩ := Nat.exists_eq_add_one.mpr (lexeme_size_pos limit c cs)
    rw [lexeme_name _ _ hc] at hsize
    change nameSize (c :: cs) = size + 1 at hsize
    have hlen : size ≤ cs.length := by
      have hle := nameSize_le (c :: cs)
      rw [hsize] at hle
      exact Nat.le_of_succ_le_succ hle
    rw [hlit, hsize, List.take_succ_cons]
    have hcut : nameSize ((c :: cs.take size) ++ cs.drop size) = (c :: cs.take size).length := by
      rw [List.cons_append, List.take_append_drop, List.length_cons, List.length_take_of_le hlen]
      exact hsize
    exact isName_of_nameSize hc hcut

end Lexer

theorem IsName.nameSize (h : IsName cs) (hrest : Stops rest) :
    nameSize (cs ++ rest) = cs.length := by
  obtain ⟨c, body, marks, rfl, hc, hbody, hmarks⟩ := h
  have hall : ∀ d ∈ c :: body, isNamePart d = true :=
    List.forall_mem_cons.mpr ⟨isNamePart_of_isNameStart hc, hbody⟩
  have hend : ∀ d, (marks ++ rest).head? = some d → isNamePart d = false := by
    cases marks with
    | nil => exact hrest.ends (by decide +kernel)
    | cons m marks =>
      rintro d ⟨⟩
      rcases hmarks m List.mem_cons_self with rfl | rfl
      · decide +kernel
      · decide +kernel
  have hcut : (c :: body ++ (marks ++ rest)).takeWhile isNamePart = c :: body :=
    takeWhile_eq_left.mpr ⟨hall, hend⟩
  have hsplit : c :: (body ++ marks) ++ rest = c :: body ++ (marks ++ rest) := by simp
  rw [hsplit, Lexer.nameSize, hcut, List.drop_left, markSize_marks hmarks hrest, ← List.cons_append,
    List.length_append]

/-! ### Tokens that are spelled -/

/-- Whatever stands in front of the characters or may stand behind them, they are cut into tokens
of one line with the property. -/
def Spells (limit : Int) (cs : List Char) (P : List Token → Prop) : Prop :=
  ∀ p rest, Stops rest → ∃ toks, P toks ∧
    (∀ tok ∈ toks, tok.kind ≠ .terminator ∧ tok.kind ≠ .eof) ∧
    tokens limit p (cs ++ rest) = toks ++ tokens limit (p.advance cs) rest

namespace Spells

theorem imp (h : Spells limit cs P) (hpq : ∀ toks,
    (∀ tok ∈ toks, tok.kind ≠ .terminator ∧ tok.kind ≠ .eof) → P toks → Q toks) :
    Spells limit cs Q := by
  intro p rest hrest
  obtain ⟨toks, hp, hline, htokens⟩ := h p rest hrest
  exact ⟨toks, hpq toks hline hp, hline, htokens⟩

theorem nil : Spells limit [] (· = []) :=
  fun _ _ _ => ⟨[], rfl, List.forall_mem_nil _, rfl⟩

/-- What begins with a character that goes on with no token may stand behind others. -/
theorem append (h : Spells limit cs P) (hds : Spells limit (d :: ds) Q) (hd : d ∈ stoppers) :
    Spells limit (cs ++ d :: ds) fun toks =>
      ∃ front back, toks = front ++ back ∧ P front ∧ Q back := by
  intro p rest hrest
  obtain ⟨front, hp, hfront, htokens⟩ := h p (d :: ds ++ rest) (stops_cons hd _)
  obtain ⟨back, hq, hback, htokens'⟩ := hds (p.advance cs) rest hrest
  refine ⟨front ++ back, ⟨front, back, rfl, hp, hq⟩,
    List.forall_mem_append.mpr ⟨hfront, hback⟩, ?_⟩
  rw [List.append_assoc, htokens, htokens', Position.advance_append, List.append_assoc]

theorem blank (h : Spells limit cs P) : Spells limit (' ' :: cs) P := by
  intro p rest hrest
  obtain ⟨toks, hp, hline, htokens⟩ := h (p.advance [' ']) rest hrest
  refine ⟨toks, hp, hline, ?_⟩
  have hgap : Gap [' '] (cs ++ rest) := .blank (.inl rfl) (.none _)
  rw [List.cons_append, ← List.singleton_append, tokens_gap hgap, htokens]
  rfl

end Spells

/-- A legal lexeme at the start is the first token. -/
theorem tokens_first {lx : Lexeme} (cs : List Char) (hlx : lexeme limit c (cs ++ rest) = lx)
    (hsize : lx.size = cs.length + 1) (hlegal : lx.kind ≠ .illegal) (p : Position) :
    tokens limit p (c :: cs ++ rest)
      = token limit lx (c :: cs) p :: tokens limit (p.advance (c :: cs)) rest := by
  subst hlx
  have hblank : blankSize false ([] ++ c :: (cs ++ rest)) = ([] : List Char).length :=
    blankSize_of_legal hlegal _
  exact tokens_lexeme hblank hsize p

/-- `Mark c kind`: whatever follows, the character is a token of this kind by itself. -/
structure Mark (c : Char) (kind : TokenKind) : Prop where
  alone : ∀ limit cs, lexeme limit c cs = ⟨kind, 1, none⟩
  legal : kind ≠ .illegal
  line : kind ≠ .terminator ∧ kind ≠ .eof

theorem mark_minus : Mark '-' .minus := ⟨fun _ _ => rfl, by decide, by decide⟩

theorem mark_comma : Mark ',' .comma := ⟨fun _ _ => rfl, by decide, by decide⟩

theorem mark_lparen : Mark '(' .lparen := ⟨fun _ _ => rfl, by decide, by decide⟩

theorem mark_rparen : Mark ')' .rparen := ⟨fun _ _ => rfl, by decide, by decide⟩

theorem mark_lbracket : Mark '[' .lbracket := ⟨fun _ _ => rfl, by decide, by decide⟩

theorem mark_rbracket : Mark ']' .rbracket := ⟨fun _ _ => rfl, by decide, by decide⟩

theorem Mark.tokens {kind : TokenKind} (h : Mark c kind) (limit : Int) (p : Position)
    (rest : List Char) :
    ∃ tok : Token, tok.kind = kind ∧
      tokens limit p (c :: rest) = tok :: tokens limit (p.advance [c]) rest :=
  ⟨_, rfl, tokens_first [] (h.alone limit rest) rfl h.legal p⟩

/-- `Between opening closing P toks`: tokens with the property `P`, between two of these kinds. -/
def Between (opening closing : TokenKind) (P : List Token → Prop) (toks : List Token) : Prop :=
  ∃ first inner last, toks = first :: (inner ++ [last]) ∧
    first.kind = opening ∧ last.kind = closing ∧ P inner

/-- One token of this kind, with this spelling. -/
def OneToken (kind : TokenKind) (lit : List Char) (toks : List Token) : Prop :=
  ∃ tok, toks = [tok] ∧ tok.kind = kind ∧ tok.lit = String.ofList lit

namespace Spells

variable {opening closing kind : TokenKind}

/-- A character that is a token by itself may stand in front of anything. -/
theorem mark (hc : Mark c kind) (h : Spells limit cs P) :
    Spells limit (c :: cs) fun toks =>
      ∃ first inner, toks = first :: inner ∧ first.kind = kind ∧ P inner := by
  intro p rest hrest
  obtain ⟨first, hfirst, htokens⟩ := hc.tokens limit p (cs ++ rest)
  obtain ⟨inner, hp, hinner, htokens'⟩ := h (p.advance [c]) rest hrest
  refine ⟨first :: inner, ⟨first, inner, rfl, hfirst, hp⟩,
    List.forall_mem_cons.mpr ⟨hfirst ▸ hc.line, hinner⟩, ?_⟩
  rw [List.cons_append, htokens, htokens']
  rfl

/-- Whatever may stand by itself may stand between brackets. -/
theorem between (hc : Mark c opening) (h : Spells limit cs P) (hd : Mark d closing)
    (hstop : d ∈ stoppers) : Spells limit (c :: (cs ++ [d])) (Between opening closing P) := by
  refine ((h.append (nil.mark hd) hstop).mark hc).imp fun toks _ ht => ?_
  obtain ⟨first, -, rfl, hfirst, inner, -, rfl, hp, last, -, rfl, hlast, rfl⟩ := ht
  exact ⟨first, inner, last, rfl, hfirst, hlast, hp⟩

/-- The same for two things with a comma between them. -/
theorem comma (h : Spells limit cs P) (hds : Spells limit ds Q) :
    Spells limit (cs ++ ',' :: ' ' :: ds) fun toks => ∃ front comma back,
      toks = front ++ comma :: back ∧ comma.kind = .comma ∧ P front ∧ Q back := by
  refine (h.append (hds.blank.mark mark_comma) (by decide)).imp fun toks _ ht => ?_
  obtain ⟨front, -, rfl, hp, comma, back, rfl, hcomma, hq⟩ := ht
  exact ⟨front, comma, back, rfl, hcomma, hp, hq⟩

/-! ### Names, integers and texts -/

/-- A lexeme that stays what it is spells its token. -/
theorem lexeme {kind : TokenKind}
    (hlx : ∀ rest, Stops rest → Lexer.lexeme limit c (cs ++ rest) = ⟨kind, cs.length + 1, none⟩)
    (hlegal : kind ≠ .illegal) (hline : kind ≠ .terminator ∧ kind ≠ .eof)
    (hlit : spelling kind (c :: cs) = String.ofList (c :: cs)) :
    Spells limit (c :: cs) (OneToken kind (c :: cs)) := by
  intro p rest hrest
  have htokens := tokens_first cs (hlx rest hrest) rfl hlegal p
  exact ⟨[_], ⟨_, rfl, rfl, hlit⟩, List.forall_mem_singleton.mpr hline, htokens⟩

theorem name (h : IsName cs) : Spells limit cs (OneToken .ident cs) := by
  obtain ⟨c, body, marks, rfl, hc, -⟩ := id h
  refine lexeme (fun rest hrest => ?_) (by decide) (by decide) rfl
  rw [lexeme_name _ _ hc, ← List.cons_append, h.nameSize hrest]
  rfl

end Spells

/-- No digit begins a name. -/
theorem isNameStart_digit (h : c.isDigit = true) : isNameStart c = false := by
  have hbounds : 48 ≤ c.val ∧ c.val ≤ 57 := by simpa [Char.isDigit] using h
  have htable : ∀ n < 58, 48 ≤ n → isNameStart (Char.ofNat n) = false := by decide +kernel
  rw [← Char.ofNat_toNat c]
  exact htable _ (Nat.lt_succ_of_le (UInt32.le_iff_toNat_le.mp hbounds.2))
    (UInt32.le_iff_toNat_le.mp hbounds.1)

theorem lexeme_digits (hall : ∀ d ∈ c :: cs, d.isDigit = true) (hrest : Stops rest) :
    Lexer.lexeme limit c (cs ++ rest) = ⟨.int, cs.length + 1, none⟩ := by
  have hdigit : ∀ d ∈ c :: cs, Lexer.isDigit d = true := by
    intro d hd
    simpa [Lexer.isDigit, Char.isDigit, Char.le_def] using hall d hd
  have hcut : (c :: cs ++ rest).takeWhile Lexer.isDigit = c :: cs :=
    takeWhile_eq_left.mpr ⟨hdigit, hrest.ends (by decide)⟩
  rw [lexeme_digit _ _ _ (hdigit c List.mem_cons_self), ← List.cons_append, hcut]
  · rfl
  · simp [isNameStart_digit (hall c List.mem_cons_self)]

/-- A row of digits. -/
theorem Spells.digits (hne : cs ≠ []) (hall : ∀ d ∈ cs, d.isDigit = true) :
    Spells limit cs (OneToken .int cs) := by
  obtain ⟨c, cs, rfl⟩ := List.exists_cons_of_ne_nil hne
  exact lexeme (fun rest hrest => lexeme_digits hall hrest) (by decide) (by decide) rfl

/-- The literal of a text. -/
theorem Spells.quoted {t : Text} (hpos : ∀ n ∈ t.points, 0 ≤ n) :
    Spells limit (Quote.quoted t) (OneToken .text (Quote.body t.points)) := by
  intro p rest _
  let tok : Token := { kind := .text, lit := String.ofList (Quote.body t.points), place := p }
  have htokens := (nested_body hpos).tokens (fits_zero limit 0) p rest
  refine ⟨[tok], ⟨tok, rfl, rfl, rfl⟩, List.forall_mem_singleton.mpr ⟨nofun, nofun⟩, ?_⟩
  simpa [Quote.quoted] using htokens

/-! ### Digits -/

/-- The parser reads the numerals of the numbers that are words. -/
theorem integer?_digits (hne : cs ≠ []) (hall : ∀ d ∈ cs, d.isDigit = true) :
    integer? (String.ofList cs) = if Nat.ofDigitChars 10 cs 0 < 2 ^ 63
      then some (Int64.ofInt (Nat.ofDigitChars 10 cs 0)) else none := by
  rw [integer?, String.toList_ofList, natural?_digits hne hall, Option.bind_some, Numeral.word?]
  simp only [fitsWord_natCast]

theorem integer?_repr {n : Nat} (h : (n : Int) ≤ Int64.maxValue.toInt) :
    integer? (Nat.repr n) = some (Int64.ofInt n) := by
  have hmax : Int64.maxValue.toInt = 2 ^ 63 - 1 := by decide
  have hlt : n < 2 ^ 63 := by omega
  rw [Nat.repr_eq_ofList_toDigits, integer?_digits Nat.toDigits_ne_nil
    (fun c hc => Nat.isDigit_of_mem_toDigits (by decide) (by decide) hc),
    Nat.ofDigitChars_ten_toDigits, if_pos hlt]

/-- The numbers that the parser reads have no sign. -/
theorem integer?_nonneg {lit : String} {n : Int64} (h : integer? lit = some n) : 0 ≤ n.toInt := by
  rw [integer?, Option.bind_eq_some_iff] at h
  obtain ⟨k, -, hk⟩ := h
  unfold Numeral.word? at hk
  split at hk
  · next hfits =>
    cases hk
    have hlt : k < 2 ^ 63 := (fitsWord_natCast k).mp hfits
    rw [Int64.toInt_ofInt_of_le (by omega) (by omega)]
    exact Int.natCast_nonneg k
  · cases hk

/-! ### Points of texts -/

theorem leading_lt (base most : Nat) (cs : List Char) :
    (Numeral.leading base most cs).length ≤ most ∧
      ∀ d ∈ Numeral.leading base most cs, d < base := by
  fun_induction Numeral.leading base most cs with
  | case1 most c cs v hv ih =>
    obtain ⟨hlen, hall⟩ := ih
    have hlt : v < base := by
      unfold Numeral.digit? at hv
      split at hv
      · split at hv
        · cases hv
          assumption
        · cases hv
      · cases hv
    exact ⟨Nat.succ_le_succ hlen, List.forall_mem_cons.mpr ⟨hlt, hall⟩⟩
  | case2 => simp
  | case3 => simp

theorem value_lt {base : Nat} {digits : List Nat} (h : ∀ d ∈ digits, d < base) :
    Numeral.value base digits < base ^ digits.length := by
  have hfold : ∀ v, digits.foldl (fun v d => v * base + d) v < (v + 1) * base ^ digits.length := by
    induction digits with
    | nil => simp
    | cons d digits ih =>
      intro v
      obtain ⟨hd, hrest⟩ := List.forall_mem_cons.mp h
      have hle : v * base + d + 1 ≤ (v + 1) * base := by
        rw [Nat.add_mul]
        omega
      calc digits.foldl (fun v d => v * base + d) (v * base + d)
          < (v * base + d + 1) * base ^ digits.length := ih hrest _
        _ ≤ (v + 1) * base * base ^ digits.length := Nat.mul_le_mul_right _ hle
        _ = (v + 1) * base ^ (digits.length + 1) := by rw [Nat.mul_assoc, Nat.pow_succ']
  simpa [Numeral.value] using hfold 0

/-- A code point: a number up to that of the last character. -/
def IsPoint (n : Int) : Prop :=
  0 ≤ n ∧ n ≤ 0x10FFFF

instance (n : Int) : Decidable (IsPoint n) := inferInstanceAs (Decidable (_ ∧ _))

theorem isPoint_value {base most : Nat} (hbase : base ^ most ≤ 0x10FFFF) (hpos : 0 < base)
    (cs : List Char) : IsPoint (Numeral.value base (Numeral.leading base most cs)) := by
  obtain ⟨hlen, hall⟩ := leading_lt base most cs
  have hlt := value_lt hall
  have hle := Nat.pow_le_pow_right hpos hlen
  exact ⟨Int.natCast_nonneg _, by omega⟩

theorem isPoint_pointOf (c : Char) : IsPoint (pointOf c) := by
  have hvalid : c.toNat.isValidChar := c.valid
  have hle : (c.toNat : Int) ≤ 0x10FFFF := by
    unfold Nat.isValidChar at hvalid
    omega
  exact ⟨Int.natCast_nonneg _, hle⟩

theorem isPoint_escape {u : Escape.Glyph} (h : Escape.escape cs = .ok u) :
    ∀ n ∈ u.value, IsPoint n := by
  revert h
  fun_cases Escape.escape cs
  case case13 =>
    rintro ⟨⟩
    exact List.forall_mem_singleton.mpr (isPoint_value (by decide) (by decide) _)
  case case16 =>
    have hreach (c : Char) : 8 ^ Escape.octalReach c ≤ 0x10FFFF := by
      unfold Escape.octalReach
      split <;> decide
    rintro ⟨⟩
    exact List.forall_mem_singleton.mpr (isPoint_value (hreach _) (by decide) _)
  -- the others are no escapes, or stand for one point or for none, whatever follows
  all_goals rintro ⟨⟩
  all_goals decide

theorem isPoint_unit {u : Escape.Glyph} (h : Escape.unit c cs = .ok u) :
    ∀ n ∈ u.value, IsPoint n := by
  unfold Escape.unit at h
  split at h
  · exact isPoint_escape h
  · cases h
    exact List.forall_mem_singleton.mpr (isPoint_pointOf c)

/-- What a body decodes to are code points. -/
theorem isPoint_decodePoints {v : List Int} (h : Escape.decodePoints p cs = .ok v) :
    ∀ n ∈ v, IsPoint n := by
  fun_induction Escape.decodePoints p cs generalizing v with
  | case1 =>
    cases h
    exact List.forall_mem_nil _
  | case2 => cases h
  | case3 p c rest u hu ih =>
    obtain ⟨w, hw, rfl⟩ := map_eq_ok.mp h
    exact List.forall_mem_append.mpr ⟨isPoint_unit hu, ih hw⟩

end TextScript
