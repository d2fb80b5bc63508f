/-
TextScript/Proofs/Listing.lean

The parser loses, repeats and reorders nothing.

Read from the left, a tree names the tokens it was made of (`Expr.listing`): those of its left
side, its own, those of its right side.  What is still open has a listing too, from the bottom of
the stack to the operand at hand, and each move of the parser puts its token at the end of it
(`Moves.lists`).  Only a number right behind a minus sign changes what is there already: the tree
keeps one token for the two, without their places.

The same run, cut after every completed expression, shows that expressions of a program are
programs of their own with terminators between them (`Laid`).
-/
import Mathlib.Data.List.Forall2
import TextScript.Proofs.Moves
import TextScript.Proofs.Sources

namespace TextScript

open Lexer

/-! ### Listings -/

/-- Whether tokens of a kind are listed: names, numbers, literals and operators are, terminators,
commas and brackets are not. -/
def TokenKind.isListed : TokenKind → Bool
  | .ident | .int | .text => true
  | kind => kind.binaryOp?.isSome || kind.unaryOp?.isSome

/-- The tokens of an integer.  A minus sign that has become part of it is a token again; where
sign and number stood each is not known from the tree. -/
def integerListing (tok : Token) : List Token :=
  match tok.lit.toList with
  | '-' :: digits => [{ kind := .minus, lit := "-" }, { kind := .int, lit := String.ofList digits }]
  | _ => [tok]

mutual

/-- The listed tokens of a tree, from left to right.  A literal is one token, whatever is embedded
in it. -/
def Expr.listing : Expr → List Token
  | .message head args => head.tok :: Expr.listingAll args
  | .send _ receiver head args => receiver.listing ++ head.tok :: Expr.listingAll args
  | .int tok _ => integerListing tok
  | .text tok _ => [tok]
  | .concat tok _ => [tok]
  | .unary tok _ operand => tok :: operand.listing
  | .binary tok left _ right => left.listing ++ tok :: right.listing
  | .index _ target position => target.listing ++ position.listing
  | .list _ items => Expr.listingAll items
  | .host tok _ _ => [tok]
  | .foreign _ => []

/-- The listed tokens of trees in order. -/
def Expr.listingAll : List Expr → List Token
  | [] => []
  | e :: es => e.listing ++ Expr.listingAll es

end

/-- A token tells of another one: it has the same kind and spelling, and the same place if any. -/
def Token.TellsOf (t u : Token) : Prop :=
  t.kind = u.kind ∧ t.lit = u.lit ∧ (t.place = .unknown ∨ t.place = u.place)

/-- `Lists told toks`: the tokens `told` are, one for one, the listed ones among `toks`. -/
def Lists (told toks : List Token) : Prop :=
  List.Forall₂ Token.TellsOf told (toks.filter (·.kind.isListed))

variable {tok t u v : Token} {toks told told' more : List Token} {e : Expr} {es : List Expr}

theorem Expr.listingAll_eq (es : List Expr) : Expr.listingAll es = es.flatMap Expr.listing := by
  induction es with
  | nil => rfl
  | cons e es ih => rw [Expr.listingAll, ih, List.flatMap_cons]

@[simp] theorem Expr.listingAll_append (es fs : List Expr) :
    Expr.listingAll (es ++ fs) = Expr.listingAll es ++ Expr.listingAll fs := by
  simp [Expr.listingAll_eq]

@[simp] theorem Expr.listingAll_singleton (e : Expr) : Expr.listingAll [e] = e.listing := by
  simp [Expr.listingAll_eq]

@[simp] theorem Frame.listing_message (receiver : Option Expr) (tok : Token) (parens : Bool)
    (args : List Expr) :
    (Frame.message receiver tok parens args).listing
      = Expr.listingAll receiver.toList ++ tok :: Expr.listingAll args := by
  cases receiver <;> simp [Frame.message, Expr.listing, Expr.listingAll]

theorem Token.tellsOf_refl (t : Token) : t.TellsOf t := ⟨rfl, rfl, .inr rfl⟩

/-- What tells of a token tells of all that it tells of. -/
theorem Token.TellsOf.trans (h : t.TellsOf u) (h' : u.TellsOf v) : t.TellsOf v := by
  obtain ⟨hkind, hlit, hplace⟩ := h
  obtain ⟨hkind', hlit', hplace'⟩ := h'
  refine ⟨hkind.trans hkind', hlit.trans hlit', ?_⟩
  rcases hplace with hnone | hsame
  · exact .inl hnone
  · exact hplace'.imp hsame.trans hsame.trans

/-- One row of tokens after another, listed in order. -/
theorem Lists.append (h : Lists told toks) (h' : Lists told' more) :
    Lists (told ++ told') (toks ++ more) := by
  unfold Lists at *
  rw [List.filter_append]
  exact List.rel_append h h'

theorem lists_nil : Lists [] [] := List.Forall₂.nil

theorem lists_listed (hk : tok.kind.isListed = true) : Lists [tok] [tok] := by
  unfold Lists
  rw [List.filter_cons_of_pos (by simpa using hk), List.filter_nil]
  exact .cons tok.tellsOf_refl .nil

theorem lists_unlisted (hk : tok.kind.isListed = false) : Lists [] [tok] := by
  unfold Lists
  rw [List.filter_cons_of_neg (by simp [hk]), List.filter_nil]
  exact .nil

/-- A token that is listed. -/
theorem Lists.read (h : Lists told toks) (tok : Token) (hk : tok.kind.isListed = true) :
    Lists (told ++ [tok]) (toks ++ [tok]) :=
  h.append (lists_listed hk)

/-- A token that is not. -/
theorem Lists.passed (h : Lists told toks) (tok : Token) (hk : tok.kind.isListed = false) :
    Lists told (toks ++ [tok]) := by
  simpa using h.append (lists_unlisted hk)

/-- What tells of a listing lists what that does. -/
theorem Lists.of_told (h : List.Forall₂ Token.TellsOf told' told) (hl : Lists told toks) :
    Lists told' toks := by
  unfold Lists at *
  generalize toks.filter (·.kind.isListed) = rest at hl ⊢
  induction h generalizing rest with
  | nil => exact hl
  | cons hhead _ ih =>
    cases hl with
    | cons hhead' htail => exact .cons (hhead.trans hhead') (ih _ htail)

/-! ### Tokens as they are spelled -/

/-- A minus sign is spelled as such, and a number has none in it. -/
structure Token.WellSpelled (tok : Token) : Prop where
  minus : tok.kind = .minus → tok.lit = "-"
  int : tok.kind = .int → '-' ∉ tok.lit.toList

/-- A minus is one character. -/
theorem lexeme_minus {limit : Int} {c : Char} {cs : List Char}
    (h : (lexeme limit c cs).kind = .minus) : c = '-' ∧ (lexeme limit c cs).size = 1 := by
  unfold lexeme at h ⊢
  split at h <;> try cases h
  · exact ⟨rfl, rfl⟩
  · rcases textLexeme_kind limit cs with hk | hk <;> rw [hk] at h <;> cases h
  · split at h
    · cases h
    · split at h <;> cases h

/-- An integer is all the digits there are. -/
theorem lexeme_int {limit : Int} {c : Char} {cs : List Char}
    (h : (lexeme limit c cs).kind = .int) :
    (lexeme limit c cs).size = ((c :: cs).takeWhile isDigit).length := by
  unfold lexeme at h ⊢
  split at h <;> try cases h
  · rcases textLexeme_kind limit cs with hk | hk <;> rw [hk] at h <;> cases h
  · split at h
    · cases h
    · next hname =>
      rw [if_neg hname]
      split at h
      · next hdigit => rw [if_pos hdigit]
      · cases h

/-- The lexer spells signs and integers well. -/
theorem tokens_wellSpelled {limit : Int} {p : Position} {src : List Char}
    (h : tok ∈ tokens limit p src) : tok.WellSpelled := by
  rcases mem_tokens h with ⟨q, rfl⟩ | ⟨pre, c, cs, q, -, rfl⟩
  · exact ⟨nofun, nofun⟩
  refine ⟨fun hk => ?_, fun hk => ?_⟩
  · have hkind : (lexeme limit c cs).kind = .minus := hk
    obtain ⟨rfl, hsize⟩ := lexeme_minus hkind
    simp [token, spelling, hkind, hsize]
  · have hkind : (lexeme limit c cs).kind = .int := hk
    have hall : ((c :: cs).takeWhile isDigit).all isDigit = true := List.all_takeWhile
    have hlit :
        (token limit (lexeme limit c cs) ((c :: cs).take (lexeme limit c cs).size) q).lit.toList
          = (c :: cs).takeWhile isDigit := by
      rw [lexeme_int hkind, ← List.prefix_iff_eq_take.mp (List.takeWhile_prefix isDigit)]
      simp [token, spelling, hkind]
    rw [hlit]
    exact fun hmem => absurd (List.all_eq_true.mp hall _ hmem) (by decide)

/-- An integer of the source lists itself. -/
theorem integerListing_plain (h : tok.WellSpelled) (hk : tok.kind = .int) :
    integerListing tok = [tok] := by
  unfold integerListing
  split
  · next digits hlit => exact absurd (by rw [hlit]; exact List.mem_cons_self) (h.int hk)
  · rfl

/-- A number that has taken in its sign tells of both. -/
theorem listing_negated {sign : Token} (n : Int64) (hsign : sign.kind = .minus)
    (hlit : sign.lit = "-") (hk : tok.kind = .int) :
    List.Forall₂ Token.TellsOf (negated sign tok n).listing [sign, tok] := by
  have hlist : (negated sign tok n).listing
      = [{ kind := .minus, lit := "-" }, { kind := .int, lit := tok.lit }] := by
    simp [negated, Expr.listing, integerListing]
  rw [hlist]
  refine .cons ⟨hsign.symm, hlit.symm, .inl rfl⟩ (.cons ⟨hk.symm, rfl, .inl rfl⟩ .nil)

/-! ### Listings of what is open -/

/-- The listed tokens that an open frame holds. -/
def Frame.listing : Frame → List Token
  | .unary tok _ => [tok]
  | .binary tok left _ => left.listing ++ [tok]
  | .group => []
  | .index _ target => target.listing
  | .list _ items => Expr.listingAll items
  | .args receiver tok items => Expr.listingAll receiver.toList ++ tok :: Expr.listingAll items

/-- The listed tokens of a stack, from its bottom to its top. -/
def stackListing : List Frame → List Token
  | [] => []
  | f :: rest => stackListing rest ++ f.listing

/-- The listed tokens of the operand at hand. -/
def Stage.listing : Stage → List Token
  | .name receiver tok => Expr.listingAll receiver.toList ++ [tok]
  | .operand e => e.listing
  | _ => []

namespace ParseState

/-- The listed tokens of all that was read. -/
def listing (s : ParseState) : List Token :=
  Expr.listingAll s.done ++ (stackListing s.stack ++ s.stage.listing)

variable {literal : Token → Traced Expr} {s s' : ParseState} {c whole : Expr} {top frame : Frame}
variable {stack rest : List Frame} {k : Strength}

theorem listing_held (h : s.stage.held? = some c) : s.stage.listing = c.listing := by
  cases hs : s.stage with
  | name receiver tok =>
    rw [hs] at h
    cases h
    simp [Stage.listing, Expr.listingAll]
  | operand e =>
    rw [hs] at h
    cases h
    rfl
  | start => simp [hs, Stage.held?] at h
  | failed f => simp [hs, Stage.held?] at h

/-- Closing operators keeps the listing of stack and operand. -/
theorem listing_reduce (k : Strength) (stack : List Frame) (c : Expr) :
    stackListing (reduce k stack c).1 ++ (reduce k stack c).2.listing
      = stackListing stack ++ c.listing := by
  induction stack generalizing c with
  | nil => rfl
  | cons f rest ih =>
    cases f with
    | unary tok op =>
      rw [reduce]
      split
      · rw [ih]
        simp [stackListing, Frame.listing, Expr.listing]
      · rfl
    | binary tok left op =>
      rw [reduce]
      split
      · rw [ih]
        simp [stackListing, Frame.listing, Expr.listing]
      · rfl
    | group => rfl
    | index => rfl
    | list => rfl
    | args => rfl

/-- Closing operators lists the same tokens. -/
theorem listing_reduced (hs : s.stage.held? = some c) (h : reduce k s.stack c = (stack, whole)) :
    s.listing = Expr.listingAll s.done ++ (stackListing stack ++ whole.listing) := by
  have hkeep := listing_reduce k s.stack c
  rw [h] at hkeep
  rw [listing, listing_held hs, hkeep]

/-- A frame that is closed lists its last part behind the others. -/
theorem listing_closed {last : Option Expr} (h : top.closed? last = some whole) :
    whole.listing = top.listing ++ Expr.listingAll last.toList := by
  cases top <;> cases last <;> cases h <;>
    simp [Frame.listing, Expr.listing, Expr.listingAll]

theorem listing_added (h : top.add? c = some frame) : frame.listing = top.listing ++ c.listing := by
  cases top <;> cases h <;> simp [Frame.listing]

/-- The signs on the stack are what they are read as. -/
def Signs (stack : List Frame) : Prop :=
  ∀ sign op, Frame.unary sign op ∈ stack → sign.kind.unaryOp? = some op ∧ sign.WellSpelled

theorem signs_nil : Signs [] := fun _ _ h => by cases h

theorem Signs.tail (h : Signs (top :: rest)) : Signs rest :=
  fun sign op hmem => h sign op (List.mem_cons_of_mem _ hmem)

theorem Signs.cons (h : Signs rest)
    (htop : ∀ sign op, top = .unary sign op → sign.kind.unaryOp? = some op ∧ sign.WellSpelled) :
    Signs (top :: rest) := by
  intro sign op hmem
  rcases List.mem_cons.mp hmem with heq | hrest
  · exact htop sign op heq.symm
  · exact h sign op hrest

/-- Closing operators leaves the signs that wait below. -/
theorem Signs.reduce (h : Signs stack) (k : Strength) (c : Expr) :
    Signs (ParseState.reduce k stack c).1 := by
  induction stack generalizing c with
  | nil => exact h
  | cons f rest ih =>
    cases f with
    | unary tok op =>
      rw [ParseState.reduce]
      split
      · exact ih h.tail _
      · exact h
    | binary tok left op =>
      rw [ParseState.reduce]
      split
      · exact ih h.tail _
      · exact h
    | group => exact h
    | index => exact h
    | list => exact h
    | args => exact h

theorem Signs.reduced (h : Signs s.stack) {rest : List Frame}
    (hred : ParseState.reduce k s.stack c = (rest, whole)) : Signs rest := by
  have hkeep := h.reduce k c
  rwa [hred] at hkeep

/-- Only a sign of the source comes to wait on the stack. -/
theorem Moves.signs (h : Moves literal tok s s') (htok : tok.WellSpelled) (hs : Signs s.stack) :
    Signs s'.stack := by
  cases h with
  | newline => exact hs
  | idle => exact hs
  | name => exact hs
  | integer => exact hs
  | folded _ _ _ hstack =>
    rw [hstack] at hs
    exact hs.tail
  | text => exact hs
  | sign _ hop =>
    refine hs.cons ?_
    rintro sign op ⟨⟩
    exact ⟨hop, htok⟩
  | group => exact hs.cons fun _ _ h => by cases h
  | list => exact hs.cons fun _ _ h => by cases h
  | empty _ hstack =>
    rw [hstack] at hs
    exact hs.tail
  | arguments => exact hs.cons fun _ _ h => by cases h
  | binary _ _ hred => exact (hs.reduced hred).cons fun _ _ h => by cases h
  | send _ _ hred => exact hs.reduced hred
  | index _ _ hred => exact (hs.reduced hred).cons fun _ _ h => by cases h
  | complete => exact signs_nil
  | @comma c e top more rest _ _ hred hmore =>
    refine (hs.reduced hred).tail.cons ?_
    -- nothing is added to a sign
    rintro sign op rfl
    cases top <;> cases hmore
  | close _ _ hred => exact (hs.reduced hred).tail

/-! ### One move -/

theorem isListed_unaryOp? {op : UnaryOp} (h : tok.kind.unaryOp? = some op) :
    tok.kind.isListed = true := by
  cases hk : tok.kind <;> rw [hk] at h <;> first | rfl | cases h

theorem isListed_binaryOp? {op : BinaryOp} (h : tok.kind.binaryOp? = some op) :
    tok.kind.isListed = true := by
  cases hk : tok.kind <;> rw [hk] at h <;> first | rfl | cases h

theorem isListed_closer (f : Frame) : f.closer.isListed = false := by
  cases f <;> rfl

theorem isListed_ending (h : tok.kind = .terminator ∨ tok.kind = .eof) :
    tok.kind.isListed = false := by
  rcases h with hk | hk <;> rw [hk] <;> rfl

theorem isListed_isNewline (h : tok.isNewline = true) : tok.kind.isListed = false :=
  isListed_ending (.inl (terminator_of_isNewline h))

/-- The reader of literals makes each literal a tree of one token. -/
def Single (literal : Token → Traced Expr) : Prop :=
  ∀ tok e, (literal tok).result = .ok e → e.listing = [tok]

/-- Each move puts its token at the end of the listing, if it is a listed one. -/
theorem Moves.lists (h : Moves literal tok s s') (hlit : Single literal) (htok : tok.WellSpelled)
    (hs : Signs s.stack) (hl : Lists s.listing toks) : Lists s'.listing (toks ++ [tok]) := by
  cases h with
  | newline hnl => exact hl.passed tok (isListed_isNewline hnl)
  | idle _ _ hk => exact hl.passed tok (isListed_ending hk)
  | name hstage hk =>
    have hread := hl.read tok (by rw [hk]; rfl)
    simpa [listing, hstage, Stage.listing, Expr.listingAll] using hread
  | integer hstage hk _ _ =>
    have hread := hl.read tok (by rw [hk]; rfl)
    simpa [listing, hstage, Stage.listing, operand, Expr.listing,
      integerListing_plain htok hk] using hread
  | @folded n sign rest hstage hk _ hstack =>
    -- the sign is the last token of the listing so far, and the number joins it
    obtain ⟨hop, hspelled⟩ := hs sign .negate (by rw [hstack]; exact List.mem_cons_self)
    have hminus : sign.kind = .minus := by
      cases hkind : sign.kind <;> rw [hkind] at hop <;> first | rfl | cases hop
    have hread := hl.read tok (by rw [hk]; rfl)
    refine Lists.of_told ?_ hread
    have htold := listing_negated n hminus (hspelled.minus hminus) hk
    have hpre : List.Forall₂ Token.TellsOf (Expr.listingAll s.done ++ stackListing rest)
        (Expr.listingAll s.done ++ stackListing rest) :=
      List.forall₂_same.mpr fun t _ => t.tellsOf_refl
    have hboth := List.rel_append hpre htold
    simpa [listing, hstage, hstack, Stage.listing, stackListing, Frame.listing, operand] using hboth
  | text hstage hk he =>
    have hread := hl.read tok (by rw [hk]; rfl)
    simpa [listing, hstage, Stage.listing, hlit _ _ he] using hread
  | sign hstage hop =>
    have hread := hl.read tok (isListed_unaryOp? hop)
    simpa [listing, hstage, Stage.listing, push, stackListing, Frame.listing] using hread
  | group hstage hk =>
    have hread := hl.passed tok (by rw [hk]; rfl)
    simpa [listing, hstage, Stage.listing, push, stackListing, Frame.listing] using hread
  | list hstage hk =>
    have hread := hl.passed tok (by rw [hk]; rfl)
    simpa [listing, hstage, Stage.listing, push, stackListing, Frame.listing,
      Expr.listingAll] using hread
  | empty hstage hstack hk hwhole =>
    have hread := hl.passed tok (by rw [hk]; exact isListed_closer _)
    simpa [listing, hstage, hstack, Stage.listing, operand, stackListing, listing_closed hwhole,
      Expr.listingAll] using hread
  | arguments hstage hk =>
    have hread := hl.passed tok (by rw [hk]; rfl)
    simpa [listing, hstage, Stage.listing, push, stackListing, Frame.listing,
      Expr.listingAll] using hread
  | binary hheld hop hred _ =>
    rw [listing_reduced hheld hred] at hl
    have hread := hl.read tok (isListed_binaryOp? hop)
    simpa [listing, Stage.listing, stackListing, Frame.listing] using hread
  | send hheld hk hred =>
    rw [listing_reduced hheld hred] at hl
    have hread := hl.read tok (by rw [hk]; rfl)
    simpa [listing, Stage.listing] using hread
  | index hheld hk hred =>
    rw [listing_reduced hheld hred] at hl
    have hread := hl.passed tok (by rw [hk]; rfl)
    simpa [listing, Stage.listing, stackListing, Frame.listing] using hread
  | complete hheld hk hred =>
    rw [listing_reduced hheld hred] at hl
    have hread := hl.passed tok (isListed_ending hk)
    simpa [listing, Stage.listing, stackListing] using hread
  | comma hheld hk hred hmore =>
    rw [listing_reduced hheld hred] at hl
    have hread := hl.passed tok (by rw [hk]; rfl)
    simpa [listing, Stage.listing, stackListing, listing_added hmore] using hread
  | close hheld hk hred hwhole =>
    rw [listing_reduced hheld hred] at hl
    have hread := hl.passed tok (by rw [hk]; exact isListed_closer _)
    simpa [listing, Stage.listing, stackListing, operand, listing_closed hwhole] using hread

/-! ### A whole run -/

/-- A run lists the tokens it has read. -/
theorem run_lists (hlit : Single literal) (hspelled : ∀ tok ∈ toks, tok.WellSpelled)
    (hok : ¬(run literal toks).HasFailed) : Lists (run literal toks).listing toks := by
  have hrun : (∀ tok ∈ toks, tok.WellSpelled) →
      Signs (run literal toks).stack ∧ Lists (run literal toks).listing toks := by
    refine run_moves (P := fun toks s => (∀ tok ∈ toks, tok.WellSpelled) →
      Signs s.stack ∧ Lists s.listing toks) ?_ ?_ toks hok
    · exact fun _ => ⟨signs_nil, lists_nil⟩
    · intro toks tok s s' hmove ih hall
      have htok : tok.WellSpelled := hall tok (by simp)
      obtain ⟨hsigns, hlists⟩ := ih fun t ht => hall t (by simp [ht])
      exact ⟨hmove.signs htok hsigns, hmove.lists hlit htok hsigns hlists⟩
  exact (hrun hspelled).2

/-- A move at the end of input leaves nothing open. -/
theorem Moves.ended (h : Moves literal tok s s') (hk : tok.kind = .eof) :
    s'.stage = .start ∧ s'.stack = [] := by
  rcases h.at_end hk with ⟨hstage, hstack, rfl⟩ | ⟨c, e, -, -, rfl⟩
  · exact ⟨hstage, hstack⟩
  · exact ⟨rfl, rfl⟩

/-- At the end of the source nothing waits. -/
theorem run_ended (hk : tok.kind = .eof) (hok : ¬(run literal (toks ++ [tok])).HasFailed) :
    (run literal (toks ++ [tok])).stage = .start ∧ (run literal (toks ++ [tok])).stack = [] := by
  rw [run_concat] at hok ⊢
  exact (step_moves hok).ended hk

/-- Where nothing is open, the listing is that of the program so far. -/
theorem listing_ended (hstage : s.stage = .start) (hstack : s.stack = []) :
    s.listing = Expr.listingAll s.done := by
  simp [listing, hstage, hstack, stackListing, Stage.listing]

/-! ### Expressions one after another -/

/-- `Makes literal toks e`: as a program of their own, the tokens are the expression `e`. -/
def Makes (literal : Token → Traced Expr) (toks : List Token) (e : Expr) : Prop :=
  ∃ last : Token, last.kind = .eof ∧ ¬(run literal (toks ++ [last])).HasFailed ∧
    (run literal (toks ++ [last])).done = [e]

/-- `Laid literal toks es`: the tokens are expressions of their own, each with a token behind it
that ends it. -/
inductive Laid (literal : Token → Traced Expr) : List Token → List Expr → Prop
  | nil : Laid literal [] []
  | cons {block toks : List Token} {tok : Token} {e : Expr} {es : List Expr} :
      Makes literal block e → tok.kind = .terminator ∨ tok.kind = .eof → Laid literal toks es →
      Laid literal (block ++ tok :: toks) (e :: es)

variable {block : List Token} {fs : List Expr}

/-- Expressions in a row, and the tokens between them. -/
theorem Laid.append (h : Laid literal toks es) (h' : Laid literal more fs) :
    Laid literal (toks ++ more) (es ++ fs) := by
  induction h with
  | nil => exact h'
  | cons hmakes hk _ ih =>
    rw [List.append_assoc, List.cons_append, List.cons_append]
    exact .cons hmakes hk ih

/-- Expressions laid out one after another can be cut between any two of them. -/
theorem Laid.cut (h : Laid literal toks (es ++ fs)) :
    ∃ before rest, toks = before ++ rest ∧ Laid literal before es ∧ Laid literal rest fs := by
  induction es generalizing toks with
  | nil => exact ⟨[], toks, rfl, .nil, h⟩
  | cons e es ih =>
    cases h with
    | @cons block toks tok _ _ hmakes hk hrest =>
      obtain ⟨before, rest, rfl, hbefore, hafter⟩ := ih hrest
      exact ⟨block ++ tok :: before, rest, by simp, .cons hmakes hk hbefore, hafter⟩

/-- An expression lists the tokens that it is made of. -/
theorem Makes.lists (h : Makes literal toks e) (hlit : Single literal)
    (hspelled : ∀ tok ∈ toks, tok.WellSpelled) : Lists e.listing toks := by
  obtain ⟨last, hlast, hok, hdone⟩ := h
  obtain ⟨hstage, hstack⟩ := run_ended hlast hok
  have hbefore := run_lists hlit (fun tok ht => ?_) hok
  rw [listing_ended hstage hstack, hdone, Expr.listingAll_singleton] at hbefore
  · unfold Lists at hbefore ⊢
    rw [List.filter_append, List.filter_cons_of_neg (by rw [hlast]; decide)] at hbefore
    simpa using hbefore
  · rcases List.mem_append.mp ht with hmem | hmem
    · exact hspelled tok hmem
    · rw [List.mem_singleton.mp hmem]
      exact ⟨fun h => by simp [hlast] at h, fun h => by simp [hlast] at h⟩

/-- So do expressions in a row. -/
theorem Laid.lists (h : Laid literal toks es) (hlit : Single literal)
    (hspelled : ∀ tok ∈ toks, tok.WellSpelled) : Lists (Expr.listingAll es) toks := by
  induction h with
  | nil => exact lists_nil
  | cons hmakes hk _ ih =>
    have hblock := hmakes.lists hlit fun t ht => hspelled t (by simp [ht])
    have hrest := ih fun t ht => hspelled t (by simp [ht])
    have htok := lists_unlisted (isListed_ending hk)
    simpa [Expr.listingAll] using hblock.append (htok.append hrest)

/-- An operand that a terminator completes is an expression of its own. -/
theorem makes_of_complete (last : Token) (hlast : last.kind = .eof)
    (hdone : (run literal toks).done = []) (hheld : (run literal toks).stage.held? = some c)
    (hred : reduce Strength.lowest (run literal toks).stack c = ([], e)) :
    Makes literal toks e := by
  have hrun : run literal (toks ++ [last]) = (run literal toks).finish c last := by
    rw [run_concat, step_ender hheld (by simp [hlast, TokenKind.enders])]
  refine ⟨last, hlast, ?_, ?_⟩
  · rw [hrun]
    simp [finish, hred, hlast, HasFailed]
  · rw [hrun]
    simp [finish, hred, hlast, hdone]

/-- An expression is finished by a terminator or the end of the source, and by nothing else. -/
theorem Moves.done_cases (h : Moves literal tok s s') :
    s'.done = s.done ∨ (tok.kind = .terminator ∨ tok.kind = .eof) ∧
      ∃ c e, s.stage.held? = some c ∧ reduce Strength.lowest s.stack c = ([], e) ∧
        s' = { s with stack := [], done := s.done ++ [e], stage := .start } := by
  cases h with
  | complete hheld hk hred => exact .inr ⟨hk, _, _, hheld, hred, rfl⟩
  | _ => exact .inl rfl

/-- What a run has read: expressions laid out one after another, and the beginning of one more. -/
theorem run_laid (toks : List Token) (hok : ¬(run literal toks).HasFailed) :
    ∃ laid block events, toks = laid ++ block ∧ Laid literal laid (run literal toks).done ∧
      (run literal block).done = [] ∧
      run literal toks = (run literal block).after (run literal toks).done events := by
  induction toks using List.reverseRecOn with
  | nil => exact ⟨[], [], [], rfl, .nil, rfl, rfl⟩
  | append_singleton toks tok ih =>
    obtain ⟨laid, block, events, htoks, hlaid, hnone, hrun⟩ := ih (not_failed_concat hok)
    have hstep : run literal (toks ++ [tok])
        = (run literal (block ++ [tok])).after (run literal toks).done events := by
      rw [run_concat, run_concat, ← step_after, ← hrun]
    have hok' : ¬((run literal block).step literal tok).HasFailed := by
      rw [hstep, run_concat] at hok
      exact hok
    rcases (step_moves hok').done_cases with hdone | ⟨hk, c, e, hheld, hred, hnext⟩
    · -- nothing is completed: the token belongs to the expression that has begun
      rw [← run_concat, hnone] at hdone
      have hsame : (run literal (toks ++ [tok])).done = (run literal toks).done := by
        rw [hstep]
        simp [after, hdone]
      refine ⟨laid, block ++ [tok], events, by rw [htoks, List.append_assoc], ?_, hdone, ?_⟩
      · rwa [hsame]
      · rw [hsame]
        exact hstep
    · -- the expression is completed: the next one has not begun
      have hmakes := makes_of_complete { kind := .eof } rfl hnone hheld hred
      have hfresh : run literal (block ++ [tok]) =
          ({} : ParseState).after [e] (run literal block).events := by
        rw [run_concat, hnext, hnone]
        simp [after]
      have hmore : (run literal (toks ++ [tok])).done = (run literal toks).done ++ [e] := by
        rw [hstep, hfresh]
        simp [after]
      refine ⟨laid ++ (block ++ [tok]), [], events ++ (run literal block).events, ?_, ?_, rfl, ?_⟩
      · rw [htoks]
        simp
      · rw [hmore]
        exact hlaid.append (.cons hmakes hk .nil)
      · rw [hmore, hstep, hfresh]
        simp [after, run]

/-- A program that is complete consists of the expressions laid out in it, and of terminators. -/
theorem run_complete (hlit : Single literal) (hspelled : ∀ tok ∈ toks, tok.WellSpelled)
    (hok : ¬(run literal toks).HasFailed) (hstage : (run literal toks).stage = .start)
    (hstack : (run literal toks).stack = []) :
    ∃ laid block, toks = laid ++ block ∧ Laid literal laid (run literal toks).done ∧
      Lists [] block := by
  obtain ⟨laid, block, events, htoks, hlaid, hnone, hrun⟩ := run_laid toks hok
  rw [hrun] at hok hstage hstack
  have hspelled' : ∀ tok ∈ block, tok.WellSpelled :=
    fun tok hmem => hspelled tok (by simp [htoks, hmem])
  have hlists := run_lists hlit hspelled' hok
  rw [listing_ended (s := run literal block) hstage hstack, hnone] at hlists
  exact ⟨laid, block, htoks, hlaid, hlists⟩

/-- Two expressions next to each other in a complete program. -/
theorem Laid.neighbours {pre post : List Expr} {e' : Expr} (hlit : Single literal)
    (hspelled : ∀ tok ∈ toks, tok.WellSpelled) (h : Laid literal toks (pre ++ e :: e' :: post)) :
    ∃ before mid tok mid' rest, toks = before ++ (mid ++ ([tok] ++ (mid' ++ rest))) ∧ rest ≠ [] ∧
      (tok.kind = .terminator ∨ tok.kind = .eof) ∧ Makes literal mid e ∧ Makes literal mid' e' ∧
      Lists (Expr.listingAll pre) before ∧ Lists (Expr.listingAll post) rest := by
  obtain ⟨before, pair, rfl, hbefore, hpair⟩ := h.cut
  cases hpair with
  | @cons mid toks tok _ _ hmid hk hnext =>
    cases hnext with
    | @cons mid' toks tok' _ _ hmid' hk' hrest =>
      refine ⟨before, mid, tok, mid', tok' :: toks, rfl, by simp, hk, hmid, hmid', ?_, ?_⟩
      · exact hbefore.lists hlit fun t ht => hspelled t (by simp [ht])
      · have hlists := hrest.lists hlit fun t ht => hspelled t (by simp [ht])
        simpa using (lists_unlisted (isListed_ending hk')).append hlists

end ParseState

/-! ### Whole sources -/

/-- The parts of a literal begin with a text. -/
theorem readParts_first {reader : Option CodeReader} {limit : Int} {p : Position} {cs : List Char}
    {parts : List Expr} (h : (Interpolation.readParts reader limit tok p cs).result = .ok parts) :
    ∃ v rest, parts = .text tok v :: rest := by
  rw [Interpolation.readParts] at h
  split at h
  · cases h
  · split at h
    · split at h
      · cases h
      · simp only [Traced.result_andThen, bind_eq_ok] at h
        obtain ⟨e, -, more, -, hparts⟩ := h
        exact ⟨_, _, (Except.ok.inj hparts).symm⟩
    · exact ⟨_, _, (Except.ok.inj h).symm⟩

/-- The reader of literals keeps the token of the literal. -/
theorem read_single (reader : Option CodeReader) (limit : Int) :
    ParseState.Single (Interpolation.read reader limit) := by
  intro tok e h
  rw [Interpolation.read, Traced.result_andThen, bind_eq_ok] at h
  obtain ⟨parts, hparts, he⟩ := h
  obtain ⟨v, rest, rfl⟩ := readParts_first hparts
  split at he
  · next heq =>
    cases heq
    cases he
    rfl
  · cases he
    rfl

theorem mem_of_append_eq_concat {before rest init : List Token} {last : Token} (hrest : rest ≠ [])
    (h : before ++ tok :: rest = init ++ [last]) : tok ∈ init := by
  have hinit : init = (before ++ tok :: rest).dropLast := by rw [h, List.dropLast_concat]
  rw [hinit, List.dropLast_append_of_ne_nil (List.cons_ne_nil _ _),
    List.dropLast_cons_of_ne_nil hrest]
  simp

/-- An accepted source is listed by its trees: in order, without a gap and without a repetition.
Any two expressions next to each other are programs of their own, with nothing but terminators
between them, and at least one. -/
theorem accepted_source_listed (o : ParseOptions) (src : List Char)
    (hok : (Source.parse o src).failure = none) :
    Lists ((Source.parse o src).program.flatMap Expr.listing) (tokens o.limit {} src) ∧
    ∀ pre e e' post, (Source.parse o src).program = pre ++ e :: e' :: post →
      ∃ before mid gap mid' rest,
        tokens o.limit {} src = before ++ (mid ++ (gap ++ (mid' ++ rest))) ∧
        gap ≠ [] ∧ (∀ tok ∈ gap, tok.kind = .terminator) ∧
        Lists (pre.flatMap Expr.listing) before ∧ Lists (post.flatMap Expr.listing) rest ∧
        ParseState.Makes (Source.literals src.length o) mid e ∧
        ParseState.Makes (Source.literals src.length o) mid' e' := by
  let literal := Source.literals src.length o
  have hsingle : ParseState.Single literal := read_single _ _
  have hspelled : ∀ tok ∈ tokens o.limit {} src, tok.WellSpelled := fun tok => tokens_wellSpelled
  obtain ⟨init, last, htokens, hlast, hinit⟩ := tokens_eq_concat o.limit {} src
  have hparse : Source.parse o src = (ParseState.run literal (tokens o.limit {} src)).parsed :=
    parseLevels_run _ _ _ _
  rw [hparse] at hok ⊢
  have hrun : ¬(ParseState.run literal (tokens o.limit {} src)).HasFailed := by
    rintro ⟨f, hf⟩
    exact absurd (hok.symm.trans (ParseState.failure?_eq_some_iff.mpr hf)) (by simp)
  have hended : (ParseState.run literal (tokens o.limit {} src)).stage = .start ∧
      (ParseState.run literal (tokens o.limit {} src)).stack = [] := by
    rw [htokens] at hrun ⊢
    exact ParseState.run_ended hlast hrun
  refine ⟨?_, ?_⟩
  · rw [← Expr.listingAll_eq]
    have hlists := ParseState.run_lists hsingle hspelled hrun
    rwa [ParseState.listing_ended hended.1 hended.2] at hlists
  · intro pre e e' post hprogram
    obtain ⟨laid, block, hsplit, hlaid, hblock⟩ :=
      ParseState.run_complete hsingle hspelled hrun hended.1 hended.2
    rw [show (ParseState.run literal (tokens o.limit {} src)).done = _ from hprogram] at hlaid
    obtain ⟨before, mid, tok, mid', rest, rfl, hmore, hk, hmid, hmid', hpre, hpost⟩ :=
      hlaid.neighbours hsingle fun t ht => hspelled t (by rw [hsplit]; simp [ht])
    have hall : tokens o.limit {} src
        = before ++ (mid ++ ([tok] ++ (mid' ++ (rest ++ block)))) := by simp [hsplit]
    refine ⟨before, mid, [tok], mid', rest ++ block, hall, by simp, ?_, ?_, ?_, hmid, hmid'⟩
    · -- more tokens follow, so it is not the end of input
      have hconcat : before ++ mid ++ tok :: (mid' ++ (rest ++ block)) = init ++ [last] := by
        rw [← htokens, hall]
        simp
      have htok : tok ∈ init := mem_of_append_eq_concat (by simp [hmore]) hconcat
      rintro t ht
      rw [List.mem_singleton.mp ht]
      exact hk.resolve_right (hinit tok htok)
    · rwa [← Expr.listingAll_eq]
    · rw [← Expr.listingAll_eq]
      simpa using hpost.append hblock

/-- Two expressions with a line end between them; the second is a list with a negative number and a
literal in it. -/
theorem accepted_source_listed_two :
    let src := "a = b\n[-5, \"c#\x7bd\x7d\"]".toList
    (Source.parse {} src).failure = none ∧
      (((Source.parse {} src).program.flatMap Expr.listing).map (·.lit)
          = ["a", "=", "b", "-", "5", "c#\x7bd\x7d"] ∧
        Lists ((Source.parse {} src).program.flatMap Expr.listing) (tokens 64 {} src)) := by
  intro src
  have hok : (Source.parse {} src).failure = none := by decide +kernel
  exact ⟨hok, by decide +kernel, (accepted_source_listed {} src hok).1⟩

end TextScript
