/-
TextScript/Proofs/Covering.lean

Which token of a source each node of a tree stands for.

`Covers spots e` reads the tree `e` off tokens in a row, each with the characters in front of it.
A node takes its token from where it was written: an operator from between its operands, a name
from behind its receiver, a bracket from behind the target of an index or from in front of the
items of a list.  It keeps this very token.  Only a number right behind a minus sign is made of
two tokens, and it keeps the line of the one and the column of the other.  The parts of a literal
are read off its body (`Pieces`): segments keep the token of the literal, and code in it is a
source of its own, with tokens of its own.

What is open in the parser is covered by the tokens so far, and each move goes on by its token
(`Moves.covered`).  So the tokens of an accepted source cover its trees (`parseLevels_covered`), and
brackets, commas and terminators, which no node stands for, are all that is left out.
-/
import TextScript.Proofs.Listing
import TextScript.Proofs.Places

namespace TextScript

open Lexer ParseState

/-! ### Tokens that nodes stand for -/

/-- A token, with all characters of the source in front of it. -/
abbrev Spot := List Char × Token

/-- Whether nodes stand for tokens of a kind: for those that are listed, and for the bracket that
opens a list or an index. -/
def TokenKind.marksNode (kind : TokenKind) : Bool :=
  kind.isListed || kind = .lbracket

/-- The tokens among some in a row that nodes stand for. -/
def marked (spots : List Spot) : List Spot :=
  spots.filter (·.2.kind.marksNode)

/-- `SpotsOf limit lead cs spots`: the tokens of the characters `cs`, which stand behind `lead`,
are those of `spots`, and each has the place of the characters in front of it. -/
structure SpotsOf (limit : Int) (lead cs : List Char) (spots : List Spot) : Prop where
  lays : Lays lead cs spots
  tokens : spots.map Prod.snd = tokens limit (behind lead) cs
  places : ∀ spot ∈ spots, spot.2.place = behind spot.1

/-! ### Trees read off tokens -/

mutual

/-- `Covers spots e`: the tokens of `spots`, from left to right, are those that the nodes of the
tree `e` stand for. -/
inductive Covers : List Spot → Expr → Prop
  | message (pre : List Char) {tok : Token} {parens : Bool} {spots : List Spot} {args : List Expr} :
      tok.kind = .ident → CoversAll spots args →
      Covers ((pre, tok) :: spots) (.message ⟨tok, tok.lit, parens⟩ args)
  | send (pre : List Char) {tok : Token} {parens : Bool} {own spots : List Spot} {receiver : Expr}
      {args : List Expr} :
      Covers own receiver → tok.kind = .ident → CoversAll spots args →
      Covers (own ++ (pre, tok) :: spots) (.send tok receiver ⟨tok, tok.lit, parens⟩ args)
  | int (pre : List Char) {tok : Token} {n : Int64} :
      tok.kind = .int → integer? tok.lit = some n → Covers [(pre, tok)] (.int tok n)
  /-- A number with the sign right before it. -/
  | folded (pre pre' : List Char) {sign tok : Token} {n : Int64} :
      sign.kind = .minus → tok.kind = .int → integer? tok.lit = some n →
      Covers [(pre, sign), (pre', tok)] (negated sign tok n)
  /-- A literal without interpolations. -/
  | text (pre : List Char) {tok : Token} {v : Text} :
      tok.kind = .text → Pieces tok (pre ++ ['"']) tok.lit.toList [.text tok v] →
      Covers [(pre, tok)] (.text tok v)
  | concat (pre : List Char) {tok : Token} {parts : List Expr} :
      tok.kind = .text → Pieces tok (pre ++ ['"']) tok.lit.toList parts →
      Covers [(pre, tok)] (.concat tok parts)
  | unary (pre : List Char) {tok : Token} {op : UnaryOp} {spots : List Spot} {operand : Expr} :
      tok.kind.unaryOp? = some op → Covers spots operand →
      Covers ((pre, tok) :: spots) (.unary tok op operand)
  | binary (pre : List Char) {tok : Token} {op : BinaryOp} {own spots : List Spot}
      {left right : Expr} :
      Covers own left → tok.kind.binaryOp? = some op → Covers spots right →
      Covers (own ++ (pre, tok) :: spots) (.binary tok left op right)
  | index (pre : List Char) {tok : Token} {own spots : List Spot} {target position : Expr} :
      Covers own target → tok.kind = .lbracket → Covers spots position →
      Covers (own ++ (pre, tok) :: spots) (.index tok target position)
  | list (pre : List Char) {tok : Token} {spots : List Spot} {items : List Expr} :
      tok.kind = .lbracket → CoversAll spots items → Covers ((pre, tok) :: spots) (.list tok items)

/-- `CoversAll spots es`: the tokens of `spots` are those of the trees `es`, one tree after
another. -/
inductive CoversAll : List Spot → List Expr → Prop
  | nil : CoversAll [] []
  | cons {own spots : List Spot} {e : Expr} {es : List Expr} :
      Covers own e → CoversAll spots es → CoversAll (own ++ spots) (e :: es)

/-- `Pieces tok lead body parts`: the characters `body`, the rest of the literal of the token
`tok` behind `lead`, stand for `parts`. -/
inductive Pieces : Token → List Char → List Char → List Expr → Prop
  | last {tok : Token} {lead seg : List Char} {v : Text} :
      IsSegment seg → Escape.decodeAt (behind lead) seg = .ok v → Pieces tok lead seg [.text tok v]
  /-- Blank code stands for the empty text. -/
  | blank {tok : Token} {lead seg code rest : List Char} {v : Text} {parts : List Expr} :
      IsSegment seg → Escape.decodeAt (behind lead) seg = .ok v → IsCode code →
      Text.isBlankString (String.ofList code) = true →
      Pieces tok (lead ++ (seg ++ '#' :: '{' :: (code ++ ['}']))) rest parts →
      Pieces tok lead (seg ++ '#' :: '{' :: (code ++ '}' :: rest))
        (.text tok v :: .text tok .empty :: parts)
  | code {tok : Token} {lead seg code rest : List Char} {v : Text} {limit : Int} {spots : List Spot}
      {e : Expr} {parts : List Expr} :
      IsSegment seg → Escape.decodeAt (behind lead) seg = .ok v → IsCode code →
      SpotsOf limit (lead ++ (seg ++ ['#', '{'])) code spots → Covers (marked spots) e →
      Pieces tok (lead ++ (seg ++ '#' :: '{' :: (code ++ ['}']))) rest parts →
      Pieces tok lead (seg ++ '#' :: '{' :: (code ++ '}' :: rest)) (.text tok v :: e :: parts)

end

variable {limit : Int} {lead cs pre : List Char} {tok : Token} {spots own more : List Spot}
variable {e c : Expr} {es fs : List Expr}

/-- Tokens that nodes are placed at, of one row and then of another. -/
theorem marked_append (spots more : List Spot) :
    marked (spots ++ more) = marked spots ++ marked more :=
  List.filter_append ..

theorem marked_of (pre : List Char) (hk : tok.kind.marksNode = true) :
    marked [(pre, tok)] = [(pre, tok)] :=
  List.filter_cons_of_pos hk

theorem marked_of_not (pre : List Char) (hk : tok.kind.marksNode = false) :
    marked [(pre, tok)] = [] :=
  List.filter_cons_of_neg (by simp [hk])

theorem marksNode_unaryOp? {op : UnaryOp} (h : tok.kind.unaryOp? = some op) :
    tok.kind.marksNode = true := by
  rw [TokenKind.marksNode, isListed_unaryOp? h, Bool.true_or]

theorem marksNode_binaryOp? {op : BinaryOp} (h : tok.kind.binaryOp? = some op) :
    tok.kind.marksNode = true := by
  rw [TokenKind.marksNode, isListed_binaryOp? h, Bool.true_or]

theorem marksNode_closer (f : Frame) : f.closer.marksNode = false := by
  cases f <;> rfl

theorem marksNode_ending (h : tok.kind = .terminator ∨ tok.kind = .eof) :
    tok.kind.marksNode = false := by
  rcases h with hk | hk <;> rw [hk] <;> rfl

/-- The tokens of any source have their spots. -/
theorem spotsOf_tokens (limit : Int) (lead cs : List Char) :
    ∃ spots, SpotsOf limit lead cs spots := by
  obtain ⟨spots, hlays, htokens, hplaces⟩ := tokens_spots limit lead cs
  exact ⟨spots, hlays, htokens, hplaces⟩

theorem coversAll_singleton (h : Covers spots e) : CoversAll spots [e] := by
  have hcons := CoversAll.cons h .nil
  rwa [List.append_nil] at hcons

theorem CoversAll.single (h : CoversAll spots [e]) : Covers spots e := by
  cases h with
  | cons hhead htail =>
    cases htail
    rwa [List.append_nil]

/-- Expressions in a row share the tokens out in order. -/
theorem CoversAll.append (h : CoversAll own es) (h' : CoversAll spots fs) :
    CoversAll (own ++ spots) (es ++ fs) := by
  induction es generalizing own with
  | nil =>
    cases h
    exact h'
  | cons e es ih =>
    cases h with
    | cons hhead htail =>
      rw [List.append_assoc]
      exact .cons hhead (ih htail)

/-- A message is placed at its name, between its receiver and its arguments. -/
theorem covers_message {receiver : Option Expr} (parens : Bool)
    (hreceiver : CoversAll own receiver.toList) (hk : tok.kind = .ident)
    (hargs : CoversAll spots es) :
    Covers (own ++ (pre, tok) :: spots) (Frame.message receiver tok parens es) := by
  cases receiver with
  | none =>
    cases hreceiver
    exact .message pre hk hargs
  | some r => exact .send pre hreceiver.single hk hargs

/-! ### What is open -/

/-- The tokens of an open frame: its own, and those of the trees that it holds. -/
inductive FrameCovers : List Spot → Frame → Prop
  | unary (pre : List Char) {tok : Token} {op : UnaryOp} :
      tok.kind.unaryOp? = some op → FrameCovers [(pre, tok)] (.unary tok op)
  | binary (pre : List Char) {tok : Token} {op : BinaryOp} {own : List Spot} {left : Expr} :
      Covers own left → tok.kind.binaryOp? = some op →
      FrameCovers (own ++ [(pre, tok)]) (.binary tok left op)
  | group : FrameCovers [] .group
  | index (pre : List Char) {tok : Token} {own : List Spot} {target : Expr} :
      Covers own target → tok.kind = .lbracket →
      FrameCovers (own ++ [(pre, tok)]) (.index tok target)
  | list (pre : List Char) {tok : Token} {spots : List Spot} {items : List Expr} :
      tok.kind = .lbracket → CoversAll spots items →
      FrameCovers ((pre, tok) :: spots) (.list tok items)
  | args (pre : List Char) {tok : Token} {receiver : Option Expr} {own spots : List Spot}
      {items : List Expr} :
      CoversAll own receiver.toList → tok.kind = .ident → CoversAll spots items →
      FrameCovers (own ++ (pre, tok) :: spots) (.args receiver tok items)

/-- The tokens of a stack, from its bottom to its top. -/
inductive StackCovers : List Spot → List Frame → Prop
  | nil : StackCovers [] []
  | cons {below own : List Spot} {top : Frame} {rest : List Frame} :
      StackCovers below rest → FrameCovers own top → StackCovers (below ++ own) (top :: rest)

/-- The tokens of what has just been read. -/
inductive StageCovers : List Spot → Stage → Prop
  | start : StageCovers [] .start
  | name (pre : List Char) {tok : Token} {receiver : Option Expr} {own : List Spot} :
      CoversAll own receiver.toList → tok.kind = .ident →
      StageCovers (own ++ [(pre, tok)]) (.name receiver tok)
  | operand {spots : List Spot} {e : Expr} : Covers spots e → StageCovers spots (.operand e)

/-- `StateCovers spots s`: the tokens are those of the completed expressions, of the stack and of
what has just been read, in this order. -/
inductive StateCovers : List Spot → ParseState → Prop
  | intro {finished waiting now : List Spot} {s : ParseState} :
      CoversAll finished s.done → StackCovers waiting s.stack → StageCovers now s.stage →
      StateCovers (finished ++ (waiting ++ now)) s

/-- The tokens of a stack and of the operand on top of it. -/
def OperandCovers (spots : List Spot) (stack : List Frame) (c : Expr) : Prop :=
  ∃ waiting now, StackCovers waiting stack ∧ Covers now c ∧ spots = waiting ++ now

variable {literal : Token → Traced Expr} {whole : Expr} {top frame : Frame}
variable {stack rest : List Frame}

/-- A frame that is closed covers its tokens and those of its last part. -/
theorem FrameCovers.closed {last : Option Expr} (h : FrameCovers own top)
    (hlast : CoversAll spots last.toList) (hwhole : top.closed? last = some whole) :
    Covers (own ++ spots) whole := by
  cases h with
  | unary => cases hwhole
  | binary => cases hwhole
  | group =>
    cases last with
    | none => cases hwhole
    | some e =>
      cases hwhole
      exact hlast.single
  | index pre htarget hk =>
    cases last with
    | none => cases hwhole
    | some e =>
      cases hwhole
      rw [List.append_assoc]
      exact .index pre htarget hk hlast.single
  | list pre hk hitems =>
    cases hwhole
    exact .list pre hk (hitems.append hlast)
  | args pre hreceiver hk hitems =>
    cases hwhole
    rw [List.append_assoc]
    exact covers_message true hreceiver hk (hitems.append hlast)

/-- One more part covers its own tokens behind those of the frame. -/
theorem FrameCovers.add (h : FrameCovers own top) (he : Covers spots e)
    (hmore : top.add? e = some frame) :
    FrameCovers (own ++ spots) frame := by
  cases h with
  | list pre hk hitems =>
    cases hmore
    exact .list pre hk (hitems.append (coversAll_singleton he))
  | args pre hreceiver hk hitems =>
    cases hmore
    rw [List.append_assoc]
    exact .args pre hreceiver hk (hitems.append (coversAll_singleton he))
  | unary => cases hmore
  | binary => cases hmore
  | group => cases hmore
  | index => cases hmore

theorem minus_of_unaryOp? (h : tok.kind.unaryOp? = some .negate) : tok.kind = .minus := by
  cases hk : tok.kind <;> rw [hk] at h <;> first | rfl | cases h

/-- What is held covers the tokens read since the last frame. -/
theorem StageCovers.held {stage : Stage} (h : StageCovers spots stage) (hc : stage.held? = some c) :
    Covers spots c := by
  cases h with
  | start => cases hc
  | name pre hreceiver hk =>
    cases hc
    exact covers_message false hreceiver hk .nil
  | operand he =>
    cases hc
    exact he

variable {s s' : ParseState} {k : Strength}

/-- Closing operators regroups the tokens of stack and operand. -/
theorem reduce_covers (h : reduce k stack c = (rest, e)) (hs : OperandCovers spots stack c) :
    OperandCovers spots rest e := by
  refine reduce_keeps ?_ ?_ h hs
  · rintro tok op rest c ⟨waiting, now, hstack, hc, rfl⟩
    cases hstack with
    | cons hbelow htop =>
      cases htop with
      | unary pre hop => exact ⟨_, _, hbelow, .unary pre hop hc, by simp⟩
  · rintro tok left op rest c ⟨waiting, now, hstack, hc, rfl⟩
    cases hstack with
    | cons hbelow htop =>
      cases htop with
      | binary pre hleft hop => exact ⟨_, _, hbelow, .binary pre hleft hop hc, by simp⟩

/-- The tokens so far, where an operand is at hand and some operators have been closed. -/
theorem StateCovers.reduced (h : StateCovers spots s) (hc : s.stage.held? = some c)
    (hred : reduce k s.stack c = (rest, e)) :
    ∃ finished waiting now, CoversAll finished s.done ∧ StackCovers waiting rest ∧ Covers now e ∧
      spots = finished ++ (waiting ++ now) := by
  cases h with
  | @intro finished waiting now _ hdone hstack hstage =>
    obtain ⟨waiting', now', hstack', he, heq⟩ :=
      reduce_covers hred ⟨waiting, now, hstack, hstage.held hc, rfl⟩
    exact ⟨finished, waiting', now', hdone, hstack', he, by rw [heq]⟩

/-- The tokens so far, where an operand is to begin. -/
theorem StateCovers.started (h : StateCovers spots s) (hs : s.stage = .start) :
    ∃ finished waiting, CoversAll finished s.done ∧ StackCovers waiting s.stack ∧
      spots = finished ++ waiting := by
  cases h with
  | @intro finished waiting now _ hdone hstack hstage =>
    rw [hs] at hstage
    cases hstage
    exact ⟨finished, waiting, hdone, hstack, by rw [List.append_nil]⟩

/-- A state covers what is finished, what waits and what is read now, in this order. -/
theorem stateCovers_of {finished waiting now : List Spot} (hdone : CoversAll finished s.done)
    (hstack : StackCovers waiting s.stack) (hstage : StageCovers now s.stage)
    (h : spots = finished ++ (waiting ++ now)) : StateCovers spots s :=
  h ▸ .intro hdone hstack hstage

namespace ParseState

/-- Each move goes on by its token, if a node stands for it. -/
theorem Moves.covered (hmove : Moves literal tok s s') (pre : List Char)
    (hlit : tok.kind = .text → ∀ e, (literal tok).result = .ok e → Covers [(pre, tok)] e)
    (h : StateCovers spots s) : StateCovers (spots ++ marked [(pre, tok)]) s' := by
  cases hmove with
  | newline hnl =>
    rw [marked_of_not pre (marksNode_ending (.inl (terminator_of_isNewline hnl))), List.append_nil]
    exact h
  | idle _ _ hk =>
    rw [marked_of_not pre (marksNode_ending hk), List.append_nil]
    exact h
  | name hs hk =>
    obtain ⟨finished, waiting, hdone, hstack, rfl⟩ := h.started hs
    rw [marked_of pre (by rw [hk]; rfl)]
    exact stateCovers_of hdone hstack (.name pre .nil hk) (by simp)
  | integer hs hk hn =>
    obtain ⟨finished, waiting, hdone, hstack, rfl⟩ := h.started hs
    rw [marked_of pre (by rw [hk]; rfl)]
    exact stateCovers_of hdone hstack (.operand (.int pre hk hn)) (by simp)
  | @folded n sign rest hs hk hn hsign =>
    obtain ⟨finished, waiting, hdone, hstack, rfl⟩ := h.started hs
    rw [hsign] at hstack
    rw [marked_of pre (by rw [hk]; rfl)]
    cases hstack with
    | cons hbelow htop =>
      cases htop with
      | unary front hop =>
        -- the sign leaves the stack and becomes part of the number
        have hnumber := Covers.folded front pre (minus_of_unaryOp? hop) hk hn
        exact stateCovers_of hdone hbelow (.operand hnumber) (by simp)
  | text hs hk hres =>
    obtain ⟨finished, waiting, hdone, hstack, rfl⟩ := h.started hs
    rw [marked_of pre (by rw [hk]; rfl)]
    exact stateCovers_of hdone hstack (.operand (hlit hk _ hres)) (by simp)
  | sign hs hop =>
    obtain ⟨finished, waiting, hdone, hstack, rfl⟩ := h.started hs
    rw [marked_of pre (marksNode_unaryOp? hop)]
    exact stateCovers_of hdone (hstack.cons (.unary pre hop)) .start (by simp)
  | group hs hk =>
    obtain ⟨finished, waiting, hdone, hstack, rfl⟩ := h.started hs
    rw [marked_of_not pre (by rw [hk]; rfl)]
    exact stateCovers_of hdone (hstack.cons .group) .start (by simp)
  | list hs hk =>
    obtain ⟨finished, waiting, hdone, hstack, rfl⟩ := h.started hs
    rw [marked_of pre (by rw [hk]; rfl)]
    exact stateCovers_of hdone (hstack.cons (.list pre hk .nil)) .start (by simp)
  | empty hs htop hk hwhole =>
    obtain ⟨finished, waiting, hdone, hstack, rfl⟩ := h.started hs
    rw [htop] at hstack
    rw [marked_of_not pre (by rw [hk]; exact marksNode_closer _)]
    cases hstack with
    | cons hbelow hown =>
      exact stateCovers_of hdone hbelow (.operand (hown.closed .nil hwhole)) (by simp)
  | arguments hs hk =>
    rw [marked_of_not pre (by rw [hk]; rfl), List.append_nil]
    cases h with
    | intro hdone hstack hstage =>
      rw [hs] at hstage
      cases hstage with
      | name front hreceiver hname =>
        exact stateCovers_of hdone (hstack.cons (.args front hreceiver hname .nil)) .start (by simp)
  | binary hheld hop hred =>
    obtain ⟨finished, waiting, now, hdone, hstack, hleft, rfl⟩ := h.reduced hheld hred
    rw [marked_of pre (marksNode_binaryOp? hop)]
    exact stateCovers_of hdone (hstack.cons (.binary pre hleft hop)) .start (by simp)
  | send hheld hk hred =>
    obtain ⟨finished, waiting, now, hdone, hstack, hreceiver, rfl⟩ := h.reduced hheld hred
    rw [marked_of pre (by rw [hk]; rfl)]
    exact stateCovers_of hdone hstack (.name pre (coversAll_singleton hreceiver) hk) (by simp)
  | index hheld hk hred =>
    obtain ⟨finished, waiting, now, hdone, hstack, htarget, rfl⟩ := h.reduced hheld hred
    rw [marked_of pre (by rw [hk]; rfl)]
    exact stateCovers_of hdone (hstack.cons (.index pre htarget hk)) .start (by simp)
  | complete hheld hk hred =>
    obtain ⟨finished, waiting, now, hdone, hstack, he, rfl⟩ := h.reduced hheld hred
    rw [marked_of_not pre (marksNode_ending hk)]
    cases hstack
    exact stateCovers_of (hdone.append (coversAll_singleton he)) .nil .start (by simp)
  | comma hheld hk hred hadd =>
    obtain ⟨finished, waiting, now, hdone, hstack, he, rfl⟩ := h.reduced hheld hred
    rw [marked_of_not pre (by rw [hk]; rfl)]
    cases hstack with
    | cons hbelow hown =>
      exact stateCovers_of hdone (hbelow.cons (hown.add he hadd)) .start (by simp)
  | close hheld hk hred hwhole =>
    obtain ⟨finished, waiting, now, hdone, hstack, he, rfl⟩ := h.reduced hheld hred
    rw [marked_of_not pre (by rw [hk]; exact marksNode_closer _)]
    cases hstack with
    | cons hbelow hown =>
      exact stateCovers_of hdone hbelow
        (.operand (hown.closed (coversAll_singleton he) hwhole)) (by simp)

/-- The reader of literals reads each literal of a row off its token. -/
def LiteralsCovered (literal : Token → Traced Expr) (spots : List Spot) : Prop :=
  ∀ spot ∈ spots, spot.2.kind = .text → ∀ e, (literal spot.2).result = .ok e → Covers [spot] e

/-- The tokens that a run has read, as far as nodes stand for them, cover what it has made of
them. -/
theorem run_covered (hlit : LiteralsCovered literal spots)
    (hok : ¬(run literal (spots.map Prod.snd)).HasFailed) :
    StateCovers (marked spots) (run literal (spots.map Prod.snd)) := by
  refine run_moves (P := fun seen s => ∀ spots : List Spot, spots.map Prod.snd = seen →
    LiteralsCovered literal spots → StateCovers (marked spots) s) ?_ ?_ _ hok spots rfl hlit
  · intro spots hseen _
    rw [List.map_eq_nil_iff.mp hseen]
    exact stateCovers_of .nil .nil .start rfl
  · intro seen tok s s' hmove ih spots hseen hlit
    obtain ⟨before, last, rfl, hbefore, hlast⟩ := List.map_eq_append_iff.mp hseen
    obtain ⟨⟨pre, _⟩, rfl, rfl⟩ := List.map_eq_singleton_iff.mp hlast
    rw [marked_append]
    have hread := ih before hbefore fun spot hspot => hlit spot (List.mem_append_left _ hspot)
    exact hmove.covered pre (hlit _ (by simp)) hread

end ParseState

/-! ### Literals -/

variable {reader : Option CodeReader} {quote body : List Char} {parts : List Expr}
variable {o : ParseOptions}
variable {prog : Program}

/-- What the reader of embedded code gives for code is covered by the tokens of the code. -/
def ReaderCovered (reader : Option CodeReader) : Prop :=
  ∀ read, reader = some read →
    ∀ lead code e, (read (String.ofList code) (behind lead)).result = .ok e →
      ∃ limit spots, SpotsOf limit lead code spots ∧ Covers (marked spots) e

/-- The parts of a literal cover its body. -/
theorem readParts_covered (limit : Int) (hr : ReaderCovered reader)
    (hparts : (Interpolation.readParts reader limit tok (behind lead) body).result = .ok parts) :
    Pieces tok lead body parts := by
  induction body using body_induction limit generalizing lead parts with
  | last seg hsize =>
    rw [readParts_segment hsize, Traced.result_andThen, bind_eq_ok] at hparts
    obtain ⟨v, hv, hparts⟩ := hparts
    cases hparts
    have hwhole : Interpolation.segmentSize (seg ++ []) = seg.length := by
      rw [List.append_nil]
      exact hsize
    exact .last (isSegment_of_decodeAt hwhole hv) hv
  | stuck seg rest n why hsize hscan =>
    rw [readParts_stuck hsize hscan, Traced.result_andThen, bind_eq_ok] at hparts
    obtain ⟨v, -, hparts⟩ := hparts
    cases hparts
  | block seg code rest hsize hscan ih =>
    rw [readParts_closed hsize hscan] at hparts
    simp only [Traced.result_andThen, bind_eq_ok] at hparts
    obtain ⟨v, hv, e, he, after, hafter, hparts⟩ := hparts
    cases hparts
    have hs := isSegment_of_decodeAt hsize hv
    have hc := isCode_of_closed hscan
    have hplace : (behind lead).advance (seg ++ ['#', '{']) =
      behind (lead ++ (seg ++ ['#', '{'])) := by simp
    have hnext : (behind (lead ++ (seg ++ ['#', '{']))).advance (code ++ ['}'])
        = behind (lead ++ (seg ++ '#' :: '{' :: (code ++ ['}']))) := by simp
    rw [hplace] at he hafter
    rw [hnext] at hafter
    have hrest := ih hafter
    -- blank code is not handed to the reader and covers nothing
    cases hblank : Text.isBlankString (String.ofList code) with
    | true =>
      unfold Interpolation.readCode at he
      rw [if_pos hblank] at he
      cases he
      exact .blank hs hv hc hblank hrest
    | false =>
      obtain ⟨read, hread, hres⟩ := readCode_ok hblank he
      obtain ⟨limit', spots, hspots, hcovers⟩ := hr read hread _ _ _ hres
      exact .code hs hv hc hspots hcovers hrest

/-- A literal is read off its token. -/
theorem read_covered (limit : Int) (hr : ReaderCovered reader) (hk : tok.kind = .text)
    (hplace : tok.place = behind quote)
    (he : (Interpolation.read reader limit tok).result = .ok e) :
    Covers [(quote, tok)] e := by
  have hnext : tok.place.next = behind (quote ++ ['"']) := by
    rw [hplace, ← behind_advance]
    rfl
  rw [Interpolation.read, hnext, Traced.result_andThen, bind_eq_ok] at he
  obtain ⟨parts, hparts, he⟩ := he
  have hpieces := readParts_covered limit hr hparts
  split at he
  · next whole =>
    cases he
    obtain ⟨v, rest, heq⟩ := readParts_first hparts
    cases heq
    exact .text quote hk hpieces
  · cases he
    exact .concat quote hk hpieces

/-! ### Sources -/

/-- The tokens of an accepted source, or of accepted code, cover its trees. -/
theorem parseLevels_covered (levels : Nat) (ho : o.embedded = none)
    (h : (Source.parseLevels levels o (behind lead) cs).toTraced.result = .ok prog) :
    ∃ spots, SpotsOf o.limit lead cs spots ∧ CoversAll (marked spots) prog := by
  induction levels using Nat.strongRecOn generalizing o lead cs prog with
  | ind levels ih =>
    rw [parseLevels_run] at h
    obtain ⟨hok, rfl⟩ := parsed_ok h
    obtain ⟨spots, hspots⟩ := spotsOf_tokens o.limit lead cs
    have hreader : ReaderCovered (o.embedded.or (Source.levelReader levels o)) := by
      intro read hread lead' code e he
      rcases reader_cases hread with hother | ⟨-, fewer, rfl, hself⟩
      · rw [ho] at hother
        cases hother
      · -- the code is a source of its own, one level down
        rw [hself, String.toList_ofList] at he
        have hinner : o.inner.embedded = none := ho
        obtain ⟨spots', hspots', hall⟩ :=
          ih fewer (Nat.lt_succ_self fewer) hinner (single_eq_ok_iff.mp he)
        exact ⟨o.inner.limit, spots', hspots', hall.single⟩
    have hlit : LiteralsCovered (Source.literals levels o) spots := fun spot hmem hk e he =>
      read_covered o.limit hreader hk (hspots.places spot hmem) he
    obtain ⟨init, last, htokens, hlast, -⟩ := tokens_eq_concat o.limit (behind lead) cs
    have hended := hok
    rw [htokens] at hended
    obtain ⟨hstage, hstack⟩ := run_ended hlast hended
    rw [← htokens] at hstage hstack
    rw [← hspots.tokens] at hok hstage hstack ⊢
    have hcovered := run_covered hlit hok
    refine ⟨spots, hspots, ?_⟩
    generalize marked spots = seen at hcovered ⊢
    cases hcovered with
    | intro hdone hwaiting hnow =>
      -- at the end nothing is open any more
      rw [hstack] at hwaiting
      rw [hstage] at hnow
      cases hwaiting
      cases hnow
      simpa using hdone

end TextScript
