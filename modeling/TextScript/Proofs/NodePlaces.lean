/-
TextScript/Proofs/NodePlaces.lean

Every node of a tree knows where it is.

A node keeps the token that it stands for, so its place is that of the first character of this
token in the whole source, however deep the code is that it stands in (`AtToken`).  The tokens
that cover a tree say which one that is, and an induction on the covering finds each of them in
the source.

A number that has taken in its sign is the exception.  It begins with the sign and has the column
of the sign, but the line of the numeral.  Line ends are passed over in brackets and lines can be
continued, so the two may be on different lines; then the place is that of neither
(`advance_column_iff`).
-/
import TextScript.Proofs.Covering

namespace TextScript

open Lexer ParseState

/-! ### Nodes -/

namespace Expr

mutual

/-- A tree and all trees inside of it.  Those of a literal are its segments and the expressions
embedded in it. -/
def nodes : Expr → List Expr
  | message head args => message head args :: nodesAll args
  | send tok receiver head args => send tok receiver head args :: (receiver.nodes ++ nodesAll args)
  | concat tok parts => concat tok parts :: nodesAll parts
  | unary tok op operand => unary tok op operand :: operand.nodes
  | binary tok left op right => binary tok left op right :: (left.nodes ++ right.nodes)
  | index tok target position => index tok target position :: (target.nodes ++ position.nodes)
  | list tok items => list tok items :: nodesAll items
  | int tok value => [int tok value]
  | text tok value => [text tok value]
  | host tok source run => [host tok source run]
  | foreign label => [foreign label]

/-- The nodes of trees in order. -/
def nodesAll : List Expr → List Expr
  | [] => []
  | e :: es => e.nodes ++ nodesAll es

end

/-- The token that a node keeps. -/
def ownToken : Expr → Token
  | message head _ => head.tok
  | send tok .. => tok
  | int tok _ => tok
  | text tok _ => tok
  | concat tok _ => tok
  | unary tok .. => tok
  | binary tok .. => tok
  | index tok .. => tok
  | list tok _ => tok
  | host tok .. => tok
  | foreign _ => .none

/-- The place of a node. -/
def place (e : Expr) : Position :=
  e.ownToken.place

/-- The tokens that a node may stand for: a name, a numeral, a literal, an operator or an opening
bracket. -/
def Suits (tok : Token) : Expr → Prop
  | message head _ => tok.kind = .ident ∧ tok.lit = head.name
  | send _ _ head _ => head.tok = tok ∧ tok.kind = .ident ∧ tok.lit = head.name
  | int _ value => tok.kind = .int ∧ integer? tok.lit = some value
  | text .. => tok.kind = .text
  | concat .. => tok.kind = .text
  | unary _ op _ => tok.kind.unaryOp? = some op
  | binary _ _ op _ => tok.kind.binaryOp? = some op
  | index .. => tok.kind = .lbracket
  | list .. => tok.kind = .lbracket
  | host .. => False
  | foreign _ => False

theorem nodes_negated (sign tok : Token) (n : Int64) :
    (negated sign tok n).nodes = [negated sign tok n] := rfl

theorem nodesAll_text_cons (tok : Token) (v : Text) (es : List Expr) :
    nodesAll (.text tok v :: es) = .text tok v :: nodesAll es := rfl

theorem forall_mem_nodesAll_cons {P : Expr → Prop} {e : Expr} {es : List Expr} :
    (∀ node ∈ nodesAll (e :: es), P node)
      ↔ (∀ node ∈ e.nodes, P node) ∧ ∀ node ∈ nodesAll es, P node := by
  rw [nodesAll, List.forall_mem_append]

theorem nodesAll_eq (es : List Expr) : nodesAll es = es.flatMap nodes := by
  induction es with
  | nil => rfl
  | cons e es ih => rw [nodesAll, ih, List.flatMap_cons]

end Expr

/-! ### Tokens in order -/

variable {limit : Int} {src lead cs pre : List Char} {tok sign : Token} {spots own : List Spot}
variable {spot : Spot}

/-- The first of two tokens is written before the second one. -/
def Before (first second : Spot) : Prop :=
  ∃ between, second.1 = first.1 ++ (first.2.written ++ between)

theorem Lays.leads (h : Lays lead cs spots) (hmem : spot ∈ spots) :
    ∃ between, spot.1 = lead ++ between := by
  induction h with
  | last =>
    rw [List.mem_singleton.mp hmem]
    exact ⟨_, rfl⟩
  | next _ _ _ ih =>
    rcases List.mem_cons.mp hmem with rfl | hmem
    · exact ⟨_, rfl⟩
    · obtain ⟨between, hbetween⟩ := ih hmem
      exact ⟨_, by rw [hbetween, List.append_assoc]⟩

/-- Tokens in a row are in order. -/
theorem Lays.ordered (h : Lays lead cs spots) : spots.Pairwise Before := by
  induction h with
  | last => exact List.pairwise_singleton _ _
  | next _ _ hrest ih =>
    refine List.pairwise_cons.mpr ⟨fun spot hspot => ?_, ih⟩
    obtain ⟨between, hbetween⟩ := hrest.leads hspot
    exact ⟨between, by rw [hbetween]; simp⟩

/-! ### Lines -/

theorem advance_line (p : Position) (cs : List Char) :
    (p.advance cs).line = p.line + cs.count '\n' := by
  induction cs generalizing p with
  | nil => simp
  | cons c cs ih =>
    rw [Position.advance_cons, ih, Position.step]
    split
    · next hc =>
      subst hc
      simp only [List.count_cons_self]
      omega
    · next hc => rw [List.count_cons_of_ne hc]

/-- The line behind some characters with the column in front of them is the place in front of them
exactly if there is no line end among them. -/
theorem advance_column_iff (p : Position) (cs : List Char) :
    (⟨(p.advance cs).line, p.column⟩ : Position) = p ↔ '\n' ∉ cs := by
  obtain ⟨line, column⟩ := p
  rw [Position.mk.injEq, advance_line, ← List.count_eq_zero]
  simp only [and_true]
  omega

/-- What follows a block of a literal. -/
theorem literal_block {lit front seg code rest : List Char}
    (h : lit = front ++ (seg ++ '#' :: '{' :: (code ++ '}' :: rest))) :
    lit = (front ++ (seg ++ '#' :: '{' :: (code ++ ['}']))) ++ rest := by
  rw [h]
  simp

/-! ### Tokens that are found -/

/-- `TokenAt src pre tok`: behind the characters `pre`, the token is found in the source or in
code embedded in it, and this is its place. -/
structure TokenAt (src pre : List Char) (tok : Token) : Prop where
  found : ∃ lead cs, SourceAt src lead cs ∧ Spotted lead cs pre tok
  place : tok.place = behind pre

theorem TokenAt.literal (h : TokenAt src pre tok) (hk : tok.kind = .text) :
    LiteralAt src pre tok := by
  obtain ⟨lead, cs, hsource, hspot⟩ := h.found
  exact ⟨lead, cs, hsource, hspot, hk⟩

/-- What is found in the source is written there. -/
theorem TokenAt.stands (h : TokenAt src pre tok) : ∃ post, src = pre ++ (tok.written ++ post) := by
  obtain ⟨lead, cs, hsource, hspot⟩ := h.found
  obtain ⟨post, rfl⟩ := hsource.stands
  obtain ⟨more, hmore⟩ := hspot.stands
  refine ⟨more ++ post, ?_⟩
  rw [← List.append_assoc, hmore]
  simp

theorem TokenAt.written_minus (h : TokenAt src pre tok) (hk : tok.kind = .minus) :
    tok.written = ['-'] := by
  obtain ⟨lead, cs, -, limit, spots, -, htokens, hmem⟩ := h.found
  have htok : tok ∈ tokens limit (behind lead) cs := htokens ▸ List.mem_map_of_mem hmem
  rw [Token.written, if_neg (by simp [hk]), (tokens_wellSpelled htok).minus hk]
  rfl

/-- The tokens of `spots` are found in the source, in order. -/
structure Found (src : List Char) (spots : List Spot) : Prop where
  at_place : ∀ spot ∈ spots, TokenAt src spot.1 spot.2
  ordered : spots.Pairwise Before

theorem SpotsOf.found (h : SpotsOf limit lead cs spots) (hsource : SourceAt src lead cs) :
    Found src (marked spots) := by
  refine ⟨fun spot hspot => ?_, h.lays.ordered.filter _⟩
  have hmem : spot ∈ spots := List.mem_of_mem_filter hspot
  exact ⟨⟨lead, cs, hsource, limit, spots, h.lays, h.tokens, hmem⟩, h.places spot hmem⟩

theorem Found.left (h : Found src (own ++ spots)) : Found src own :=
  ⟨fun spot hspot => h.at_place spot (List.mem_append_left _ hspot),
    (List.pairwise_append.mp h.ordered).1⟩

theorem Found.right (h : Found src (own ++ spots)) : Found src spots :=
  ⟨fun spot hspot => h.at_place spot (List.mem_append_right _ hspot),
    (List.pairwise_append.mp h.ordered).2.1⟩

theorem Found.head (h : Found src ((pre, tok) :: spots)) : TokenAt src pre tok :=
  h.at_place _ List.mem_cons_self

theorem Found.tail (h : Found src (spot :: spots)) : Found src spots :=
  have hcons : Found src ([spot] ++ spots) := h
  hcons.right

/-! ### Nodes at their tokens -/

/-- `AtToken src node`: the node has its place from a token that is found in the source, or from
two of them if it is a number that has taken in its sign. -/
inductive AtToken (src : List Char) : Expr → Prop
  | own {pre : List Char} {node : Expr} :
      TokenAt src pre node.ownToken → node.Suits node.ownToken → AtToken src node
  | folded {pre between : List Char} {sign tok : Token} {n : Int64} :
      TokenAt src pre sign → sign.kind = .minus → TokenAt src (pre ++ '-' :: between) tok →
      tok.kind = .int → AtToken src (negated sign tok n)

/-- A sign and a numeral in order are the tokens of a number. -/
theorem Found.number {pre' : List Char} {n : Int64} (h : Found src [(pre, sign), (pre', tok)])
    (hsign : sign.kind = .minus) (hk : tok.kind = .int) : AtToken src (negated sign tok n) := by
  obtain ⟨between, hbetween⟩ := List.rel_of_pairwise_cons h.ordered List.mem_cons_self
  dsimp only at hbetween
  rw [h.head.written_minus hsign, List.singleton_append] at hbetween
  subst hbetween
  exact .folded h.head hsign h.tail.head hk

mutual

/-- The nodes of a tree have their places from the tokens that cover it. -/
theorem Covers.atToken {spots : List Spot} {e : Expr} : Covers spots e → Found src spots →
    ∀ node ∈ e.nodes, AtToken src node
  | .message pre hk hargs, h => by
    rw [Expr.nodes, List.forall_mem_cons]
    exact ⟨.own h.head ⟨hk, rfl⟩, CoversAll.atToken hargs h.tail⟩
  | .send pre hreceiver hk hargs, h => by
    rw [Expr.nodes, List.forall_mem_cons, List.forall_mem_append]
    exact ⟨.own h.right.head ⟨rfl, hk, rfl⟩, Covers.atToken hreceiver h.left,
      CoversAll.atToken hargs h.right.tail⟩
  | .int pre hk hn, h => by
    rw [Expr.nodes, List.forall_mem_singleton]
    exact .own h.head ⟨hk, hn⟩
  | .folded pre pre' hsign hk hn, h => by
    rw [Expr.nodes_negated, List.forall_mem_singleton]
    exact h.number hsign hk
  | .text pre hk _, h => by
    rw [Expr.nodes, List.forall_mem_singleton]
    exact .own h.head hk
  | .concat pre hk hparts, h => by
    rw [Expr.nodes, List.forall_mem_cons]
    exact ⟨.own h.head hk, Pieces.atToken hparts h.head hk rfl (List.nil_append _).symm front_nil⟩
  | .unary pre hop hoperand, h => by
    rw [Expr.nodes, List.forall_mem_cons]
    exact ⟨.own h.head hop, Covers.atToken hoperand h.tail⟩
  | .binary pre hleft hop hright, h => by
    rw [Expr.nodes, List.forall_mem_cons, List.forall_mem_append]
    exact ⟨.own h.right.head hop, Covers.atToken hleft h.left, Covers.atToken hright h.right.tail⟩
  | .index pre htarget hk hposition, h => by
    rw [Expr.nodes, List.forall_mem_cons, List.forall_mem_append]
    exact ⟨.own h.right.head hk, Covers.atToken htarget h.left,
      Covers.atToken hposition h.right.tail⟩
  | .list pre hk hitems, h => by
    rw [Expr.nodes, List.forall_mem_cons]
    exact ⟨.own h.head hk, CoversAll.atToken hitems h.tail⟩

theorem CoversAll.atToken {spots : List Spot} {es : List Expr} :
    CoversAll spots es → Found src spots →
    ∀ node ∈ Expr.nodesAll es, AtToken src node
  | .nil, _ => List.forall_mem_nil _
  | .cons he hes, h => by
    rw [Expr.forall_mem_nodesAll_cons]
    exact ⟨Covers.atToken he h.left, CoversAll.atToken hes h.right⟩

/-- Segments have the place of their literal; code embedded in it is found in the source again. -/
theorem Pieces.atToken {tok : Token} {quote front lead body : List Char} {parts : List Expr} :
    Pieces tok lead body parts → TokenAt src quote tok → tok.kind = .text →
    lead = quote ++ '"' :: front → tok.lit.toList = front ++ body → Front front →
    ∀ node ∈ Expr.nodesAll parts, AtToken src node
  | @Pieces.last tok _ _ v _ _, htok, hk, _, _, _ => by
    rw [Expr.nodesAll_text_cons, List.forall_mem_cons]
    exact ⟨.own htok hk, List.forall_mem_nil _⟩
  | .blank hseg _ hcode _ hrest, htok, hk, hlead, hlit, hfront => by
    subst hlead
    rw [Expr.nodesAll_text_cons, Expr.nodesAll_text_cons, List.forall_mem_cons,
      List.forall_mem_cons]
    have hbehind :=
      Pieces.atToken hrest htok hk (by simp) (literal_block hlit) (hfront.block hseg hcode)
    exact ⟨.own htok hk, .own htok hk, hbehind⟩
  | .code hseg _ hcode hspots he hrest, htok, hk, hlead, hlit, hfront => by
    subst hlead
    rw [Expr.nodesAll_text_cons, List.forall_mem_cons, Expr.forall_mem_nodesAll_cons]
    have hbehind :=
      Pieces.atToken hrest htok hk (by simp) (literal_block hlit) (hfront.block hseg hcode)
    have hsource := (htok.literal hk).sourceAt hlit hfront hseg hcode
    have hnodes := Covers.atToken he (hspots.found (by simpa using hsource))
    exact ⟨.own htok hk, hnodes, hbehind⟩

end

/-! ### Accepted sources -/

/-- Every node of the trees of an accepted source has its place from the token that it stands for,
at any depth of interpolation: the place of the first character of this token in the whole source.
Only a number that has taken in its sign has the line of the numeral and the column of the sign,
which is the place of the sign exactly if no line end stands between the two. -/
theorem nodes_at_their_tokens (o : ParseOptions) (src : List Char) (ho : o.embedded = none)
    (hok : (Source.parse o src).failure = none) :
    (∃ spots, SpotsOf o.limit [] src spots ∧
      CoversAll (marked spots) (Source.parse o src).program) ∧
    ∀ e ∈ (Source.parse o src).program, ∀ node ∈ e.nodes,
      (∃ pre post, TokenAt src pre node.ownToken ∧ node.Suits node.ownToken ∧
        src = pre ++ (node.ownToken.written ++ post) ∧ node.place = ({} : Position).advance pre) ∨
      ∃ pre between post sign tok n, node = negated sign tok n ∧ sign.kind = .minus ∧
        tok.kind = .int ∧ TokenAt src pre sign ∧ TokenAt src (pre ++ '-' :: between) tok ∧
        src = pre ++ '-' :: (between ++ (tok.written ++ post)) ∧
        node.place = ⟨(({} : Position).advance (pre ++ '-' :: between)).line,
          (({} : Position).advance pre).column⟩ ∧
        (node.place = ({} : Position).advance pre ↔ '\n' ∉ between) := by
  have hprog : (Source.parseLevels src.length o (behind []) src).toTraced.result
      = .ok (Source.parse o src).program := by
    show (Source.parse o src).toTraced.result = _
    rw [Parsed.toTraced, hok]
  obtain ⟨spots, hspots, hcovers⟩ := parseLevels_covered src.length ho hprog
  refine ⟨⟨spots, hspots, hcovers⟩, fun e he node hnode => ?_⟩
  have hall : node ∈ Expr.nodesAll (Source.parse o src).program := by
    rw [Expr.nodesAll_eq]
    exact List.mem_flatMap_of_mem he hnode
  cases hcovers.atToken (hspots.found SourceAt.whole) node hall with
  | @own pre _ htok hsuits =>
    obtain ⟨post, hpost⟩ := htok.stands
    exact .inl ⟨pre, post, htok, hsuits, hpost, htok.place⟩
  | @folded pre between sign tok n hsign hminus htok hint =>
    obtain ⟨post, hpost⟩ := htok.stands
    have hplace : (negated sign tok n).place
        = ⟨(behind (pre ++ '-' :: between)).line, (behind pre).column⟩ := by
      rw [← hsign.place, ← htok.place]
      rfl
    refine .inr ⟨pre, between, post, sign, tok, n, rfl, hminus, hint, hsign, htok, ?_, hplace, ?_⟩
    · rw [List.append_assoc] at hpost
      exact hpost
    · have hline := advance_column_iff (behind pre) ('-' :: between)
      rw [behind_advance, ← hplace, List.mem_cons, or_iff_right (by decide)] at hline
      exact hline

/-- An index in the code of a literal is at its bracket on the second line.  The sign of the last
number is on the third line and its numeral on the fourth: the number is at neither. -/
theorem nodes_at_their_tokens_split :
    let src := "x =\\\n\"a#\x7b y[1] \x7d\"\n(-\n5)".toList
    ({} : ParseOptions).embedded = none ∧ (Source.parse {} src).failure = none ∧
      ((Source.parse {} src).program.flatMap Expr.nodes).map
        (fun node => (node.tokenLit, node.place))
        = [("=", ⟨1, 3⟩), ("x", ⟨1, 1⟩), ("a#\x7b y[1] \x7d", ⟨2, 1⟩), ("a#\x7b y[1] \x7d", ⟨2, 1⟩),
          ("[", ⟨2, 7⟩), ("y", ⟨2, 6⟩), ("1", ⟨2, 8⟩), ("a#\x7b y[1] \x7d", ⟨2, 1⟩),
            ("-5", ⟨4, 2⟩)] ∧
      (∃ spots, SpotsOf 64 [] src spots ∧ CoversAll (marked spots) (Source.parse {} src).program) ∧
      ∀ e ∈ (Source.parse {} src).program, ∀ node ∈ e.nodes,
        (∃ pre, TokenAt src pre node.ownToken ∧ node.place = ({} : Position).advance pre) ∨
          ∃ sign tok n, node = negated sign tok n := by
  intro src
  have hok : (Source.parse {} src).failure = none := by decide +kernel
  obtain ⟨hcovers, hnodes⟩ := nodes_at_their_tokens {} src rfl hok
  refine ⟨rfl, hok, by decide +kernel, hcovers, fun e he node hnode => ?_⟩
  rcases hnodes e he node hnode with
    ⟨pre, -, htok, -, -, hplace⟩ | ⟨-, -, -, sign, tok, n, hnumber, -⟩
  · exact .inl ⟨pre, htok, hplace⟩
  · exact .inr ⟨sign, tok, n, hnumber⟩

end TextScript
