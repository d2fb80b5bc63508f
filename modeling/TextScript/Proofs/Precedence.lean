/-
TextScript/Proofs/Precedence.lean

How a chain of operands is grouped by the operators between them.

A chain is read from the left, and the tree read so far is kept on the stack: the operators on its
right edge wait there, each with its left operand (`InfixTree.spine`).  A new operator closes
those that bind at least as tightly and becomes the parent of what they make; in the tree, it is
put on the right edge, above the first operator that it is not tighter than (`InfixTree.add`,
`spine_add`).  That keeps the tree grouped by strength, and its leaves and nodes in the order of
the source.

Grouped trees are determined by that order: the root is the last of the loosest operators
(`InfixTree.Grouped.unique`).  So the tree that is read is the one that the strengths prescribe.
-/
import TextScript.Proofs.Operands
import TextScript.Proofs.Sources

namespace TextScript

open ParseState

/-! ### Chains -/

/-- An operator between two operands, other than the assignment. -/
structure Connective where
  tok : Token
  op : BinaryOp
  binaryOp?_kind : tok.kind.binaryOp? = some op
  ne_assign : op ≠ .assign

/-- How tightly the operator binds. -/
def Connective.strength (c : Connective) : Strength := c.op.strength

/-- One piece of a chain. -/
inductive Part where
  | operand (e : Expr)
  | connective (c : Connective)

/-- `Chain literal toks parts`: the tokens are operands with operators between them. -/
inductive Chain (literal : Token → Traced Expr) : List Token → List Part → Prop
  | one {toks : List Token} {e : Expr} : Operand literal toks e → Chain literal toks [.operand e]
  | more {before toks : List Token} {parts : List Part} {c : Connective} {e : Expr} :
      Chain literal before parts → Operand literal toks e →
      Chain literal (before ++ c.tok :: toks) (parts ++ [.connective c, .operand e])

/-- A tree of operators over operands.  An operand in parentheses is a leaf, whatever it is
inside. -/
inductive InfixTree where
  | leaf (e : Expr)
  | node (left : InfixTree) (c : Connective) (right : InfixTree)

namespace InfixTree

/-- The expression that a tree stands for. -/
def toExpr : InfixTree → Expr
  | leaf e => e
  | node left c right => .binary c.tok left.toExpr c.op right.toExpr

/-- The operands and operators of a tree from left to right. -/
def inorder : InfixTree → List Part
  | leaf e => [.operand e]
  | node left c right => left.inorder ++ .connective c :: right.inorder

/-- The operator at the root, if the tree is no leaf. -/
def root? : InfixTree → Option Connective
  | leaf _ => none
  | node _ c _ => some c

/-- Grouped by strength and to the left: the operator on the left of another binds at least as
tightly, the one on its right more tightly. -/
def Grouped : InfixTree → Prop
  | leaf _ => True
  | node left c right =>
    (∀ d ∈ left.root?, c.strength ≤ d.strength) ∧ (∀ d ∈ right.root?, c.strength < d.strength) ∧
      left.Grouped ∧ right.Grouped

/-! ### One order, one tree -/

variable {a b left right : InfixTree} {c d : Connective} {e : Expr} {k : Strength}

/-- No operator of a grouped tree is looser than its root. -/
theorem Grouped.root_le (h : a.Grouped) (hroot : ∀ d ∈ a.root?, k ≤ d.strength) :
    ∀ d, Part.connective d ∈ a.inorder → k ≤ d.strength := by
  induction a generalizing k with
  | leaf e =>
    intro d hd
    simp [inorder] at hd
  | node left c right ihl ihr =>
    obtain ⟨hleft, hright, hl, hr⟩ := h
    have hc : k ≤ c.strength := hroot c rfl
    intro d hd
    rw [inorder, List.mem_append, List.mem_cons] at hd
    rcases hd with hd | hd | hd
    · exact Nat.le_trans hc (ihl hl hleft d hd)
    · cases hd
      exact hc
    · exact Nat.le_trans hc (ihr hr (fun d hd => Nat.le_of_lt (hright d hd)) d hd)

/-- Where two grouped trees have the same order, neither root comes later than the other: the
operators before the one are no looser than it, those behind the other tighter. -/
theorem not_later {before behind parts parts' : List Part}
    (hbehind : ∀ x, .connective x ∈ behind → c.strength < x.strength)
    (hbefore : ∀ x, .connective x ∈ parts ++ before → d.strength ≤ x.strength)
    (h : .connective c :: behind = before ++ .connective d :: parts') : before = [] := by
  cases before with
  | nil => rfl
  | cons p before =>
    obtain ⟨rfl, rfl⟩ := List.cons.inj h
    have hdc : d.strength ≤ c.strength := hbefore c (by simp)
    have hcd : c.strength < d.strength := hbehind d (by simp)
    exact absurd hcd (Nat.not_lt.mpr hdc)

/-- A grouped tree is determined by its operands and operators from left to right. -/
theorem Grouped.unique (ha : a.Grouped) (hb : b.Grouped) (h : a.inorder = b.inorder) : a = b := by
  induction a generalizing b with
  | leaf e =>
    cases b with
    | leaf e' =>
      cases h
      rfl
    | node left d right =>
      have hd : Part.connective d ∈ [Part.operand e] := by
        rw [show [Part.operand e] = (node left d right).inorder from h]
        simp [inorder]
      simp at hd
  | node left c right ihl ihr =>
    cases b with
    | leaf e =>
      have hc : Part.connective c ∈ [Part.operand e] := by
        rw [show [Part.operand e] = (node left c right).inorder from h.symm]
        simp [inorder]
      simp at hc
    | node left' d right' =>
      obtain ⟨hleft, hright, hl, hr⟩ := ha
      obtain ⟨hleft', hright', hl', hr'⟩ := hb
      -- the roots stand at the same place
      have hsame : left.inorder = left'.inorder ∧
          Part.connective c :: right.inorder = .connective d :: right'.inorder := by
        rcases List.append_eq_append_iff.mp h with ⟨mid, hmid, htail⟩ | ⟨mid, hmid, htail⟩
        · obtain rfl := not_later (hr.root_le hright) (hmid ▸ hl'.root_le hleft') htail
          exact ⟨by simpa using hmid.symm, htail⟩
        · obtain rfl := not_later (hr'.root_le hright') (hmid ▸ hl.root_le hleft) htail
          exact ⟨by simpa using hmid, htail.symm⟩
      obtain ⟨hlefts, hrights⟩ := hsame
      obtain ⟨hroot, hrest⟩ := List.cons.inj hrights
      cases hroot
      rw [ihl hl hl' hlefts, ihr hr hr' hrest]

/-! ### The right edge -/

/-- The operators on the right edge of a tree, as they wait on the stack. -/
def spine : InfixTree → List Frame
  | leaf _ => []
  | node left c right => right.spine ++ [.binary c.tok left.toExpr c.op]

/-- The last operand of a tree. -/
def last : InfixTree → Expr
  | leaf e => e
  | node _ _ right => right.last

/-- The tree with one more operator and operand on its right. -/
def add (c : Connective) (e : Expr) : InfixTree → InfixTree
  | leaf first => node (leaf first) c (leaf e)
  | node left d right =>
    if c.strength ≤ d.strength then node (node left d right) c (leaf e)
    else node left d (right.add c e)

theorem inorder_add (a : InfixTree) (c : Connective) (e : Expr) :
    (a.add c e).inorder = a.inorder ++ [.connective c, .operand e] := by
  induction a with
  | leaf first => rfl
  | node left d right _ ih =>
    rw [add]
    split
    · rfl
    · simp [inorder, ih]

theorem last_add (a : InfixTree) (c : Connective) (e : Expr) : (a.add c e).last = e := by
  induction a with
  | leaf first => rfl
  | node left d right _ ih =>
    rw [add]
    split
    · rfl
    · exact ih

/-- The new root is the new operator or the old root. -/
theorem root?_add (a : InfixTree) (c : Connective) (e : Expr) :
    (a.add c e).root? = some c ∨ (a.add c e).root? = a.root? := by
  cases a with
  | leaf first => exact .inl rfl
  | node left d right =>
    rw [add]
    split
    · exact .inl rfl
    · exact .inr rfl

theorem Grouped.add (h : a.Grouped) (c : Connective) (e : Expr) : (a.add c e).Grouped := by
  induction a with
  | leaf first => exact ⟨by simp [root?], by simp [root?], trivial, trivial⟩
  | node left d right _ ih =>
    obtain ⟨hleft, hright, hl, hr⟩ := h
    rw [InfixTree.add]
    split
    · next hle =>
      refine ⟨?_, by simp [root?], ⟨hleft, hright, hl, hr⟩, trivial⟩
      rintro x ⟨⟩
      exact hle
    -- the root stays and is looser than the new operator, which may become the root on the right
    · next hle =>
      refine ⟨hleft, ?_, hl, ih hr⟩
      intro x hx
      rcases right.root?_add c e with hroot | hroot
      · rw [hroot] at hx
        cases hx
        exact Nat.lt_of_not_le hle
      · rw [hroot] at hx
        exact hright x hx

theorem reduce_connective (left e : Expr) :
    reduce k [.binary c.tok left c.op] e =
      if k ≤ c.strength then ([], .binary c.tok left c.op e)
        else ([.binary c.tok left c.op], e) := by
  have hstrength : c.op.rightStrength = c.strength := by
    unfold BinaryOp.rightStrength Connective.strength
    split
    · next hassign => exact absurd hassign c.ne_assign
    · rfl
  rw [reduce, hstrength]
  rfl

/-- What is no tighter than any operator on the right edge closes the whole tree. -/
theorem Grouped.reduce_spine (h : a.Grouped) (hroot : ∀ d ∈ a.root?, k ≤ d.strength) :
    reduce k a.spine a.last = ([], a.toExpr) := by
  induction a with
  | leaf e => rfl
  | node left c right _ ih =>
    obtain ⟨-, hright, -, hr⟩ := h
    have hc : k ≤ c.strength := hroot c rfl
    have hright' := ih hr fun d hd => Nat.le_trans hc (Nat.le_of_lt (hright d hd))
    rw [spine, last, reduce_append, hright']
    dsimp only
    rw [reduce_connective, if_pos hc]
    rfl

/-- A new operator closes what it is not tighter than, and waits with the result. -/
theorem Grouped.spine_add (h : a.Grouped) (c : Connective) (e : Expr) :
    (a.add c e).spine =
      .binary c.tok (reduce c.strength a.spine a.last).2 c.op ::
        (reduce c.strength a.spine a.last).1 := by
  induction a with
  | leaf first => rfl
  | node left d right _ ih =>
    have hr : right.Grouped := h.2.2.2
    rw [InfixTree.add]
    split
    · next hle =>
      have hall : ∀ x ∈ (node left d right).root?, c.strength ≤ x.strength := by
        rintro x ⟨⟩
        exact hle
      rw [h.reduce_spine hall]
      rfl
    · next hle =>
      -- the root stays, below whatever is closed on the right of it
      have hfixed (e : Expr) : reduce c.strength [.binary d.tok left.toExpr d.op] e
          = ([.binary d.tok left.toExpr d.op], e) := by
        rw [reduce_connective, if_neg hle]
      rw [spine, ih hr, spine, last, reduce_append_of_fixed hfixed]
      rfl

end InfixTree

/-! ### Reading a chain -/

variable {literal : Token → Traced Expr} {s : ParseState} {x : Expr} {toks : List Token}
variable {parts : List Part}

theorem Connective.lowest_le (c : Connective) : Strength.lowest ≤ c.strength := by
  unfold Connective.strength
  cases c.op <;> simp [BinaryOp.strength, Strength.lowest]

theorem Connective.le_unary (c : Connective) : c.strength ≤ Strength.unary := by
  unfold Connective.strength
  cases c.op <;> simp [BinaryOp.strength, Strength.unary]

/-- An operator closes what it is not tighter than, and waits for its right operand. -/
theorem step_connective (hheld : s.stage.held? = some x) (c : Connective) :
    s.step literal c.tok
      = { s with stack := (reduce c.strength s.stack x).1 }.push
          (.binary c.tok (reduce c.strength s.stack x).2 c.op) := by
  have hkind {kind : TokenKind} (hnone : kind.binaryOp? = none) : c.tok.kind ≠ kind := by
    rintro rfl
    rw [c.binaryOp?_kind] at hnone
    cases hnone
  rw [step_held hheld (hkind rfl) (hkind rfl), extend, c.binaryOp?_kind]
  exact if_neg fun h => c.ne_assign h.1

/-- The operators on the right edge of the tree wait on the stack, and its last operand is at
hand, or what it will be closed from. -/
def Builds (s : ParseState) (tree : InfixTree) : Prop :=
  s.done = [] ∧ ∃ x, s.stage.held? = some x ∧
    ∀ j, Strength.lowest ≤ j → j ≤ Strength.unary →
    reduce j s.stack x = reduce j tree.spine tree.last

/-- After a chain, the stack holds a grouped tree with the parts of the chain in their order. -/
theorem Chain.builds (h : Chain literal toks parts) :
    ∃ tree : InfixTree, tree.inorder = parts ∧ tree.Grouped ∧ Builds (run literal toks) tree := by
  induction h with
  | @one toks e hoperand =>
    have hsign : NoSign {} toks := fun _ _ _ _ _ h => by cases h
    obtain ⟨x, hheld, hdone, hred⟩ := hoperand.reads rfl hsign
    exact ⟨.leaf e, rfl, trivial, hdone, x, hheld, hred⟩
  | @more before toks parts c e _ hoperand ih =>
    obtain ⟨tree, horder, hgrouped, hdone, x, hheld, hred⟩ := ih
    refine ⟨tree.add c e, by rw [tree.inorder_add, horder], hgrouped.add c e, ?_⟩
    let t : ParseState := (run literal before).step literal c.tok
    have ht : t = { run literal before with
        stack := (reduce c.strength (run literal before).stack x).1 }.push
          (.binary c.tok (reduce c.strength (run literal before).stack x).2 c.op) :=
      step_connective hheld c
    -- the operator already waits where the new tree has it, with its right operand still to come
    have hstack : t.stack = (tree.add c e).spine := by
      rw [hgrouped.spine_add, ← hred _ c.lowest_le c.le_unary, ht]
      rfl
    have hsign : NoSign t toks := by
      intro _ _ _ sign rest h
      rw [ht] at h
      cases h
    obtain ⟨y, hheld', hdone', hred'⟩ := hoperand.reads (by rw [ht]; rfl) hsign
    have hrun : run literal (before ++ c.tok :: toks) = toks.foldl (step literal) t := by
      rw [run, List.foldl_append]
      rfl
    rw [hrun]
    refine ⟨?_, y, hheld', fun j hlow hj => ?_⟩
    · rw [hdone', ht]
      exact hdone
    · rw [hred' j hlow hj, hstack, InfixTree.last_add]

/-- At the end of the input, everything that waits is closed. -/
theorem Builds.finish {tree : InfixTree} {last : Token} (h : Builds s tree)
    (hgrouped : tree.Grouped) (hlast : last.kind = .eof) :
    (s.step literal last).failure? = none ∧ (s.step literal last).done = [tree.toExpr] := by
  obtain ⟨hdone, x, hheld, hred⟩ := h
  have hall : reduce Strength.lowest s.stack x = ([], tree.toExpr) := by
    rw [hred _ (Nat.le_refl _) (by decide)]
    exact hgrouped.reduce_spine fun d _ => d.lowest_le
  rw [step_ender hheld (by simp [hlast, TokenKind.enders])]
  simp [ParseState.finish, hall, hlast, hdone, failure?]

/-- A source that is one chain is read as one expression, the tree that the strengths of its
operators prescribe: it has the operands and operators of the chain in their order, it is grouped
by strength and to the left, and no other tree is both. -/
theorem chain_grouped_by_strength (o : ParseOptions) (src : List Char) {last : Token}
    (htokens : Lexer.tokens o.limit {} src = toks ++ [last])
    (h : Chain (Source.literals src.length o) toks parts) :
    ∃ tree : InfixTree, (Source.parse o src).toTraced.result = .ok [tree.toExpr] ∧
      tree.inorder = parts ∧ tree.Grouped ∧
      ∀ other : InfixTree, other.inorder = parts → other.Grouped → other = tree := by
  obtain ⟨tree, horder, hgrouped, hbuilds⟩ := h.builds
  obtain ⟨q, hq⟩ := Lexer.getLast?_tokens o.limit {} src
  rw [htokens, List.getLast?_concat, Option.some.injEq] at hq
  have hlast : last.kind = .eof := by rw [hq]
  obtain ⟨hfail, hdone⟩ := hbuilds.finish hgrouped hlast
  refine ⟨tree, ?_, horder, hgrouped, fun other ho hg => hg.unique hgrouped (ho.trans horder.symm)⟩
  rw [Source.parse, Source.parseAt, parseLevels_run, htokens, run_concat, ParseState.parsed,
    Parsed.toTraced, hfail, hdone]

/-- Subtraction goes to the left, the product goes first, and the sign belongs to the number that is
indexed. -/
theorem chain_grouped_by_strength_signed :
    ∃ toks last parts, Lexer.tokens 64 {} "8 - -2[3] - x * 4".toList = toks ++ [last] ∧
      Chain (Source.literals 17 {}) toks parts ∧
      (Source.parse {} "8 - -2[3] - x * 4".toList).toTraced.result.map Program.render
        = .ok "8 -(-2[3]) -(x *(4))" := by
  let mark (kind : TokenKind) (lit : String) (column : Nat) : Token :=
    { kind, lit, place := ⟨1, column⟩ }
  let minus (column : Nat) : Connective := ⟨mark .minus "-" column, .sub, rfl, by decide⟩
  let times : Connective := ⟨mark .asterisk "*" 15, .mul, rfl, by decide⟩
  let literal := Source.literals 17 {}
  have hplain {tok : Token} {e : Expr} (h : Primary literal [tok] e) : Operand literal [tok] e :=
    .plain h .nil
  have hfirst : Operand literal [mark .int "8" 1] (.int (mark .int "8" 1) 8) :=
    hplain (.int rfl (by decide +kernel))
  have hname : Operand literal [mark .ident "x" 13]
      (.message ⟨mark .ident "x" 13, "x", false⟩ []) :=
    hplain (.name rfl)
  have hlast : Operand literal [mark .int "4" 17] (.int (mark .int "4" 17) 4) :=
    hplain (.int rfl (by decide +kernel))
  have halone : Alone literal [mark .int "3" 8] (.int (mark .int "3" 8) 3) := by
    have hthree : integer? "3" = some 3 := by decide +kernel
    refine ⟨by simp [mark], mark .eof "" 9, rfl, ?_, ?_⟩ <;>
      simp [run, step, begin, beginInteger, hthree, mark, operand, extend, finish, failure?, reduce,
        Token.isNewline, TokenKind.binaryOp?]
  have hindexed : Operand literal
      [mark .minus "-" 5, mark .int "2" 6, mark .lbracket "[" 7, mark .int "3" 8,
        mark .rbracket "]" 9]
      (.index (mark .lbracket "[" 7) (negated (mark .minus "-" 5) (mark .int "2" 6) 2)
        (.int (mark .int "3" 8) 3)) :=
    .negative rfl rfl (by decide +kernel) (.cons (.index rfl halone rfl) .nil)
  have hchain := (((Chain.one hfirst).more (c := minus 3) hindexed).more (c := minus 11) hname).more
    (c := times) hlast
  have htokens : Lexer.tokens 64 {} "8 - -2[3] - x * 4".toList =
      [mark .int "8" 1, mark .minus "-" 3, mark .minus "-" 5, mark .int "2" 6, mark .lbracket "[" 7,
        mark .int "3" 8, mark .rbracket "]" 9, mark .minus "-" 11, mark .ident "x" 13,
        mark .asterisk "*" 15, mark .int "4" 17] ++ [mark .eof "" 18] := by
    simp only [mark]
    decide +kernel
  obtain ⟨tree, hparse, -, -, hunique⟩ := chain_grouped_by_strength {} _ htokens hchain
  have htree := hunique
    (.node (.node (.leaf _) (minus 3) (.leaf _)) (minus 11) (.node (.leaf _) times (.leaf _))) rfl
    (by simp [InfixTree.Grouped, InfixTree.root?, Connective.strength, BinaryOp.strength,
      minus, times])
  refine ⟨_, _, _, htokens, hchain, ?_⟩
  rw [hparse, ← htree]
  rfl

end TextScript
