/-
TextScript/Proofs/WellFormed.lean

The trees that sources give.

`Expr.WellFormed` says of a whole tree what the parser makes sure of at each node: an assignment
has a name on its left, operators are those of the language, arguments stand in parentheses, and
the parts of a literal with interpolations are texts and expressions in turn.  Every way of
building a tree keeps it so (`wellFormed_closed`), whatever the tokens are, and so the trees of a
source are well-formed down to those in its interpolations.
-/
import TextScript.Proofs.Trees

namespace TextScript

/-- A tree as sources have them. -/
inductive Expr.WellFormed : Expr → Prop
  | message {head : MessageHead} {args : List Expr} : (head.parens = false → args = []) →
      (∀ e ∈ args, WellFormed e) → WellFormed (.message head args)
  | send {tok : Token} {receiver : Expr} {head : MessageHead} {args : List Expr} :
      WellFormed receiver → (head.parens = false → args = []) → (∀ e ∈ args, WellFormed e) →
      WellFormed (.send tok receiver head args)
  | int (tok : Token) (n : Int64) : WellFormed (.int tok n)
  | text (tok : Token) (v : Text) : WellFormed (.text tok v)
  | concat {tok : Token} {parts : List Expr} : parts.length % 2 = 1 → 3 ≤ parts.length →
      (∀ k e, parts[2 * k]? = some e → ∃ tok v, e = .text tok v) → (∀ e ∈ parts, WellFormed e) →
      WellFormed (.concat tok parts)
  | unary {tok : Token} {op : UnaryOp} {operand : Expr} : op = .negate ∨ op = .not →
      WellFormed operand → WellFormed (.unary tok op operand)
  | binary {tok : Token} {left right : Expr} {op : BinaryOp} : op ∈ BinaryOp.known →
      (op = .assign → left.isBareName = true) → WellFormed left → WellFormed right →
      WellFormed (.binary tok left op right)
  | index {tok : Token} {target position : Expr} : WellFormed target → WellFormed position →
      WellFormed (.index tok target position)
  | list {tok : Token} {items : List Expr} :
      (∀ e ∈ items, WellFormed e) → WellFormed (.list tok items)

/-- The parser makes no other operators than these in front of an operand. -/
theorem unaryOp?_known {kind : TokenKind} {op : UnaryOp} (h : kind.unaryOp? = some op) :
    op = .negate ∨ op = .not := by
  cases kind <;> simp [TokenKind.unaryOp?] at h <;> simp [← h]

/-- Nor between two operands. -/
theorem binaryOp?_known {kind : TokenKind} {op : BinaryOp} (h : kind.binaryOp? = some op) :
    op ∈ BinaryOp.known := by
  cases kind <;> simp [TokenKind.binaryOp?] at h <;> subst h <;> decide

/-- Every way of building a tree makes a well-formed one of well-formed ones. -/
theorem wellFormed_closed (T : Token → Prop) : Expr.Closed T Expr.WellFormed where
  message {receiver _ _ _} _ _ hreceiver hparens hargs := by
    cases receiver with
    | none => exact .message hparens hargs
    | some r => exact .send (hreceiver r rfl) hparens hargs
  int _ _ _ := .int _ _
  folded _ _ _ _ := .int _ _
  text _ _ _ := .text _ _
  concat _ _ hthree hwoven hall := .concat hwoven.odd hthree hwoven.text_of_even hall
  unary _ hop hoperand := .unary (unaryOp?_known hop) hoperand
  binary _ hop hassign hleft hright := .binary (binaryOp?_known hop) hassign hleft hright
  index _ _ htarget hposition := .index htarget hposition
  list _ _ hitems := .list hitems

theorem parse_wellFormed {o : ParseOptions} {prog : Program} {src : List Char}
    (ho : o.embedded = none) (h : (Source.parse o src).toTraced.result = .ok prog) :
    ∀ e ∈ prog, e.WellFormed :=
  parse_induction (wellFormed_closed _) ho h

end TextScript
