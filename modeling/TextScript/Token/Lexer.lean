/-
TextScript/Token/Lexer.lean

From characters to tokens. Blanks, comments and continued lines separate tokens and are skipped;
what remains is cut into lexemes, each at least one character long, so the cutting ends. A literal
is one lexeme, found by the balanced scanner; one without an end takes the rest of the source with
it.

A lexeme is given by its kind and its size, so a token's spelling is the characters it spans and its
position is the position after all characters before it.
-/
import TextScript.Literal.Balance
import TextScript.Token.Basic
import TextScript.Unicode.Letter

namespace TextScript

/-- A token before it has a place: its kind, the number of characters it spans, and, for a literal
that does not end, why not. -/
structure Lexeme where
  kind : TokenKind
  size : Nat
  unbalanced : Option Unbalanced := none
deriving DecidableEq, Repr

namespace Lexer

/-- Whether a name may begin with `c`. -/
def isNameStart (c : Char) : Bool :=
  c == '_' || Unicode.isLetter c

/-- Whether `c` is a decimal digit. -/
def isDigit (c : Char) : Bool :=
  '0' ≤ c && c ≤ '9'

/-- Whether a name may go on with `c`. -/
def isNamePart (c : Char) : Bool :=
  isNameStart c || isDigit c || c == ':'

/-- The number of characters to skip before the next token: blanks, continued lines, and comments up
to the end of their line. -/
def blankSize : (inComment : Bool) → List Char → Nat
  | _, [] => 0
  | true, c :: cs => if c = '\n' then 0 else blankSize true cs + 1
  | false, c :: cs =>
    if c = ' ' ∨ c = '\t' ∨ c = '\r' then blankSize false cs + 1
    else if c = ';' then blankSize true cs + 1
    else if c = '\\' then
      match cs with
      | '\n' :: cs => blankSize false cs + 2
      | _ => 0
    else 0

/-- The number of question and exclamation marks that end a name. An exclamation mark before an
equals sign belongs to the operator. -/
def markSize : List Char → Nat
  | '?' :: cs => markSize cs + 1
  | '!' :: '=' :: _ => 0
  | '!' :: cs => markSize cs + 1
  | _ => 0

/-- The number of characters of the name at the start. -/
def nameSize (cs : List Char) : Nat :=
  let body := (cs.takeWhile isNamePart).length
  body + markSize (cs.drop body)

/-- The lexeme of a literal, given the characters after its opening quote. -/
def textLexeme (limit : Int) (cs : List Char) : Lexeme :=
  match Balance.text 0 limit cs with
  | .closed n => ⟨.text, n + 2, none⟩
  | .stopped _ why => ⟨.illegal, cs.length + 1, some why⟩

/-- The lexeme that begins with `c` and goes on in `cs`. -/
def lexeme (limit : Int) (c : Char) (cs : List Char) : Lexeme :=
  match c, cs with
  | '\n', _ => ⟨.terminator, 1, none⟩
  | '.', '.' :: '.' :: _ => ⟨.xrange, 3, none⟩
  | '.', '.' :: _ => ⟨.range, 2, none⟩
  | '.', _ => ⟨.terminator, 1, none⟩
  | '=', '=' :: _ => ⟨.eq, 2, none⟩
  | '=', _ => ⟨.assign, 1, none⟩
  | '!', '=' :: _ => ⟨.notEq, 2, none⟩
  | '!', _ => ⟨.bang, 1, none⟩
  | '<', '=' :: '>' :: _ => ⟨.spaceship, 3, none⟩
  | '<', '=' :: _ => ⟨.lte, 2, none⟩
  | '<', _ => ⟨.lt, 1, none⟩
  | '>', '=' :: _ => ⟨.gte, 2, none⟩
  | '>', _ => ⟨.gt, 1, none⟩
  | '&', '&' :: _ => ⟨.and, 2, none⟩
  | '|', '|' :: _ => ⟨.or, 2, none⟩
  | '+', _ => ⟨.plus, 1, none⟩
  | '-', _ => ⟨.minus, 1, none⟩
  | '*', _ => ⟨.asterisk, 1, none⟩
  | '/', _ => ⟨.slash, 1, none⟩
  | '%', _ => ⟨.percent, 1, none⟩
  | ',', _ => ⟨.comma, 1, none⟩
  | '(', _ => ⟨.lparen, 1, none⟩
  | ')', _ => ⟨.rparen, 1, none⟩
  | '[', _ => ⟨.lbracket, 1, none⟩
  | ']', _ => ⟨.rbracket, 1, none⟩
  | '"', cs => textLexeme limit cs
  | c, cs =>
    if isNameStart c then ⟨.ident, nameSize (c :: cs), none⟩
    else if isDigit c then ⟨.int, ((c :: cs).takeWhile isDigit).length, none⟩
    else ⟨.illegal, 1, none⟩

/-- The spelling of a lexeme: its characters, without the quotes of a literal. -/
def spelling (kind : TokenKind) (span : List Char) : String :=
  match kind with
  | .text => String.ofList (span.drop 1).dropLast
  | _ => String.ofList span

/-- The failure of a lexeme that is no usable token. -/
def faultOf (limit : Int) (lx : Lexeme) (lit : String) (p : Position) : Option Failure :=
  match lx.kind, lx.unbalanced with
  | .illegal, some .unterminatedText => some (.makeAt .unterminatedText p)
  | .illegal, some .unterminatedInterpolation => some (.makeAt .unterminatedInterpolation p)
  | .illegal, some .tooDeep =>
    some (.makeAt .nestingTooDeep p (some [("Max", .number limit)]))
  | .illegal, none =>
    some (.makeAt .unexpectedToken p (some [("Token", .text ("character '" ++ lit ++ "'"))]))
  | _, _ => none

/-- The token of a lexeme that spans the characters `span` from position `p`. -/
def token (limit : Int) (lx : Lexeme) (span : List Char) (p : Position) : Token :=
  let lit := spelling lx.kind span
  { kind := lx.kind, lit, place := p, fault := faultOf limit lx lit p }

/-! ### Every lexeme has at least one character -/

theorem takeWhile_cons_pos {p : Char → Bool} {c : Char} {cs : List Char} (h : p c = true) :
    0 < ((c :: cs).takeWhile p).length := by
  simp [h]

theorem textLexeme_size_pos (limit : Int) (cs : List Char) : 0 < (textLexeme limit cs).size := by
  unfold textLexeme
  split <;> simp

theorem lexeme_size_pos (limit : Int) (c : Char) (cs : List Char) :
    0 < (lexeme limit c cs).size := by
  unfold lexeme
  split <;> try exact Nat.succ_pos _
  · exact textLexeme_size_pos limit _
  · split
    · next h =>
      have : isNamePart c = true := by simp [isNamePart, h]
      exact Nat.lt_of_lt_of_le (takeWhile_cons_pos this) (Nat.le_add_right _ _)
    · split
      · next h => exact takeWhile_cons_pos h
      · exact Nat.one_pos

/-- The tokens of a source that begins at position `p`, the last one being the end of input. -/
def tokens (limit : Int) (p : Position) (src : List Char) : List Token :=
  let gap := blankSize false src
  let p := p.advance (src.take gap)
  match _hs : src.drop gap with
  | [] => [{ kind := .eof, place := p }]
  | c :: cs =>
    let lx := lexeme limit c cs
    let span := (c :: cs).take lx.size
    token limit lx span p :: tokens limit (p.advance span) ((c :: cs).drop lx.size)
termination_by src.length
decreasing_by
  have hlen : (src.drop (blankSize false src)).length ≤ src.length := by simp
  have hpos := lexeme_size_pos limit c cs
  rw [_hs] at hlen
  simp only [List.length_drop, List.length_cons] at hlen ⊢
  omega

end Lexer

end TextScript
