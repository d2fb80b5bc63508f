/-
TextScript/Providers/HostCode/Syntax.lean

One language that an embedding program may bring for its interpolations: numbers, quoted strings,
names, arithmetic, comparison and logic, conditionals, lists, indexing and calls. Reading fails on
anything else. Sessions are defined for any engine, and nothing that is proved of them depends on
this one.
-/
import TextScript.Numeral
import TextScript.Unicode.Blank
import TextScript.Unicode.Digit
import TextScript.Unicode.Letter

namespace TextScript.HostCode

/-- The operators between two operands. -/
inductive Op where
  | or | and | eq | ne | lt | gt | le | ge | add | sub | mul | div | rem
deriving DecidableEq, Repr

/-- An expression of the embedding program. -/
inductive Term where
  | nil
  | bool (b : Bool)
  | int (n : Nat)
  | string (s : String)
  | name (s : String)
  | negate (e : Term)
  | not (e : Term)
  | binary (op : Op) (l r : Term)
  | choose (c a b : Term)
  | list (items : List Term)
  | index (e i : Term)
  | call (f : String) (args : List Term)
deriving Repr

instance : Inhabited Term := ⟨.nil⟩

/-- A token of the host language. -/
inductive Lexeme where
  | int (n : Nat)
  | string (s : String)
  | word (s : String)
  | symbol (s : String)
deriving DecidableEq, Repr

/-- Whether `c` may stand in a word. A word may begin with any such character that does not begin a
number. -/
def isWordPart (c : Char) : Bool :=
  Unicode.isLetter c || c == '_' || c == '$' || Unicode.isDigit c

/-- The character that a backslash and `c` stand for. -/
def escaped? : Char → Option Char
  | 'a' => some (Char.ofNat 7)
  | 'b' => some (Char.ofNat 8)
  | 'f' => some (Char.ofNat 12)
  | 'n' => some '\n'
  | 'r' => some '\r'
  | 't' => some '\t'
  | 'v' => some (Char.ofNat 11)
  | '\\' => some '\\'
  | '"' => some '"'
  | '\'' => some '\''
  | _ => none

/-- The contents of a string up to the quote `q`, and what follows it. A string ends on its own
line. -/
def readString (q : Char) : List Char → Option (List Char × List Char)
  | [] => none
  | '\\' :: c :: cs => do
    let e ← escaped? c
    let (s, rest) ← readString q cs
    return (e :: s, rest)
  | c :: cs =>
    if c = q then some ([], cs)
    else if c = '\n' then none
    else (readString q cs).map fun (s, rest) => (c :: s, rest)

theorem readString_lt {q : Char} {cs s rest : List Char} (h : readString q cs = some (s, rest)) :
    rest.length < cs.length := by
  fun_induction readString q cs generalizing s rest with
  | case1 => simp at h
  | case2 c cs ih =>
    simp only [Option.bind_eq_bind, Option.bind_eq_some_iff, Option.pure_def, Option.some.injEq,
      Prod.mk.injEq, Prod.exists] at h
    obtain ⟨_, _, s', rest', hr, _, rfl⟩ := h
    have := ih hr
    simp only [List.length_cons]
    omega
  | case3 => simp_all
  | case4 => simp_all
  | case5 c cs _ _ _ ih =>
    obtain ⟨⟨s', rest'⟩, hr, he⟩ := Option.map_eq_some_iff.1 h
    simp only [Prod.mk.injEq] at he
    have := ih hr
    rw [← he.2]
    simp only [List.length_cons]
    omega

/-- The operator spelled at the start, the longest one first. -/
def symbolAt : List Char → Option String
  | '&' :: '&' :: _ => some "&&"
  | '|' :: '|' :: _ => some "||"
  | '=' :: '=' :: _ => some "=="
  | '!' :: '=' :: _ => some "!="
  | '<' :: '=' :: _ => some "<="
  | '>' :: '=' :: _ => some ">="
  | c :: _ => if "+-*/%<>!?:,()[]".toList.contains c then some c.toString else none
  | [] => none

/-- The tokens of some code, if it can be cut into tokens. -/
def lexemes? (cs : List Char) : Option (List Lexeme) :=
  match cs with
  | [] => some []
  | c :: rest =>
    if Unicode.isBlank c.toNat then lexemes? rest
    else if c.isDigit then
      let more := rest.takeWhile Char.isDigit
      let n := (Numeral.natural? 10 (c :: more)).getD 0
      (lexemes? (rest.drop more.length)).map (.int n :: ·)
    else if isWordPart c then
      let more := rest.takeWhile isWordPart
      (lexemes? (rest.drop more.length)).map (.word (String.ofList (c :: more)) :: ·)
    else if c = '"' ∨ c = '\'' then
      match _h : readString c rest with
      | none => none
      | some (s, rest') => (lexemes? rest').map (.string (String.ofList s) :: ·)
    else
      match symbolAt (c :: rest) with
      | none => none
      | some s => (lexemes? (rest.drop (s.length - 1))).map (.symbol s :: ·)
termination_by cs.length
decreasing_by
  all_goals simp only [List.length_cons, List.length_drop]
  all_goals first
    | omega
    | exact Nat.lt_of_lt_of_le (readString_lt _h) (Nat.le_succ _)

/-- The operator that a token stands for between two operands. -/
def op? : Lexeme → Option Op
  | .symbol "||" => some .or
  | .word "or" => some .or
  | .symbol "&&" => some .and
  | .word "and" => some .and
  | .symbol "==" => some .eq
  | .symbol "!=" => some .ne
  | .symbol "<" => some .lt
  | .symbol ">" => some .gt
  | .symbol "<=" => some .le
  | .symbol ">=" => some .ge
  | .symbol "+" => some .add
  | .symbol "-" => some .sub
  | .symbol "*" => some .mul
  | .symbol "/" => some .div
  | .symbol "%" => some .rem
  | _ => none

/-- How tightly an operator binds. -/
def Op.strength : Op → Nat
  | .or => 10
  | .and => 15
  | .eq | .ne | .lt | .gt | .le | .ge => 20
  | .add | .sub => 30
  | .mul | .div | .rem => 60

/-- How tightly a negated condition binds. -/
def notStrength : Nat := 50

/-- How tightly a sign binds. -/
def signStrength : Nat := 90

mutual

/-- Reads an expression whose operators all bind at least as tightly as `strength`. -/
def term? : (fuel : Nat) → (strength : Nat) → List Lexeme → Option (Term × List Lexeme)
  | 0, _, _ => none
  | fuel + 1, strength, toks => do
    let (left, rest) ← primary? fuel toks
    let (e, rest) ← operators? fuel strength left rest
    if strength = 0 then conditional? fuel e rest else return (e, rest)

/-- Reads the operators and operands that follow `left`. -/
def operators? : (fuel : Nat) → (strength : Nat) → Term → List Lexeme → Option (Term × List Lexeme)
  | 0, _, _, _ => none
  | _, _, left, [] => some (left, [])
  | fuel + 1, strength, left, tok :: rest =>
    match op? tok with
    | none => some (left, tok :: rest)
    | some op =>
      if op.strength < strength then some (left, tok :: rest)
      else do
        let (right, rest) ← term? fuel (op.strength + 1) rest
        operators? fuel strength (.binary op left right) rest

/-- Reads the two branches that follow a condition, if they do. -/
def conditional? : (fuel : Nat) → Term → List Lexeme → Option (Term × List Lexeme)
  | fuel + 1, c, .symbol "?" :: rest => do
    let (a, rest) ← term? fuel 0 rest
    match rest with
    | .symbol ":" :: rest =>
      let (b, rest) ← term? fuel 0 rest
      return (.choose c a b, rest)
    | _ => none
  | _, c, rest => some (c, rest)

/-- Reads an operand with the signs before it and the indexes after it. -/
def primary? : (fuel : Nat) → List Lexeme → Option (Term × List Lexeme)
  | 0, _ => none
  | fuel + 1, .symbol "-" :: rest => do
    let (e, rest) ← term? fuel signStrength rest
    return (.negate e, rest)
  | fuel + 1, .symbol "+" :: rest => term? fuel signStrength rest
  | fuel + 1, .symbol "!" :: rest => do
    let (e, rest) ← term? fuel notStrength rest
    return (.not e, rest)
  | fuel + 1, .word "not" :: rest => do
    let (e, rest) ← term? fuel notStrength rest
    return (.not e, rest)
  | fuel + 1, .symbol "(" :: rest => do
    let (e, rest) ← term? fuel 0 rest
    match rest with
    | .symbol ")" :: rest => indexes? fuel e rest
    | _ => none
  | fuel + 1, .symbol "[" :: rest => do
    let (items, rest) ← items? fuel "]" rest
    indexes? fuel (.list items) rest
  | fuel + 1, .int n :: rest => if Numeral.fitsWord n then indexes? fuel (.int n) rest else none
  | fuel + 1, .string s :: rest => indexes? fuel (.string s) rest
  | fuel + 1, .word w :: .symbol "(" :: rest => do
    let (args, rest) ← items? fuel ")" rest
    indexes? fuel (.call w args) rest
  | fuel + 1, .word w :: rest =>
    let e : Term :=
      match w with
      | "true" => .bool true
      | "false" => .bool false
      | "nil" => .nil
      | w => .name w
    indexes? fuel e rest
  | _, _ => none

/-- Reads the indexes that follow an operand. -/
def indexes? : (fuel : Nat) → Term → List Lexeme → Option (Term × List Lexeme)
  | fuel + 1, e, .symbol "[" :: rest => do
    let (i, rest) ← term? fuel 0 rest
    match rest with
    | .symbol "]" :: rest => indexes? fuel (.index e i) rest
    | _ => none
  | _, e, rest => some (e, rest)

/-- Reads items between commas up to a closing symbol. -/
def items? : (fuel : Nat) → (closer : String) → List Lexeme → Option (List Term × List Lexeme)
  | 0, _, _ => none
  | fuel + 1, closer, toks =>
    if toks.head? = some (.symbol closer) then some ([], toks.drop 1)
    else do
      let (e, rest) ← term? fuel 0 toks
      match rest with
      | .symbol "," :: rest =>
        let (es, rest) ← items? fuel closer rest
        return (e :: es, rest)
      | rest => if rest.head? = some (.symbol closer) then return ([e], rest.drop 1) else none

end

/-- Reads code as one expression. Each level of reading takes a token or passes to a tighter reader,
so a few levels for each token are enough. -/
def parse? (code : String) : Option Term := do
  let toks ← lexemes? code.toList
  let (e, rest) ← term? (4 * toks.length + 4) 0 toks
  if rest.isEmpty then return e else none

end TextScript.HostCode
