/-
TextScript/Providers/Document.lean

One way to write settings documents: nested mappings by indentation, plain and quoted scalars,
short flow collections on one line, comments, and sequences, which no setting uses. Anything else
is refused.
-/
import TextScript.Numeral

namespace TextScript

/-- A node of a document. -/
inductive Node where
  | null
  /-- A scalar; `plain` ones are written without quotes. -/
  | scalar (s : String) (plain : Bool)
  | mapping (entries : List (String × Node))
  | sequence
deriving Inhabited

namespace Document

/-- A line with something on it: how far it is indented, and the rest. -/
structure Line where
  indent : Nat
  text : List Char
deriving Repr

/-- Blanks inside a line. -/
def isBlank (c : Char) : Bool :=
  c = ' ' || c = '\t'

/-- The lines of a document. -/
def cutLines : List Char → List (List Char)
  | [] => [[]]
  | c :: cs => if c = '\n' then [] :: cutLines cs else (cutLines cs).modifyHead (c :: ·)

/-- Characters without the blanks at their end. -/
def trimEnd (cs : List Char) : List Char :=
  (cs.reverse.dropWhile fun c => isBlank c || c = '\r').reverse

/-- Characters without the blanks at their start. -/
def trimStart (cs : List Char) : List Char :=
  cs.dropWhile isBlank

/-- Whether what follows a scalar is nothing, or a comment after a blank. -/
def isTail (cs : List Char) : Bool :=
  match cs with
  | [] => true
  | c :: _ => isBlank c && ((trimStart cs).isEmpty || (trimStart cs).head? = some '#')

/-- The lines that hold more than a comment. A line indented by a tab is refused. -/
def lines? : List (List Char) → Option (List Line)
  | [] => some []
  | l :: ls =>
    let l := trimEnd l
    let body := l.dropWhile (· = ' ')
    match body with
    | [] => lines? ls
    | '#' :: _ => lines? ls
    | '\t' :: _ =>
      let rest := trimStart body
      if rest.isEmpty || rest.head? = some '#' then lines? ls else none
    | body => (lines? ls).map (⟨l.length - body.length, body⟩ :: ·)

/-- Whether a line begins or ends a document. -/
def isMarker (mark : List Char) (l : Line) : Bool :=
  l.indent = 0 && (l.text = mark || (mark ++ [' ']).isPrefixOf l.text)

/-- The lines of the first document. A line that begins it may hold its first value. -/
def firstDocument (ls : List Line) : List Line :=
  let start := ['-', '-', '-']
  let ls :=
    match ls with
    | l :: rest =>
      if isMarker start l then
        let more := trimStart (l.text.drop 3)
        if more.isEmpty || more.head? = some '#' then rest else ⟨4, more⟩ :: rest
      else ls
    | [] => []
  ls.takeWhile fun l => !isMarker start l && !isMarker ['.', '.', '.'] l

/-- Whether a line is an item of a sequence. -/
def isItem (l : Line) : Bool :=
  match l.text with
  | ['-'] => true
  | '-' :: c :: _ => isBlank c
  | _ => false

/-! ### Scalars -/

/-- The contents of a single-quoted scalar, and what follows it. -/
def singleQuoted : List Char → Option (List Char × List Char)
  | [] => none
  | '\'' :: '\'' :: cs => (singleQuoted cs).map fun (s, r) => ('\'' :: s, r)
  | '\'' :: cs => some ([], cs)
  | c :: cs => (singleQuoted cs).map fun (s, r) => (c :: s, r)

/-- The character that a letter stands for after a backslash. -/
def escaped? : Char → Option Char
  | '0' => some (Char.ofNat 0)
  | 'a' => some (Char.ofNat 7)
  | 'b' => some (Char.ofNat 8)
  | 't' => some '\t'
  | 'n' => some '\n'
  | 'v' => some (Char.ofNat 11)
  | 'f' => some (Char.ofNat 12)
  | 'r' => some '\r'
  | 'e' => some (Char.ofNat 27)
  | ' ' => some ' '
  | '"' => some '"'
  | '/' => some '/'
  | '\\' => some '\\'
  | 'N' => some (Char.ofNat 0x85)
  | '_' => some (Char.ofNat 0xA0)
  | 'L' => some (Char.ofNat 0x2028)
  | 'P' => some (Char.ofNat 0x2029)
  | _ => none

/-- The character written by a number of hexadecimal digits. -/
def hexChar? (ds : List Char) (width : Nat) : Option Char :=
  if ds.length < width then none
  else
    match Numeral.natural? 16 (ds.take width) with
    | some n => if n.isValidChar then some (Char.ofNat n) else none
    | none => none

/-- The contents of a double-quoted scalar, and what follows it; `skip` counts digits of an escape
already read. -/
def doubleQuoted : (skip : Nat) → List Char → Option (List Char × List Char)
  | _, [] => none
  | skip + 1, _ :: cs => doubleQuoted skip cs
  | 0, '"' :: cs => some ([], cs)
  | 0, '\\' :: c :: cs =>
    let digits := if c = 'x' then 2 else if c = 'u' then 4 else if c = 'U' then 8 else 0
    match if digits = 0 then escaped? c else hexChar? cs digits with
    | none => none
    | some e => (doubleQuoted digits cs).map fun (s, r) => (e :: s, r)
  | 0, c :: cs => (doubleQuoted 0 cs).map fun (s, r) => (c :: s, r)

/-- A plain scalar up to a comment. -/
def uncommented : List Char → List Char
  | [] => []
  | ' ' :: '#' :: _ => []
  | '\t' :: '#' :: _ => []
  | c :: cs => c :: uncommented cs

/-- Whether a colon that separates a key from its value stands somewhere. -/
def hasSeparator : List Char → Bool
  | [] => false
  | [':'] => true
  | ':' :: c :: cs => isBlank c || hasSeparator (c :: cs)
  | _ :: cs => hasSeparator cs

/-- Whether a plain scalar may begin this way. -/
def plainStart : List Char → Bool
  | [] => false
  | c :: cs =>
    if "-?:".toList.contains c then
      match cs with
      | [] => false
      | d :: _ => !isBlank d
    else !(",[]\x7b\x7d#&*!|>'\"%@`".toList.contains c)

/-- The node of a plain scalar: nothing for the words that mean it. -/
def plainNode (cs : List Char) : Node :=
  let s := String.ofList cs
  if s ∈ ["", "~", "null", "Null", "NULL"] then .null else .scalar s true

/-! ### Flow collections -/

/-- The characters that end a plain scalar inside a flow collection. -/
def flowEnd (c : Char) : Bool :=
  c = ',' || c = ']' || c = '}' || c = '[' || c = '{'

/-- A plain scalar inside a flow collection, and what follows it. -/
def flowPlain : List Char → List Char × List Char
  | [] => ([], [])
  | ':' :: cs =>
    match cs with
    | [] => ([], [':'])
    | d :: _ =>
      if isBlank d || flowEnd d then ([], ':' :: cs)
      else
        let (s, r) := flowPlain cs
        (':' :: s, r)
  | c :: cs =>
    if flowEnd c then ([], c :: cs)
    else
      let (s, r) := flowPlain cs
      (c :: s, r)

mutual

/-- A value inside a flow collection, and what follows it. -/
def flowValue : (fuel : Nat) → List Char → Option (Node × List Char)
  | 0, _ => none
  | fuel + 1, cs =>
    match trimStart cs with
    | '\x7b' :: rest => (flowEntries fuel rest).map fun (es, r) => (.mapping es, r)
    | '[' :: rest => (flowItems fuel rest).map fun r => (.sequence, r)
    | '"' :: rest => (doubleQuoted 0 rest).map fun (s, r) => (.scalar (String.ofList s) false, r)
    | '\'' :: rest => (singleQuoted rest).map fun (s, r) => (.scalar (String.ofList s) false, r)
    | rest =>
      let (s, r) := flowPlain rest
      some (plainNode (trimEnd s), r)

/-- The entries of a flow mapping after its brace, and what follows it. -/
def flowEntries : (fuel : Nat) → List Char → Option (List (String × Node) × List Char)
  | 0, _ => none
  | fuel + 1, cs =>
    match trimStart cs with
    | '\x7d' :: rest => some ([], rest)
    | cs => do
      let (k, rest) ← flowValue fuel cs
      let key :=
        match k with
        | .scalar s _ => s
        | _ => ""
      let (v, rest) ←
        match trimStart rest with
        | ':' :: rest => flowValue fuel rest
        | rest => some (.null, rest)
      match trimStart rest with
      | ',' :: rest =>
        let (es, rest) ← flowEntries fuel rest
        return ((key, v) :: es, rest)
      | '\x7d' :: rest => return ([(key, v)], rest)
      | _ => none

/-- What follows a flow sequence, from after its bracket. -/
def flowItems : (fuel : Nat) → List Char → Option (List Char)
  | 0, _ => none
  | fuel + 1, cs =>
    match trimStart cs with
    | ']' :: rest => some rest
    | cs => do
      let (_, rest) ← flowValue fuel cs
      match trimStart rest with
      | ',' :: rest => flowItems fuel rest
      | ']' :: rest => some rest
      | _ => none

end

/-! ### Block structure -/

/-- The node that a value on one line is, with the plain lines that go on below it. -/
def inlineNode (cs : List Char) (more : List Line) : Option Node :=
  match cs with
  | '"' :: rest => do
    let (s, r) ← doubleQuoted 0 rest
    if isTail r && more.isEmpty then return .scalar (String.ofList s) false else none
  | '\'' :: rest => do
    let (s, r) ← singleQuoted rest
    if isTail r && more.isEmpty then return .scalar (String.ofList s) false else none
  | c :: rest =>
    if c = '\x7b' ∨ c = '[' then do
      let (v, r) ← flowValue (2 * rest.length + 4) cs
      if isTail r && more.isEmpty then return v else none
    else
      let all := (cs :: more.map (·.text)).map fun l => trimEnd (uncommented l)
      if !plainStart cs || all.any hasSeparator then none
      else some (plainNode ([' '].intercalate all))
  | [] => some .null

/-- A plain key and what follows its colon. -/
def plainKey : List Char → Option (List Char × List Char)
  | [] => none
  | [':'] => some ([], [])
  | ':' :: c :: cs =>
    if isBlank c then some ([], c :: cs) else (plainKey (c :: cs)).map fun (k, r) => (':' :: k, r)
  | ' ' :: '#' :: _ => none
  | c :: cs => (plainKey cs).map fun (k, r) => (c :: k, r)

/-- The key of a line and the value after it, if the line has a key. -/
def keyOf? (cs : List Char) : Option (String × List Char) :=
  let after (key rest : List Char) : Option (String × List Char) :=
    match trimStart rest with
    | ':' :: rest =>
      if rest.isEmpty || rest.head?.any isBlank then some (String.ofList key, trimStart rest)
      else none
    | _ => none
  match cs with
  | '"' :: rest => (doubleQuoted 0 rest).bind fun (k, r) => after k r
  | '\'' :: rest => (singleQuoted rest).bind fun (k, r) => after k r
  | cs =>
    if plainStart cs then
      (plainKey cs).map fun (k, r) => (String.ofList (trimEnd k), trimStart r)
    else none

mutual

/-- The node that begins on the first of some lines, and the lines after it. -/
def block : (fuel : Nat) → List Line → Option (Node × List Line)
  | 0, _ => none
  | _, [] => some (.null, [])
  | fuel + 1, l :: rest =>
    if isItem l then
      some (.sequence, rest.dropWhile fun m =>
        l.indent < m.indent || (l.indent = m.indent && isItem m))
    else
      match keyOf? l.text with
      | some _ => (entries fuel l.indent (l :: rest)).map fun (es, r) => (.mapping es, r)
      | none =>
        let more := rest.takeWhile fun m => l.indent ≤ m.indent
        (inlineNode l.text more).map fun v => (v, rest.drop more.length)

/-- The entries of a mapping with a given indentation, and the lines after them. -/
def entries : (fuel : Nat) → (indent : Nat) → List Line → Option (List (String × Node) × List Line)
  | 0, _, _ => none
  | _, _, [] => some ([], [])
  | fuel + 1, indent, l :: rest =>
    if l.indent < indent then some ([], l :: rest)
    else if indent < l.indent || isItem l then none
    else do
      let (key, value) ← keyOf? l.text
      let isEmpty := value.isEmpty || value.head? = some '#'
      let (v, rest) ←
        if isEmpty then
          match rest with
          | m :: _ =>
            if indent < m.indent || (indent = m.indent && isItem m) then block fuel rest
            else some (.null, rest)
          | [] => some (.null, [])
        else
          let more := rest.takeWhile fun m => indent < m.indent
          (inlineNode value more).map fun v => (v, rest.drop more.length)
      let (es, rest) ← entries fuel indent rest
      return ((key, v) :: es, rest)

end

/-- Whether a document may hold `c`. -/
def isAllowed (c : Char) : Bool :=
  c = '\t' || c = '\n' || c = '\r' || (' ' ≤ c && c ≤ '~') || c.toNat = 0x85 ||
    (0xA0 ≤ c.toNat && c.toNat ≠ 0xFFFE && c.toNat ≠ 0xFFFF)

/-- Characters without the byte-order mark that may begin them. -/
def dropMark : List Char → List Char
  | '\uFEFF' :: cs => cs
  | cs => cs

/-- Reads a document. -/
def parse? (cs : List Char) : Option Node := do
  let cs := dropMark cs
  if !cs.all isAllowed then none
  else
    let ls ← lines? (cutLines cs)
    let ls := firstDocument ls
    let (v, rest) ← block (2 * ls.length + 2) ls
    if rest.isEmpty then return v else none

end Document

end TextScript
