/-
TextScript/Session.lean

Sessions: the language as an embedding program uses it. A session has settings, conversions for
values, an engine for the program's own language and one outermost scope; sources are read and
evaluated against that scope, and what they assign stays for the next ones.
-/
import TextScript.Eval
import TextScript.Files.Tree
import TextScript.HostEngine
import TextScript.Program.Source
import TextScript.Settings.Basic

namespace TextScript

/-- A session. -/
structure Session where
  settings : Settings := {}
  caps : Capabilities := .native
  casing : Casing := .simple
  /-- What reads interpolated code if the settings hand it to the embedding program. -/
  host : HostEngine
  env : Env := {}

namespace Session

/-- A new session, unless its settings are invalid. -/
def create (settings : Settings) (caps : Capabilities) (casing : Casing) (host : HostEngine) :
    Except Failure Session :=
  match settings.validate with
  | .error m => .error (.plain m)
  | .ok settings => .ok { settings, caps, casing, host }

/-- The format engine of a session. -/
def engine (s : Session) : Engine :=
  { caps := s.caps, maxOutput := s.settings.maxOutput }

/-- What evaluation draws on. -/
def services (s : Session) : Services :=
  { caps := s.caps, formatter := s.engine, casing := s.casing }

/-- How the session reads sources. A nesting limit of zero means none. -/
def parseOptions (s : Session) : ParseOptions :=
  { maxDepth := if s.settings.maxDepth = 0 then -1 else s.settings.maxDepth
    embedded :=
      if s.settings.interpolation = Settings.hostEngine then some s.host.reader else none }

/-- Reads a source without evaluating it. -/
def parse (s : Session) (src : List Char) : Traced Program :=
  (Source.parse s.parseOptions src).toTraced

/-- Reads and evaluates a source; the value is that of its last expression. -/
def eval (s : Session) (src : List Char) : Traced Value × Session :=
  let parsed := s.parse src
  match parsed.result with
  | .error f => (⟨.error f, parsed.events⟩, s)
  | .ok program =>
    let start : EvalState := { env := s.env, events := parsed.events }
    let (result, st) := Eval.evalProgram s.services program start
    (⟨result, st.events⟩, { s with env := st.env })

/-- Evaluates the source in a file. Failures name the file. -/
def evalFile (s : Session) (files : FileTree) (path : String) : Traced Value × Session :=
  match files.read path with
  | .error m => (.fail (.plain ("failed to read source: " ++ m)), s)
  | .ok src =>
    let (t, s) := s.eval src.toList
    (⟨t.result.mapError (·.inFile path), t.events⟩, s)

/-- Binds a name in the outermost scope. Host strings and machine integers are stored as texts and
integers. -/
def set (s : Session) (name : String) (v : Value) : Session :=
  let v :=
    match v with
    | .string x => .text (Text.ofString x)
    | .number n => .int n
    | v => v
  { s with env := s.env.hold name v }

/-- The value of a name. -/
def get? (s : Session) (name : String) : Option Value :=
  s.env.get? name

/-- Renders a template with the session's engine. -/
def format (s : Session) (tmpl : String) (args : List Value) : Traced Text :=
  s.engine.format (Text.ofString tmpl) args

/-- Decodes the escapes in the body of a literal. -/
def decode (_ : Session) (raw : List Char) : Except Failure Text :=
  Escape.decode raw

end Session

end TextScript
