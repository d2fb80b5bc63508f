/-
TextScript/Settings/Load.lean

Settings from a document and from a file. A document changes the defaults where it says something;
how it is written is left to whoever brings a reader for it. The file is the one named, or the one
that the environment names, or the first of two usual places.
-/
import TextScript.Files.Tree
import TextScript.Settings.Basic
import TextScript.Settings.Placeholder
import TextScript.Utf8

namespace TextScript.Settings

/-! ### Documents -/

/-- A way to read documents: the settings that a document gives, over others, or why it is
refused. -/
abbrev DocumentReader := Settings → List Char → Except String Settings

/-- What is said of a document that is refused. -/
def unreadable (why : String) : String :=
  "failed to parse config: " ++ why

/-- Settings from a document, over the defaults. -/
def parse (read : DocumentReader) (getenv : String → String) (doc : List Char) :
    Except String Settings :=
  match read {} (Placeholder.expand getenv doc) with
  | .error why => .error (unreadable why)
  | .ok s => s.validate

/-- Settings from the bytes of a document. -/
def parseBytes (read : DocumentReader) (getenv : String → String) (bytes : List UInt8) :
    Except String Settings :=
  if Utf8.isValidFrom 0 bytes then parse read getenv (Utf8.decode bytes)
  else .error (unreadable "not UTF-8")

/-! ### Files -/

/-- The variable that may name the settings file. -/
def variableName : String := "IOKE_CONFIG"

/-- The usual name of the settings file. -/
def fileName : String := "ioke.yaml"

/-- The settings file to use. -/
def locate (files : FileTree) (home : String) (getenv : String → String) (explicit : String) :
    Except String String :=
  if explicit ≠ "" then
    if files.exists? explicit then .ok explicit else .error ("config file not found: " ++ explicit)
  else
    let named := getenv variableName
    if named ≠ "" then
      if files.exists? named then .ok named
      else .error (variableName ++ " file not found: " ++ named)
    else if files.exists? fileName then .ok fileName
    else
      let usual := Path.join (Path.join (Path.join home ".config") "ioke") fileName
      if files.exists? usual then .ok usual
      else .error "no config file found (tried IOKE_CONFIG, ioke.yaml, ~/.config/ioke/ioke.yaml)"

/-- The log output seen from the directory of the settings file. -/
def resolveOutput (base output : String) : String :=
  if output ∈ ["", "stderr", "stdout"] || Path.isAbsolute output then output
  else Path.join base output

/-- Settings from a file, with the path of the file. -/
def load (read : DocumentReader) (files : FileTree) (home : String) (getenv : String → String)
    (explicit : String) : Except String (Settings × String) := do
  let path ← locate files home getenv explicit
  let contents ← (files.read path).mapError ("failed to read config: " ++ ·)
  let s ← parse read getenv contents.toList
  let absolute := Path.absolute files.cwd path
  let base := Path.directory absolute
  return ({ s with baseDir := base, logOutput := resolveOutput base s.logOutput }, absolute)

end TextScript.Settings
