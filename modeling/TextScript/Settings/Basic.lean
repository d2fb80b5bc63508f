/-
TextScript/Settings/Basic.lean

The settings of an embedding: how literals are read, how large formatted output may be, and where
and how to log. Checking reports every invalid setting, in a fixed order.
-/
namespace TextScript

/-- All settings. -/
structure Settings where
  /-- The directory that relative paths start from. -/
  baseDir : String := ""
  /-- How deep interpolations may nest; 0 means without limit. -/
  maxDepth : Int := 64
  /-- Who reads interpolated code. -/
  interpolation : String := "ioke"
  /-- The greatest length of a rendered text; 0 means without limit. -/
  maxOutput : Int := 0
  logLevel : String := "info"
  logFormat : String := "text"
  logOutput : String := "stderr"
deriving DecidableEq, Inhabited, Repr

namespace Settings

/-- The engine setting that hands interpolated code to the embedding program. -/
def hostEngine : String := "expr"

/-- What is wrong with a number that must not be negative. -/
def negative (name : String) (n : Int) : List String :=
  if n < 0 then ["invalid " ++ name ++ ": " ++ toString n ++ " (must be 0 or more)"] else []

/-- What is wrong with a word that must be one of some. -/
def notAmong (what got : String) (valid : List String) (wanted : String) : List String :=
  if got ∈ valid then [] else ["invalid " ++ what ++ ": " ++ got ++ " (must be " ++ wanted ++ ")"]

/-- Everything that is wrong with some settings. -/
def problems (s : Settings) : List String :=
  negative "parser.max_interpolation_depth" s.maxDepth ++
  notAmong "parser.interpolation" s.interpolation ["ioke", hostEngine] "ioke or expr" ++
  negative "format.max_output" s.maxOutput ++
  notAmong "log level" s.logLevel ["debug", "info", "warn", "error"]
    "debug, info, warn, or error" ++
  notAmong "log format" s.logFormat ["json", "text"] "json or text"

/-- The settings themselves, or all that is wrong with them. -/
def validate (s : Settings) : Except String Settings :=
  match s.problems with
  | [] => .ok s
  | ps => .error ("configuration errors:\n  - " ++ "\n  - ".intercalate ps)

end Settings

end TextScript
