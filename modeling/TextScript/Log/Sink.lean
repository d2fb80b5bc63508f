/-
TextScript/Log/Sink.lean

Where a log goes: one of the two standard outputs, or a file that is opened for appending. A
logger is made from settings; the level is checked first, then the output is opened, and then the
form is checked, so a file may come into being although the logger is refused.
-/
import TextScript.Files.Tree
import TextScript.Log.Line

namespace TextScript.Log

/-- Where lines are written. -/
inductive Sink where
  | stdout
  | stderr
  | file (path : String)
deriving DecidableEq, Repr

/-- The sink that a setting names. -/
def Sink.ofSetting (output : String) : Sink :=
  if output = "" ∨ output = "stderr" then .stderr
  else if output = "stdout" then .stdout
  else .file output

/-- A logger: records below its level are dropped. -/
structure Logger where
  level : Level
  form : Form
  sink : Sink
deriving Repr

/-- Opens the output of a logger. -/
def Sink.prepare (files : FileTree) : Sink → Except String FileTree
  | .file path => files.openAppend path
  | _ => .ok files

/-- Makes a logger from settings, with the files as they are then. -/
def Logger.make (files : FileTree) (level format output : String) :
    Except String (Logger × FileTree) := do
  let some level := Level.ofSetting? level | .error ("invalid log level: " ++ level)
  let sink := Sink.ofSetting output
  let files ← sink.prepare files
  let some form := Form.ofSetting? format | .error ("invalid log format: " ++ format)
  return ({ level, form, sink }, files)

/-- The lines that a logger writes for some records. -/
def Logger.lines (l : Logger) (records : List Record) : List String :=
  (records.filter fun r => l.level.weight ≤ r.level.weight).map l.form.render

end TextScript.Log
