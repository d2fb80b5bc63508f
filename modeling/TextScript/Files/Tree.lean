/-
TextScript/Files/Tree.lean

A tree of files with a working directory. A path names a file, a directory or nothing; every step on
the way must be a directory. Reading gives the contents of a file or says why there are none.
-/
import TextScript.Files.Path

namespace TextScript

/-- Files by their path from the working directory, with their contents. -/
structure FileTree where
  cwd : String
  files : List (String × String)

/-- What a path names. -/
inductive FileEntry where
  | file (contents : String)
  | directory
deriving DecidableEq, Repr

namespace FileTree

/-- The parts of a path from the root. -/
def steps (t : FileTree) (p : String) : List String :=
  if Path.isAbsolute p then (Path.parts p).drop 1 else (Path.parts t.cwd).drop 1 ++ Path.parts p

/-- The parts of a settled path from the root. -/
def home (t : FileTree) (p : String) : List String :=
  Path.settle true [] (Path.parts (Path.absolute t.cwd p))

/-- Whether the parts name a directory: one above the working directory or above a file. -/
def isDirectory (t : FileTree) (steps : List String) : Bool :=
  steps.isPrefixOf (t.home ".") ||
    t.files.any fun (p, _) => steps.isPrefixOf (t.home p) && steps ≠ t.home p

/-- The contents of the file that the parts name. -/
def contents? (t : FileTree) (steps : List String) : Option String :=
  (t.files.find? fun (p, _) => t.home p = steps).map (·.2)

/-- Follows the steps of a path from the directory reached so far. -/
def walk (t : FileTree) : (reached : List String) → List String → Option FileEntry
  | reached, [] =>
    if t.isDirectory reached then some .directory else (t.contents? reached).map .file
  | reached, s :: rest =>
    if !t.isDirectory reached then none
    else if s = "" ∨ s = "." then t.walk reached rest
    else if s = ".." then t.walk reached.dropLast rest
    else t.walk (reached ++ [s]) rest

/-- What a path names, if anything. -/
def entry? (t : FileTree) (p : String) : Option FileEntry :=
  if p = "" then none else t.walk [] (t.steps p)

/-- Whether a path names something. -/
def exists? (t : FileTree) (p : String) : Bool :=
  (t.entry? p).isSome

/-- The path above a path that names a file, if there is one: nothing can be below it. -/
def fileAbove? (t : FileTree) (p : String) : Option String :=
  ((Path.ancestors p).drop 1).find? fun a => t.entry? a matches some (.file _)

/-- The contents of a file, or why it cannot be read. -/
def read (t : FileTree) (p : String) : Except String String :=
  match t.entry? p, t.fileAbove? p with
  | some (.file s), _ => .ok s
  | some .directory, _ => .error ("read " ++ p ++ ": is a directory")
  | none, some _ => .error ("open " ++ p ++ ": not a directory")
  | none, none => .error ("open " ++ p ++ ": no such file or directory")

/-- Why a directory cannot be made together with those above it. -/
def obstacle? (t : FileTree) (dir : String) : Option String :=
  match t.entry? dir with
  | some (.file _) => some ("mkdir " ++ dir ++ ": not a directory")
  | some .directory => none
  | none => (t.fileAbove? dir).map fun a => "mkdir " ++ a ++ "/: file exists"

/-- Opens a file for appending, creating it and the directories above it. -/
def openAppend (t : FileTree) (p : String) : Except String FileTree :=
  match t.obstacle? (Path.directory p) with
  | some why => .error ("failed to create log directory: " ++ why)
  | none =>
    match t.entry? p with
    | some .directory => .error ("failed to open log file: open " ++ p ++ ": is a directory")
    | some (.file _) => .ok t
    | none =>
      if p.toList.getLast? = some '/' then
        .error ("failed to open log file: open " ++ p ++ ": is a directory")
      else .ok { t with files := t.files ++ [(p, "")] }

/-- Appends to the file that a path names. -/
def append (t : FileTree) (p s : String) : FileTree :=
  { t with files := t.files.map fun (q, old) =>
      if t.home q = t.home p then (q, old ++ s) else (q, old) }

end FileTree

end TextScript
