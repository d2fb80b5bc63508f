/-
TextScript/Files/Path.lean

Slash-separated paths: shortest equivalent forms, joining, and the directory of a path.
-/
namespace TextScript.Path

/-- The parts of a list of characters between slashes, empty ones included. -/
def cut : List Char → List (List Char)
  | [] => [[]]
  | c :: cs => if c = '/' then [] :: cut cs else (cut cs).modifyHead (c :: ·)

/-- The parts of a path between its slashes, empty ones included. -/
def parts (p : String) : List String :=
  (cut p.toList).map String.ofList

/-- Whether a path begins at the root. -/
def isAbsolute (p : String) : Bool :=
  p.toList.head? = some '/'

/-- Drops parts that stay where they are and lets a step up cancel the part before it. `rooted`
paths do not go above the root. The parts so far are `kept`, the last one first. -/
def settle (rooted : Bool) : (kept : List String) → List String → List String
  | kept, [] => kept.reverse
  | kept, p :: ps =>
    if p = "" ∨ p = "." then settle rooted kept ps
    else if p = ".." then
      match kept with
      | [] => if rooted then settle rooted [] ps else settle rooted [".."] ps
      | k :: rest => if k = ".." then settle rooted (".." :: kept) ps else settle rooted rest ps
    else settle rooted (p :: kept) ps

/-- The shortest path equivalent to a path. -/
def clean (p : String) : String :=
  let rooted := isAbsolute p
  let body := "/".intercalate (settle rooted [] (parts p))
  if rooted then "/" ++ body else if body = "" then "." else body

/-- Two paths, one inside the other; an empty path adds nothing. -/
def join (dir p : String) : String :=
  if dir = "" then (if p = "" then "" else clean p) else if p = "" then clean dir
  else clean (dir ++ "/" ++ p)

/-- The directory of a path. -/
def directory (p : String) : String :=
  clean (String.ofList (p.toList.reverse.dropWhile (· ≠ '/')).reverse)

/-- A path from the root, seen from a working directory. -/
def absolute (cwd p : String) : String :=
  if isAbsolute p then clean p else join cwd p

/-- A path and the directories above it as written, the longest first. -/
def ancestors (p : String) : List String :=
  let ps := parts p
  ((List.range ps.length).reverse.map fun n => "/".intercalate (ps.take (n + 1))).filter (· ≠ "")

end TextScript.Path
