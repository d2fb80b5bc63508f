/-
TextScript/HostBoundary.lean

Values on their way to and from the embedding program's engine. Texts go out as host strings, and
host strings and machine integers come back as texts and integers; inside lists the same holds for
every member, and all other values cross unchanged. A list is copied on its way, so it loses its
mark.
-/
import TextScript.Scope

namespace TextScript

namespace Value

mutual

/-- A value as the engine sees it. -/
def toHost : Value → Value
  | text t => string t.toString
  | list items => list (toHostAll items)
  | marked _ (list items) => list (toHostAll items)
  | v => v

/-- The members of a list as the engine sees them. -/
def toHostAll : List Value → List Value
  | [] => []
  | v :: vs => toHost v :: toHostAll vs

end

mutual

/-- A value that came from the engine. -/
def fromHost : Value → Value
  | string s => text (Text.ofString s)
  | number n => int n
  | list items => list (fromHostAll items)
  | marked _ (list items) => list (fromHostAll items)
  | v => v

/-- The members of a list that came from the engine. -/
def fromHostAll : List Value → List Value
  | [] => []
  | v :: vs => fromHost v :: fromHostAll vs

end

end Value

/-- Every visible name with its value, as the engine sees it. -/
def Env.hostBindings (e : Env) : Bindings :=
  e.names.filterMap fun name => (e.get? name).map fun v => (name, v.toHost)

end TextScript
