/-
TextScript/HostEngine.lean

Interpolated code in the language of the embedding program. The program brings an engine for its
language; what the engine compiles becomes a node that runs it, and what it refuses a failure at the
place of the code. The engine is given the code alone, so it cannot know that place.
-/
import TextScript.Literal.Interpolation

namespace TextScript

/-- An engine for the language of an embedding program. The same code always compiles to the
same. -/
structure HostEngine where
  /-- Compiles code, or says why it cannot. What it returns runs the code with the values of
  names. -/
  compile : String → Except Failure (Bindings → Except Failure Value)

namespace HostEngine

/-- Reads embedded code with an engine. Blanks around the code are not part of it. -/
def reader (engine : HostEngine) : CodeReader := fun src place =>
  let code := Text.trimString src
  match engine.compile code with
  | .error cause => .fail
      ((Failure.wrap .hostCompile cause (some [("Source", .text code)])).moveTo place)
  | .ok run => do
    .report (.codeCompiled place code)
    return .host { kind := .ident, lit := code, place } code run

end HostEngine

end TextScript
