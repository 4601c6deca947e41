import ModuleGraph.Path.Basic

/-!
# Absolute spellings

A relative path spelled from the root on, by the directory from which it is read. Climbs stay
as they are, since the directory before one may be a link.
-/

namespace ModuleGraph

/-- The text of a step. -/
def Component.text : Component → String
  | .root => "/"
  | .here => "."
  | .up => ".."
  | .name s => s

namespace Path

/-- The path in which all steps are spelled from `directory`, unless it is absolute already.
A slash at its end is kept, and so are two slashes at its beginning if there are not more. -/
def absolute (p directory : Path) : Path :=
  let doubled := Text.hasPrefix "//" p.text && !Text.hasPrefix "///" p.text
  let start : Path := if doubled then ⟨"//"⟩ else if p.isAbsolute then ⟨"/"⟩ else directory
  let steps := p.components.filter fun c => c != .root && c != .here
  let spelled := steps.foldl (fun q c => q.join ⟨c.text⟩) start
  if Text.hasSuffix "/" p.text then spelled.join empty else spelled

end Path

end ModuleGraph
