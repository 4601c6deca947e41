import ModuleGraph.Extension.Kind
import ModuleGraph.Json.Basic

/-!
# Kinds as written in JSON

A kind is written as its name. An object is read as the kind of its only key if nothing but
null stands under it.
-/

namespace ModuleGraph.Extension

/-- The value is not a kind. -/
structure KindFault where
deriving DecidableEq, Repr

/-- The fault in words. -/
def KindFault.message (_ : KindFault) : String :=
  "data did not match any variant of untagged enum ExtensionKind"

/-- The kind that a value stands for. -/
def Kind.ofJson : Json → Except KindFault Kind
  | .string name => (ofName? name).elim (.error ⟨⟩) .ok
  | .object [(name, .null)] => (ofName? name).elim (.error ⟨⟩) .ok
  | _ => .error ⟨⟩

end ModuleGraph.Extension
