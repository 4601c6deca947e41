import ModuleGraph.Extension.Table
import ModuleGraph.Text.Split

/-!
# Module specifiers

A specifier is the text by which a module names another one. One that begins with `./` or
`../`, and the texts `.` and `..`, are read from the importing file's directory; every other
text is bare and stands for itself.
-/

namespace ModuleGraph

/-- What a specifier is read from. -/
inductive Anchor
  /-- Nothing: a package name, a URL or an absolute path. -/
  | bare
  /-- The importing file's directory. -/
  | relative
  /-- The importing file's directory, which the text `.` names. -/
  | ownDirectory
deriving DecidableEq, Inhabited, Repr

/-- The anchor of a text, by its first characters. -/
def Anchor.of (raw : String) : Anchor :=
  if raw = "." then .ownDirectory
  else if raw = ".." || Text.hasPrefix "./" raw || Text.hasPrefix "../" raw then .relative
  else .bare

/-- A specifier with its path in canonical spelling. `hasExtension` says that the path ends in
a known extension. -/
structure Specifier where
  anchor : Anchor
  path : String
  hasExtension : Bool
deriving DecidableEq, Inhabited, Repr

namespace Specifier

/-- What follows the last dot of the last segment, if something other than dots comes before
it and something at all after it. -/
def extensionIn (path : String) : Option String :=
  match Text.cutLast '.' ((Text.split '/' path).getLastD "") with
  | some (stem, ext) =>
    if stem.toList.all (· == '.') || ext = "" then none else some ext
  | none => none

/-- The specifier stands for itself. -/
def isBare (s : Specifier) : Bool := s.anchor = .bare

/-- The specifier names a directory and not a file. -/
def isDirectory (s : Specifier) : Bool := !s.isBare && Text.hasSuffix "/" s.path

/-- The known extension the path ends in. -/
def extension? (s : Specifier) : Option String :=
  if s.hasExtension then extensionIn s.path else none

/-- The family of assets the specifier points into. A bare specifier is no asset, since its
package may map it to any file. -/
def assetKind? (s : Specifier) (table : Extension.Table) : Option AssetKind :=
  if s.isBare then none else s.extension?.bind table.asset?

/-- The specifier points at an asset. -/
def isAsset (s : Specifier) (table : Extension.Table) : Bool := (s.assetKind? table).isSome

/-- The path as it is written where every emitted module carries the extension `ext`: a file
without extension gains it, and a directory becomes its index file. -/
def emitted (s : Specifier) (ext : String) : String :=
  let ext := Text.trimDots ext
  if s.isBare || s.hasExtension then s.path
  else if s.isDirectory then s.path ++ "index." ++ ext
  else s.path ++ "." ++ ext

end Specifier

end ModuleGraph
