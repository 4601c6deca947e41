import ModuleGraph.Edge.Basic
import ModuleGraph.Path.Trail

/-!
# Resolution requests

What has to be looked up to find the target of an edge: the paths where its file may lie, in
the order in which they are tried, or a package by its name.
-/

namespace ModuleGraph

/-- A lookup. -/
inductive Request
  /-- The first of these paths that exists. -/
  | file (candidates : List Path)
  /-- A path within a package, or the package itself. -/
  | package (name : String) (subpath : Option String)
deriving DecidableEq, Inhabited, Repr

namespace Request

/-- How many segments the name of a package has: two if it begins with a scope. -/
def nameLength (specifier : String) : Nat := if Text.hasPrefix "@" specifier then 2 else 1

/-- The name of the package a bare specifier leads into. -/
def packageName (specifier : String) : String :=
  Text.join '/' ((Text.split '/' specifier).take (nameLength specifier))

/-- What follows the name of the package and a slash, unless it is empty. -/
def packageSubpath (specifier : String) : Option String :=
  match (Text.split '/' specifier).drop (nameLength specifier) with
  | [] => none
  | rest => let path := Text.join '/' rest; if path = "" then none else some path

/-- The path with a dot and `ext` after it. -/
def withSuffix (p : Path) (ext : String) : Path := ⟨p.text ++ "." ++ ext⟩

/-- The paths at which the file of a relative specifier may lie: the target itself if its
extension is written; else the target with each module extension, unless it is a directory;
then the index file of each module extension in the target. -/
def candidates (file : Path) (s : Specifier) (table : Extension.Table) : List Path :=
  let target := file.directory.resolve s.path
  if s.hasExtension then [target]
  else
    (if s.isDirectory then [] else table.modules.map (withSuffix target)) ++
      table.modules.map (withSuffix (target.join ⟨"index"⟩))

end Request

/-- The lookup that the target of an edge needs. -/
def Edge.request (e : Edge) (table : Extension.Table) : Request :=
  if e.specifier.isBare then
    .package (Request.packageName e.specifier.path) (Request.packageSubpath e.specifier.path)
  else .file (Request.candidates e.file e.specifier table)

end ModuleGraph
