import ModuleGraph.Extraction
import ModuleGraph.Graph.Basic

/-!
# Building the graph of a project

The graph of a list of extracted files: a node for each file, then the edges of each file in
turn, every edge to the node its target leads to.

## Implementation notes

What lies on disk is known only through a resolver, which is any function from an importing
file and a specifier to a resolution.
-/

namespace ModuleGraph

/-- What a specifier was found to name. -/
inductive Resolution
  /-- A file. -/
  | file (path : Path)
  /-- A module that the runtime brings along. -/
  | builtin (name : String)
  | nothing
deriving DecidableEq, Inhabited, Repr

/-- The file a specifier was found to name. -/
def Resolution.file? : Resolution → Option Path
  | .file path => some path
  | _ => none

/-- Finds what a specifier names in a file. -/
abbrev Resolver := Path → String → Resolution

namespace Graph

/-- The node that a lookup leads to among what is known without a disk: the parsed file of
the first candidate that is one, else a target that is not found; or a package. -/
def addRequest (g : Graph) (request : Request) (specifier : String) : Graph × Nat :=
  match request with
  | .package name _ => g.addPackage name
  | .file candidates =>
    match candidates.findSome? g.fileNumber? with
    | some i => (g, i)
    | none => g.addUnresolved (candidates.head?.getD Path.empty) specifier

/-- The node an edge leads to. A file found on disk is the parsed file of its collapsed path,
or an asset unless the specifier is bare; all else is looked up without the disk. -/
def addTarget (g : Graph) (e : Edge) (table : Extension.Table) (resolver : Resolver) :
    Graph × Nat :=
  match (resolver e.file e.specifier.path).file? with
  | none => g.addRequest (e.request table) e.specifier.path
  | some path =>
    match g.fileNumber? path.normal with
    | some i => (g, i)
    | none =>
      if e.specifier.isBare then g.addRequest (e.request table) e.specifier.path
      else g.addAsset path.normal table

/-- Adds the edge, which starts at the node `source`. -/
def addEdge (table : Extension.Table) (resolver : Resolver) (source : Nat) (g : Graph)
    (e : Edge) : Graph :=
  let (g, target) := g.addTarget e table resolver
  g.connect
    { source, target, kind := e.kind, specifier := e.specifier.path, typeOnly := e.typeOnly }

/-- Adds the edges of a file. -/
def addExtraction (table : Extension.Table) (resolver : Resolver) (g : Graph)
    (x : Extraction) : Graph :=
  let (g, source) := g.addFile x.file
  x.edges.foldl (addEdge table resolver source) g

/-- The graph of the files. -/
def ofExtractions (xs : List Extraction) (table : Extension.Table) (resolver : Resolver) :
    Graph :=
  xs.foldl (addExtraction table resolver) <|
    xs.foldl (fun g x => (g.addFile x.file).1) empty

end Graph

end ModuleGraph
