import ModuleGraph.Graph.Build
import ModuleGraph.Graph.Cycle

/-!
# Statistics of a project

Counts over the extracted files and the graph that was built from them.
-/

namespace ModuleGraph

/-- The counts of a project. -/
structure Stats where
  files : Nat
  importRecords : Nat
  exportRecords : Nat
  /-- The names that all files offer; `export *` adds none. -/
  exportedNames : Nat
  edges : Nat
  /-- The edges of each kind; every kind is there. -/
  edgesByKind : List (EdgeKind × Nat)
  typeOnlyEdges : Nat
  assetEdges : Nat
  /-- The dependencies that lead to a parsed file. -/
  resolvedFiles : Nat
  packages : Nat
  assets : Nat
  unresolved : Nat
  cycles : Nat
  /-- The files that use CommonJS globals. -/
  commonJSFiles : Nat
  /-- The files that could not be read or parsed. -/
  skipped : Nat
deriving DecidableEq, Inhabited, Repr

namespace Graph

/-- How many dependencies lead to a parsed file. -/
def resolvedCount (g : Graph) : Nat :=
  g.dependencies.countP fun d => g.nodes[d.target]?.any Node.isFile

end Graph

/-- The counts of `xs`, of their graph, and of `skipped` files beside them. -/
def Stats.of (xs : List Extraction) (g : Graph) (skipped : Nat) : Stats :=
  let edges := xs.flatMap (·.edges)
  { files := xs.length
    importRecords := (xs.flatMap (·.imports)).length
    exportRecords := (xs.flatMap (·.exports)).length
    exportedNames := ((xs.flatMap (·.exports)).flatMap (·.form.exportedNames)).length
    edges := edges.length
    edgesByKind := EdgeKind.all.map fun k => (k, edges.countP (·.kind = k))
    typeOnlyEdges := edges.countP (·.typeOnly)
    assetEdges := edges.countP (·.isAsset)
    resolvedFiles := g.resolvedCount
    packages := g.packageCount
    assets := g.assetCount
    unresolved := g.unresolvedCount
    cycles := g.cycles.length
    commonJSFiles := xs.countP fun x => !x.globals.isEmpty
    skipped }

end ModuleGraph
