import ModuleGraph.Edge.Request

/-!
# The graph of a project

Nodes are files, packages, assets and targets that could not be found. Each node has a key,
and no two nodes have the same: a node is added only if its key is new, and a later addition
under the same key gives the number of the node that is there.

## Implementation notes

A node is known by its place in the list of nodes, which never changes once it is added. The
key of an unresolved node is the path it would have had; its label is the specifier that was
first seen for it.
-/

namespace ModuleGraph

/-- A node of the project graph. -/
inductive Node
  /-- A parsed file. -/
  | file (path : Path)
  /-- A package, by its name. -/
  | package (name : String)
  /-- A file that is there but not parsed, with its family if it is an asset. -/
  | asset (path : Path) (kind : Option AssetKind)
  /-- A target that was not found. -/
  | unresolved (key : Path) (specifier : String)
deriving DecidableEq, Inhabited, Repr

/-- What tells one node from another. -/
inductive NodeKey
  | file (steps : List Component)
  | package (name : String)
  | asset (steps : List Component)
  | unresolved (steps : List Component)
deriving DecidableEq, Inhabited, Repr

/-- The key of a node. -/
def Node.key : Node → NodeKey
  | .file path => .file path.components
  | .package name => .package name
  | .asset path _ => .asset path.components
  | .unresolved key _ => .unresolved key.components

/-- The path of a parsed file. -/
def Node.file? : Node → Option Path
  | .file path => some path
  | _ => none

/-- The node is a parsed file. -/
def Node.isFile (n : Node) : Bool := n.file?.isSome

/-- The node is a package. -/
def Node.isPackage : Node → Bool
  | .package _ => true
  | _ => false

/-- The node is a file that is not parsed. -/
def Node.isAsset : Node → Bool
  | .asset .. => true
  | _ => false

/-- The node is a target that was not found. -/
def Node.isUnresolved : Node → Bool
  | .unresolved .. => true
  | _ => false

/-- A dependency between two nodes, given by their numbers. -/
structure Dependency where
  source : Nat
  target : Nat
  kind : EdgeKind
  specifier : String
  typeOnly : Bool
deriving DecidableEq, Inhabited, Repr

/-- The target has to run before the source does: its values are used and not only its types,
and it is not loaded later by `import()`. -/
def Dependency.isEager (d : Dependency) : Bool := !d.typeOnly && d.kind != .dynamicImport

/-- Nodes in the order of their addition, and the dependencies between them. -/
structure Graph where
  nodes : List Node
  dependencies : List Dependency
deriving DecidableEq, Inhabited, Repr

namespace Graph

/-- The graph without nodes. -/
def empty : Graph := ⟨[], []⟩

/-- The number of the node with that key. -/
def number? (g : Graph) (key : NodeKey) : Option Nat := g.nodes.findIdx? fun n => n.key = key

/-- The graph with a node of the key of `n`, and its number. -/
def add (g : Graph) (n : Node) : Graph × Nat :=
  match g.number? n.key with
  | some i => (g, i)
  | none => ({ g with nodes := g.nodes ++ [n] }, g.nodes.length)

/-- Adds a parsed file under its collapsed path. -/
def addFile (g : Graph) (path : Path) : Graph × Nat := g.add (.file path.normal)

/-- Adds a package. -/
def addPackage (g : Graph) (name : String) : Graph × Nat := g.add (.package name)

/-- Adds a file that is not parsed; its extension says which family it belongs to. -/
def addAsset (g : Graph) (path : Path) (table : Extension.Table) : Graph × Nat :=
  g.add (.asset path (path.extension?.bind table.asset?))

/-- Adds a target that was not found, under the path it would have had. -/
def addUnresolved (g : Graph) (key : Path) (specifier : String) : Graph × Nat :=
  g.add (.unresolved key specifier)

/-- Adds a dependency. -/
def connect (g : Graph) (d : Dependency) : Graph :=
  { g with dependencies := g.dependencies ++ [d] }

/-- The number of the parsed file of these steps. -/
def fileNumber? (g : Graph) (path : Path) : Option Nat := g.number? (.file path.components)

/-- How many parsed files there are. -/
def fileCount (g : Graph) : Nat := g.nodes.countP Node.isFile

/-- How many packages there are. -/
def packageCount (g : Graph) : Nat := g.nodes.countP Node.isPackage

/-- How many files are there that are not parsed. -/
def assetCount (g : Graph) : Nat := g.nodes.countP Node.isAsset

/-- How many targets were not found. -/
def unresolvedCount (g : Graph) : Nat := g.nodes.countP Node.isUnresolved

/-- Adding under a known key changes nothing. -/
theorem add_of_known {g : Graph} {n : Node} {i : Nat} (h : g.number? n.key = some i) :
    g.add n = (g, i) := by
  simp [add, h]

/-- Adding under a new key adds one node at the end. -/
theorem add_of_new {g : Graph} {n : Node} (h : g.number? n.key = none) :
    g.add n = ({ g with nodes := g.nodes ++ [n] }, g.nodes.length) := by
  simp [add, h]

end Graph

end ModuleGraph
