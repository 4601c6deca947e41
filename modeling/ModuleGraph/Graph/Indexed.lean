import Mathlib.Data.List.Basic
import ModuleGraph.Graph.Basic

/-!
# Graphs with an index for each family of nodes

The number of a node is found without a search: files, packages, assets and targets that were not
found have a hash table each, from their keys to their numbers. A node is added to the graph
and entered in the table of its family by two separate steps.

## Implementation notes

Only files are entered under their collapsed paths; all other keys are taken as they come. The
four additions differ in nothing but their keys and their nodes. `Graph.add` searches the nodes
instead and needs no tables; the same changes make the same graph and give the same numbers
either way.
-/

namespace ModuleGraph

deriving instance Hashable for Component

/-- What can be added under a key. -/
inductive Addition
  /-- A parsed file. -/
  | file (path : Path)
  | package (name : String)
  /-- A file that is not parsed; the table says which family it belongs to. -/
  | asset (path : Path) (table : Extension.Table)
  /-- A target that was not found, with the path it would have had. -/
  | unresolved (path : Path) (specifier : String)
deriving Repr

/-- The key that an addition is entered under. -/
def Addition.key : Addition → NodeKey
  | .file path => .file path.normal.components
  | .package name => .package name
  | .asset path _ => .asset path.components
  | .unresolved path _ => .unresolved path.components

/-- The node that an addition under a new key makes. -/
def Addition.node : Addition → Node
  | .file path => .file path.normal
  | .package name => .package name
  | .asset path table => .asset path (path.extension?.bind table.asset?)
  | .unresolved path specifier => .unresolved path specifier

/-- One change of a graph. -/
inductive Change
  | add (a : Addition)
  | connect (d : Dependency)
deriving Repr

/-- A graph with the numbers of its nodes by their keys, one table for each family. -/
structure IndexedGraph where
  graph : Graph
  files : Std.HashMap (List Component) Nat
  packages : Std.HashMap String Nat
  assets : Std.HashMap (List Component) Nat
  unresolved : Std.HashMap (List Component) Nat

namespace IndexedGraph

/-- The graph without nodes; its tables are empty. -/
def empty : IndexedGraph := ⟨.empty, ∅, ∅, ∅, ∅⟩

/-- The number that the table of its family has for the key. -/
def number? (x : IndexedGraph) : NodeKey → Option Nat
  | .file steps => x.files[steps]?
  | .package name => x.packages[name]?
  | .asset steps => x.assets[steps]?
  | .unresolved steps => x.unresolved[steps]?

/-- Enters the number in the table of the key's family. -/
def enter (x : IndexedGraph) (i : Nat) : NodeKey → IndexedGraph
  | .file steps => { x with files := x.files.insert steps i }
  | .package name => { x with packages := x.packages.insert name i }
  | .asset steps => { x with assets := x.assets.insert steps i }
  | .unresolved steps => { x with unresolved := x.unresolved.insert steps i }

/-- Puts a node at the end, without an entry. -/
def append (x : IndexedGraph) (n : Node) : IndexedGraph :=
  { x with graph := { x.graph with nodes := x.graph.nodes ++ [n] } }

/-- The graph with a node under the key of the addition, and the number of this node. -/
def add (x : IndexedGraph) (a : Addition) : IndexedGraph × Nat :=
  match x.number? a.key with
  | some i => (x, i)
  | none =>
    let i := x.graph.nodes.length
    ((x.append a.node).enter i a.key, i)

/-- The graph after a change. -/
def change (x : IndexedGraph) : Change → IndexedGraph
  | .add a => (x.add a).1
  | .connect d => { x with graph := x.graph.connect d }

/-- The graph that the changes make out of the empty one. -/
def ofChanges (changes : List Change) : IndexedGraph := changes.foldl change empty

end IndexedGraph

namespace Graph

/-- The graph after an addition, found by searching the nodes, and the number of the node. -/
def perform (g : Graph) : Addition → Graph × Nat
  | .file path => g.addFile path
  | .package name => g.addPackage name
  | .asset path table => g.addAsset path table
  | .unresolved path specifier => g.addUnresolved path specifier

/-- The graph after a change. -/
def change (g : Graph) : Change → Graph
  | .add a => (g.perform a).1
  | .connect d => g.connect d

/-- The graph that the changes make out of the empty one. -/
def ofChanges (changes : List Change) : Graph := changes.foldl change empty

end Graph

end ModuleGraph
