import ModuleGraph.Graph.Reach

/-!
# Circular dependencies

Files that depend on one another form a cycle, and so does a file that depends on itself.
Each cycle is shown once, by its files in the order of their paths and the first one again;
the cycles come in the order of their first files.

## Implementation notes

A cycle is made at its first file only: going through all files in order and skipping those
that are not the first of their circle gives each cycle once and in order.
-/

namespace ModuleGraph

/-- The files of a cycle, with the first one repeated at the end. -/
structure Cycle where
  files : List Path
deriving DecidableEq, Inhabited, Repr

namespace Graph

/-- Numbers of files in the order of their paths. -/
def sortByPath (g : Graph) (is : List Nat) : List Nat :=
  is.mergeSort fun i j => (g.pathOf i).le (g.pathOf j)

/-- The cycle among `files` of which `i` is the first file. -/
def cycleFrom? (g : Graph) (files : List Nat) (i : Nat) : Option Cycle :=
  let members := g.sortByPath (g.circle files i)
  if members.head? = some i then some ⟨members.map g.pathOf ++ [g.pathOf i]⟩ else none

/-- The cycles among `files`. -/
def cyclesAmong (g : Graph) (files : List Nat) : List Cycle :=
  (g.sortByPath files).filterMap (g.cycleFrom? files)

/-- The cycles of the graph. -/
def cycles (g : Graph) : List Cycle := g.cyclesAmong g.fileNumbers

end Graph

end ModuleGraph
