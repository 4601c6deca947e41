import ModuleGraph.Graph.Basic

/-!
# Reachability by eager dependencies

Which parsed files have to run before a file does, directly or through others. Only the
dependencies between parsed files that are eager count.

## Implementation notes

The search takes each file it finds out of the files that remain. That finite list bounds the
search, so there is no limit on its steps and it misses nothing.
-/

namespace ModuleGraph.Graph

/-- The numbers of the parsed files. -/
def fileNumbers (g : Graph) : List Nat :=
  g.nodes.zipIdx.filterMap fun n => if n.1.isFile then some n.2 else none

/-- The path of the parsed file with that number. -/
def pathOf (g : Graph) (i : Nat) : Path := (g.nodes[i]?.bind Node.file?).getD Path.empty

/-- The targets of the eager dependencies of `i`. -/
def successors (g : Graph) (i : Nat) : List Nat :=
  (g.dependencies.filter fun d => d.isEager && d.source == i).map (·.target)

/-- The sources of the eager dependencies on `i`. -/
def predecessors (g : Graph) (i : Nat) : List Nat :=
  (g.dependencies.filter fun d => d.isEager && d.target == i).map (·.source)

/-- All of `remaining` that is found from `pending` by going on to `next`. -/
def gather (next : Nat → List Nat) (remaining pending : List Nat) : List Nat :=
  match pending with
  | [] => []
  | v :: rest =>
    if _h : v ∈ remaining then v :: gather next (remaining.erase v) (next v ++ rest)
    else gather next remaining rest
termination_by (remaining.length, pending.length)
decreasing_by
  · apply Prod.Lex.left
    rw [List.length_erase_of_mem _h]
    have := List.length_pos_of_mem _h
    omega
  · exact Prod.Lex.right _ (by simp)

/-- Those of `files` that `i` depends on, directly or through others. -/
def reached (g : Graph) (files : List Nat) (i : Nat) : List Nat :=
  gather g.successors files (g.successors i)

/-- Those of `files` that depend on `i`, directly or through others. -/
def reaching (g : Graph) (files : List Nat) (i : Nat) : List Nat :=
  gather g.predecessors files (g.predecessors i)

/-- Those of `files` that depend on `i` and on which `i` depends. It is empty unless `i`
depends on itself. -/
def circle (g : Graph) (files : List Nat) (i : Nat) : List Nat :=
  let back := g.reaching files i
  (g.reached files i).filter (· ∈ back)

end ModuleGraph.Graph
