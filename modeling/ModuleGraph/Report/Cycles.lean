import ModuleGraph.Graph.Cycle
import ModuleGraph.Report.Edges

/-!
# The circular dependencies of a project

Each cycle with its files as they are named from the directory of the project. In columns the
file at which a cycle closes is not repeated.
-/

namespace ModuleGraph.Report

/-- The files of a cycle as they are named from `root`. -/
def cycleNames (root : Path) (c : Cycle) : List String := c.files.map (named root)

/-- How many cycles there are, in words. -/
def cycleCount (cycles : List Cycle) : String := toString cycles.length ++ " cycles found"

/-- A cycle, the `n`th from one on, on lines of its own. -/
def cycleBlock (root : Path) (c : Cycle) (n : Nat) : List String :=
  ["=== Cycle " ++ toString n ++ " ==="] ++
    (cycleNames root c).dropLast.map ("  " ++ ·) ++ [""]

/-- The report on circular dependencies. -/
def cycles (format : Format) (root : Path) (cs : List Cycle) : String :=
  match format with
  | .compact =>
    lines <|
      cs.map (fun c => "cycle " ++ " -> ".intercalate (cycleNames root c)) ++ [cycleCount cs]
  | .table =>
    lines <| ((cs.zipIdx 1).flatMap fun c => cycleBlock root c.1 c.2) ++ [cycleCount cs]
  | .json =>
    lines
      [(Json.ofList
        (fun c => .object [("files", .ofList Json.string (cycleNames root c))]) cs).render]

end ModuleGraph.Report
