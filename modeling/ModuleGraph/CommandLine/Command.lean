import ModuleGraph.Report.Edges

/-!
# Commands

What the program can be asked to do: to list the edges of files, to show all that is known
about one file, to find circular dependencies, and to count.
-/

namespace ModuleGraph.CommandLine

/-- The word for a command. -/
inductive Verb
  | edges
  | inspect
  | circular
  | stats
deriving DecidableEq, Inhabited, Repr

/-- The verb as it is written. -/
def Verb.name : Verb → String
  | .edges => "edges"
  | .inspect => "inspect"
  | .circular => "circular"
  | .stats => "stats"

/-- Every verb. -/
def Verb.all : List Verb := [.edges, .inspect, .circular, .stats]

/-- The verb that is written so. -/
def Verb.ofName? (s : String) : Option Verb := all.find? (·.name == s)

theorem Verb.ofName?_name (v : Verb) : ofName? v.name = some v := by
  cases v <;> decide

/-- A command with all that it needs. -/
inductive Command
  | edges (path : Path) (view : Report.EdgeView) (format : Report.Format)
  | inspect (file : Path)
  | circular (path : Path) (format : Report.Format)
  | stats (path : Path) (format : Report.Format)
deriving DecidableEq, Inhabited, Repr

/-- What a line of arguments asks for. -/
inductive Invocation
  | run (c : Command)
  /-- The version of the program, or of it as it carries out one verb. -/
  | version (verb : Option Verb)
  | help
  /-- The arguments are not fit for any command. -/
  | misuse
deriving DecidableEq, Inhabited, Repr

end ModuleGraph.CommandLine
