import ModuleGraph.Analysis
import ModuleGraph.CommandLine.Arguments
import ModuleGraph.Report.Cycles
import ModuleGraph.Report.Inspection
import ModuleGraph.Report.Statistics

/-!
# Carrying out commands

What the program writes and with which code it ends. It ends with 1 if a project cannot be
analysed, and with 2, without a word about projects, if its arguments are not fit.
-/

namespace ModuleGraph.CommandLine

/-- The end of a run. -/
structure Output where
  code : Nat
  stdout : String
  stderr : String
deriving DecidableEq, Inhabited, Repr

namespace Output

/-- A run that succeeds. -/
def success (stdout : String) : Output := ⟨0, stdout, ""⟩

/-- A run that fails. -/
def failure (message : String) : Output := ⟨1, "", "Error: " ++ message ++ "\n"⟩

end Output

/-- The name and number of the program as it carries out a verb. -/
def versionLine (verb : Option Verb) : String :=
  "modgraph" ++ verb.elim "" (fun v => "-" ++ v.name) ++ " 0.1.0\n"

/-- What is made of the project under a path. -/
def onProject (d : Disk) (path : Path) (report : Analysis → Output) : Output :=
  match Analysis.ofPath d (path.absolute d.workingDirectory) with
  | .error fault => .failure fault.message
  | .ok a => report a

/-- All that is known about the file, as a report. -/
def inspection (d : Disk) (file : Path) : Output :=
  if d.isFile file then
    let table := (Analysis.settingsIn d (Analysis.rootOf d file)).table
    match Analysis.extraction d table file with
    | .error fault => .failure fault.message
    | .ok none => .failure ("could not read or parse " ++ file.text)
    | .ok (some x) => .success (Report.lines [x.toJson.render])
  else .failure (file.text ++ " is not a file")

/-- Carries out a command. -/
def Command.run (d : Disk) : Command → Output
  | .edges path view format =>
    onProject d path fun a => .success (Report.edges format view a.root a.files)
  | .inspect file => inspection d file
  | .circular path format =>
    onProject d path fun a => .success (Report.cycles format a.root (a.graph d).cycles)
  | .stats path format =>
    onProject d path fun a =>
      let s := Stats.of a.files (a.graph d) a.skipped
      ⟨0, Report.stats format s, Report.skippedNotice format s⟩

/-- Does what the arguments ask for. -/
def Invocation.output (d : Disk) : Invocation → Output
  | .run c => c.run d
  | .version verb => .success (versionLine verb)
  | .help => .success ""
  | .misuse => ⟨2, "", ""⟩

/-- Runs the program. -/
def run (d : Disk) (arguments : List String) : Output :=
  (Invocation.ofArguments arguments).output d

end ModuleGraph.CommandLine
