import ModuleGraph.Discovery
import ModuleGraph.Graph.Stats
import ModuleGraph.Resolution.Resolver

/-!
# Analysis of a project

The extractions of all source files under a path, with the settings at the root of the
project. A file that cannot be read or parsed is passed over and counted.
-/

namespace ModuleGraph

/-- Why a project or a file of it cannot be analysed. -/
inductive AnalysisFault
  | discovery (fault : DiscoveryFault)
  /-- The records of a file are impossible. -/
  | records (file : Path) (fault : RecordFault)
deriving DecidableEq, Inhabited, Repr

/-- The fault in words, with its cause below it. -/
def AnalysisFault.message : AnalysisFault → String
  | .discovery fault => fault.message
  | .records file fault =>
    "failed to extract " ++ file.text ++ "\n\nCaused by:\n    " ++ fault.message file

/-- All that is known about the files of a project. -/
structure Analysis where
  /-- The directory of the project. -/
  root : Path
  table : Extension.Table
  files : List Extraction
  /-- How many files could not be read or parsed. -/
  skipped : Nat
deriving Inhabited

namespace Analysis

/-- The directory whose settings hold for a path: the path, or the directory of a file. -/
def rootOf (d : Disk) (p : Path) : Path := if d.isFile p then p.directory else p

/-- The settings in a directory. -/
def settingsIn (d : Disk) (root : Path) : Settings :=
  ((d.read? (root.join ⟨Settings.fileName⟩)).map fun c => Settings.ofBytes c.bytes).getD .none

/-- The items of a file, none if it cannot be read or parsed. -/
def itemsOf? (d : Disk) (file : Path) : Option (List Item) :=
  (d.read? file).bind fun c =>
    c.tree.bind fun tree => (Source.parse file ⟨c.bytes, tree⟩).toOption

/-- The extraction of a file, none if it cannot be read or parsed. -/
def extraction (d : Disk) (table : Extension.Table) (file : Path) :
    Except AnalysisFault (Option Extraction) :=
  match itemsOf? d file with
  | none => .ok none
  | some items =>
    match Extraction.ofItems file items table with
    | .error fault => .error (.records file fault)
    | .ok x => .ok (some x)

/-- The analysis of the files under an absolute path. -/
def ofPath (d : Disk) (path : Path) : Except AnalysisFault Analysis :=
  let root := rootOf d path
  let settings := settingsIn d root
  match Discovery.sources d path settings with
  | .error fault => .error (.discovery fault)
  | .ok paths =>
    (paths.mapM (extraction d settings.table)).map fun found =>
      let files := found.filterMap id
      { root, table := settings.table, files, skipped := found.length - files.length }

/-- How specifiers are resolved in the project. -/
def project (a : Analysis) (d : Disk) : Resolution.Project :=
  Resolution.Project.ofRoot d a.root a.table

/-- The graph of the project. -/
def graph (a : Analysis) (d : Disk) : Graph :=
  Graph.ofExtractions a.files a.table (a.project d).resolve

end Analysis

end ModuleGraph
