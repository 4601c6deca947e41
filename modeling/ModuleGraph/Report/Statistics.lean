import ModuleGraph.Graph.Stats
import ModuleGraph.Json.Printer
import ModuleGraph.Report.Format

/-!
# The statistics of a project

The counts as lines, as a table in sections, or as a JSON value.
-/

namespace ModuleGraph

/-- The counts as a JSON value. -/
def Stats.toJson (s : Stats) : Json :=
  .object
    [("file_count", .ofNat s.files), ("import_records", .ofNat s.importRecords),
     ("export_records", .ofNat s.exportRecords), ("exported_names", .ofNat s.exportedNames),
     ("edge_count", .ofNat s.edges),
     ("edges_by_kind", .object (s.edgesByKind.map fun k => (k.1.name, .ofNat k.2))),
     ("type_only_edges", .ofNat s.typeOnlyEdges), ("asset_edges", .ofNat s.assetEdges),
     ("resolved_files", .ofNat s.resolvedFiles), ("packages", .ofNat s.packages),
     ("assets", .ofNat s.assets), ("unresolved", .ofNat s.unresolved),
     ("cycles", .ofNat s.cycles), ("commonjs_files", .ofNat s.commonJSFiles),
     ("skipped", .ofNat s.skipped)]

namespace Report

/-- A name and a count with a blank between them. -/
def counted (name : String) (n : Nat) : String := name ++ " " ++ toString n

/-- Several names and counts on one line. -/
def countedLine (counts : List (String × Nat)) : String :=
  " ".intercalate (counts.map fun c => counted c.1 c.2)

/-- The counts on short lines. -/
def statsLines (s : Stats) : List String :=
  [countedLine [("files", s.files)],
   countedLine
    [("imports", s.importRecords), ("exports", s.exportRecords),
     ("exported_names", s.exportedNames)],
   counted "edges" s.edges ++ " (" ++
    ", ".intercalate (s.edgesByKind.map fun k => counted k.1.name k.2) ++ ")",
   countedLine [("type_only", s.typeOnlyEdges), ("asset", s.assetEdges)],
   countedLine
    [("resolved", s.resolvedFiles), ("packages", s.packages), ("assets", s.assets),
     ("unresolved", s.unresolved)],
   countedLine [("cycles", s.cycles), ("commonjs", s.commonJSFiles)]]

/-- A count under its name in a column of that width. -/
def cell (width : Nat) (name : String) (n : Nat) : String := padded width name ++ toString n

/-- The counts in sections. -/
def statsSections (s : Stats) : List String :=
  ["=== Project Overview ===",
   cell 10 "Files:" s.files,
   cell 10 "Imports:" s.importRecords,
   cell 10 "Exports:" s.exportRecords,
   cell 10 "Exported:" s.exportedNames,
   cell 10 "CommonJS:" s.commonJSFiles,
   "",
   "--- Edges ---"] ++
  s.edgesByKind.map (fun k => "  " ++ cell 20 k.1.name k.2) ++
  ["  " ++ cell 20 "total" s.edges,
   "  " ++ cell 20 "type-only" s.typeOnlyEdges,
   "  " ++ cell 20 "asset" s.assetEdges,
   "",
   "--- Resolution ---",
   "  " ++ cell 14 "Local files:" s.resolvedFiles,
   "  " ++ cell 14 "Packages:" s.packages,
   "  " ++ cell 14 "Assets:" s.assets,
   "  " ++ cell 14 "Unresolved:" s.unresolved,
   "  " ++ cell 14 "Cycles:" s.cycles]

/-- The report on the counts. -/
def stats (format : Format) (s : Stats) : String :=
  match format with
  | .compact => lines (statsLines s)
  | .table => lines (statsSections s)
  | .json => lines [s.toJson.render]

/-- The notice that files were skipped, which the JSON value needs not. -/
def skippedNotice (format : Format) (s : Stats) : String :=
  if format = .json || s.skipped = 0 then ""
  else lines [toString s.skipped ++ " files skipped (read or parse errors)"]

end Report

end ModuleGraph
