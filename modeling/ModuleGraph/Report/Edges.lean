import ModuleGraph.Extraction
import ModuleGraph.Json.Printer
import ModuleGraph.Report.Format

/-!
# The edges of a project

One row for each edge of each file, with the file as it is named from the directory of the
project.
-/

namespace ModuleGraph.Report

/-- A path as it is named from `root`, or in full if it does not lie there. -/
def named (root p : Path) : String := ((root.below? p).getD p).text

/-- Which edges are shown, and how. -/
structure EdgeView where
  /-- The extension with which targets are shown as they are emitted. -/
  emitted : Option String
  /-- Edges that are erased with the types are not shown. -/
  runtimeOnly : Bool
deriving DecidableEq, Inhabited, Repr

/-- What is shown of an edge. -/
structure EdgeRow where
  file : String
  target : String
  kind : String
  typeOnly : Bool
  isAsset : Bool
deriving DecidableEq, Inhabited, Repr

namespace EdgeRow

/-- The row of an edge. -/
def ofEdge (root : Path) (view : EdgeView) (e : Edge) : EdgeRow :=
  { file := named root e.file
    target := view.emitted.elim e.specifier.path e.specifier.emitted
    kind := e.kind.name
    typeOnly := e.typeOnly
    isAsset := e.isAsset }

/-- The rows of all files. -/
def ofFiles (root : Path) (view : EdgeView) (files : List Extraction) : List EdgeRow :=
  ((files.flatMap (·.edges)).filter fun e => !(view.runtimeOnly && e.typeOnly)).map
    (ofEdge root view)

/-- The marks of a row. -/
def marks (r : EdgeRow) : List String :=
  (if r.typeOnly then ["type"] else []) ++ if r.isAsset then ["asset"] else []

/-- The row as a line. -/
def line (r : EdgeRow) : String :=
  r.file ++ " -> " ++ r.target ++ " " ++ r.kind ++ String.join (r.marks.map (" " ++ ·))

/-- The row as a JSON value. -/
def toJson (r : EdgeRow) : Json :=
  .object
    [("file", .string r.file), ("target", .string r.target), ("kind", .string r.kind),
     ("type_only", .bool r.typeOnly), ("is_asset", .bool r.isAsset)]

end EdgeRow

/-- Four cells in columns; the last one is as wide as it is. -/
def columns (fileWidth targetWidth : Nat) (file target kind marks : String) : String :=
  padded fileWidth file ++ "  " ++ padded targetWidth target ++ "  " ++ padded 18 kind ++ "  " ++
    marks

/-- The width of a column: that of its widest cell in bytes, and at least that of its title. -/
def widthOf (title : String) (cells : List String) : Nat :=
  (cells.map String.utf8ByteSize).foldl max title.length

/-- The rows in columns under their titles. -/
def edgeTable (rows : List EdgeRow) : String :=
  let fileWidth := widthOf "FILE" (rows.map (·.file))
  let targetWidth := widthOf "TARGET" (rows.map (·.target))
  lines <|
    columns fileWidth targetWidth "FILE" "TARGET" "KIND" "FLAGS" ::
      String.ofList (List.replicate (fileWidth + targetWidth + 30) '-') ::
      rows.map fun r =>
        columns fileWidth targetWidth r.file r.target r.kind (",".intercalate r.marks)

/-- The report on the edges of files. -/
def edges (format : Format) (view : EdgeView) (root : Path) (files : List Extraction) :
    String :=
  let rows := EdgeRow.ofFiles root view files
  match format with
  | .compact =>
    lines <|
      rows.map EdgeRow.line ++
        [toString rows.length ++ " edges in " ++ toString files.length ++ " files"]
  | .table => edgeTable rows
  | .json => lines [(Json.ofList EdgeRow.toJson rows).render]

end ModuleGraph.Report
