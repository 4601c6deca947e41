import ModuleGraph.Edge.Basic
import ModuleGraph.Specifier.Normalize

/-!
# The dependencies of one file

All that is extracted from a file: its records in source order, its edges, and the CommonJS
globals it uses.

## Implementation notes

An import is visible in the whole file, so exports look for the origin of a name among all
imports, also those after them.
-/

namespace ModuleGraph

/-- What is known about a file once its items are read. -/
structure Extraction where
  file : Path
  records : List Record
  edges : List Edge
  globals : List Global
deriving Inhabited, Repr

/-- The record of an import. -/
def ImportRecord.ofDeclaration (file : Path) (table : Extension.Table)
    (d : ImportDeclaration) : ImportRecord :=
  { raw := d.source
    specifier := Specifier.normalize d.source file table
    bindings := d.bindings
    dynamic := d.dynamic
    sideEffectOnly := !d.dynamic && d.bindings.isNothing
    typeOnly := d.typeOnly }

/-- The record of a declaration, in a file with the given imports. -/
def Record.ofDeclaration (file : Path) (table : Extension.Table)
    (imports : List ImportRecord) : Declaration → Record
  | .importing d => .importing (.ofDeclaration file table d)
  | .exporting d =>
    .exporting <|
      .ofDeclaration d (d.source.map fun s => Specifier.normalize s file table) imports

/-- The records of declarations, one for each. -/
def Record.ofDeclarations (file : Path) (table : Extension.Table)
    (ds : List Declaration) : List Record :=
  let imports := (ds.filterMap (·.import?)).map (.ofDeclaration file table)
  ds.map (.ofDeclaration file table imports)

namespace Extraction

/-- What the items of `file` say. -/
def ofItems (file : Path) (items : List Item) (table : Extension.Table) :
    Except RecordFault Extraction :=
  let records := Record.ofDeclarations file table (Declaration.ofItems items)
  (Edge.ofRecords file records table).map fun edges =>
    { file, records, edges, globals := Global.ofItems items }

/-- The imports of the file. -/
def imports (x : Extraction) : List ImportRecord := x.records.filterMap (·.import?)

/-- The exports of the file. -/
def exports (x : Extraction) : List ExportRecord := x.records.filterMap (·.export?)

/-- The targets of the file's edges, each once. -/
def targets (x : Extraction) : List String := (x.edges.map (·.specifier.path)).eraseDups

end Extraction

end ModuleGraph
