import ModuleGraph.Path.Basic
import ModuleGraph.Record.Basic

/-!
# Dependency edges of a file

Each record of a file depends on its target in one of six ways. Records that agree on target
and way are one edge, which stands where the first of them stands and is type-only when all
of them are.

## Implementation notes

A record of an impossible form is a fault of whoever made the records. The first such record
of a list decides, so the contributions are collected before any edge is made.
-/

namespace ModuleGraph

/-- How a file depends on a target. -/
inductive EdgeKind
  | staticImport
  | dynamicImport
  | reexportAll
  | reexportNamed
  | reexportNamespace
  | sideEffect
deriving DecidableEq, Inhabited, Repr

namespace EdgeKind

/-- The name of a kind in reports. -/
def name : EdgeKind → String
  | .staticImport => "static_import"
  | .dynamicImport => "dynamic_import"
  | .reexportAll => "reexport_all"
  | .reexportNamed => "reexport_named"
  | .reexportNamespace => "reexport_namespace"
  | .sideEffect => "side_effect"

/-- Every kind, in the alphabetic order of the names. -/
def all : List EdgeKind :=
  [.dynamicImport, .reexportAll, .reexportNamed, .reexportNamespace, .sideEffect, .staticImport]

theorem mem_all (k : EdgeKind) : k ∈ all := by cases k <;> decide

end EdgeKind

/-- A dependency of a file on a target. -/
structure Edge where
  file : Path
  specifier : Specifier
  kind : EdgeKind
  typeOnly : Bool
  isAsset : Bool
deriving DecidableEq, Inhabited, Repr

/-- What makes a list of records impossible. -/
inductive RecordFault
  /-- A form that needs a target has none. -/
  | missingTarget (form : String)
  /-- A declaration has a target. -/
  | unexpectedTarget (target : String)
deriving DecidableEq, Inhabited, Repr

/-- The fault of a file in words. -/
def RecordFault.message (file : Path) : RecordFault → String
  | .missingTarget form => form ++ " export in " ++ file.text ++ " has no module specifier"
  | .unexpectedTarget target =>
    "declaration export in " ++ file.text ++ " carries module specifier '" ++ target ++ "'"

/-- What one record adds to the edges of its file. -/
structure Contribution where
  specifier : Specifier
  kind : EdgeKind
  typeOnly : Bool
deriving DecidableEq, Inhabited, Repr

/-- The kind of edge an import makes. -/
def ImportRecord.edgeKind (r : ImportRecord) : EdgeKind :=
  if r.dynamic then .dynamicImport else if r.sideEffectOnly then .sideEffect else .staticImport

/-- The kind of edge an export with a target makes; a declaration makes none. -/
def ExportForm.edgeKind? : ExportForm → Option EdgeKind
  | .all => some .reexportAll
  | .whole _ => some .reexportNamespace
  | .entries _ => some .reexportNamed
  | .nothing => some .reexportNamed
  | .declared _ => none

/-- The form may do without a target: lists of local names and declarations. -/
def ExportForm.isLocal : ExportForm → Bool
  | .entries _ => true
  | .declared _ => true
  | _ => false

/-- What a record adds, nothing for exports of the file's own names. -/
def Record.contribution : Record → Except RecordFault (Option Contribution)
  | .importing r => .ok (some ⟨r.specifier, r.edgeKind, r.typeOnly⟩)
  | .exporting r =>
    match r.form.edgeKind?, r.specifier with
    | some kind, some s => .ok (some ⟨s, kind, r.typeOnly⟩)
    | none, some s => .error (.unexpectedTarget s.path)
    | _, none => if r.form.isLocal then .ok none else .error (.missingTarget r.form.name)

/-- What the records add, in order, unless one of them is impossible. -/
def Contribution.ofRecords : List Record → Except RecordFault (List Contribution)
  | [] => .ok []
  | r :: rest =>
    match r.contribution with
    | .error fault => .error fault
    | .ok added =>
      match ofRecords rest with
      | .error fault => .error fault
      | .ok more => .ok (added.toList ++ more)

/-- Two contributions that make one edge: the same target in the same way. -/
def Contribution.meets (a b : Contribution) : Bool :=
  a.specifier.path == b.specifier.path && a.kind == b.kind

/-- Adds `c` to the contributions that meet no other: the one it meets is type-only as long
as both are, and otherwise it comes last. -/
def Contribution.add (pending : List Contribution) (c : Contribution) : List Contribution :=
  if pending.any (·.meets c) then
    pending.map fun p => if p.meets c then { p with typeOnly := p.typeOnly && c.typeOnly } else p
  else pending ++ [c]

/-- The contributions with those that meet made one. -/
def Contribution.merge (cs : List Contribution) : List Contribution := cs.foldl add []

namespace Edge

/-- The edge of a file that a contribution makes. -/
def ofContribution (file : Path) (table : Extension.Table) (c : Contribution) : Edge :=
  { file, specifier := c.specifier, kind := c.kind, typeOnly := c.typeOnly,
    isAsset := c.specifier.isAsset table }

/-- The edges of a file with these records. -/
def ofRecords (file : Path) (records : List Record) (table : Extension.Table) :
    Except RecordFault (List Edge) :=
  (Contribution.ofRecords records).map fun cs =>
    (Contribution.merge cs).map (ofContribution file table)

end Edge

end ModuleGraph
