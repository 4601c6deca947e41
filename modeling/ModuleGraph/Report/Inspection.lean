import ModuleGraph.Extraction
import ModuleGraph.Json.Basic

/-!
# All that is known about one file

The extraction of a file as a JSON value: its records, its edges and the CommonJS globals it
uses. A member that would only say that something is missing is left out where its absence
says the same.
-/

namespace ModuleGraph

/-- The name of an anchor in reports. -/
def Anchor.name : Anchor → String
  | .bare => "bare"
  | .relative => "relative"
  | .ownDirectory => "self_dir"

/-- A specifier in a report. -/
def Specifier.toJson (s : Specifier) : Json :=
  .object
    [("kind", .string s.anchor.name),
     ("normalized_path", .string s.path),
     ("has_explicit_extension", .bool s.hasExtension)]

/-- An entry of an import list in a report. -/
def ImportEntry.toJson (e : ImportEntry) : Json :=
  .object
    [("imported", .string e.imported), ("local", .string e.localName),
     ("type_only", .bool e.typeOnly)]

/-- The name of a form of bindings, and what it binds. -/
def Bindings.described : Bindings → String × Option Json
  | .nothing => ("none", none)
  | .byDefault name => ("default", some (.string name))
  | .entries list => ("named", some (.ofList ImportEntry.toJson list))
  | .whole name => ("namespace", some (.string name))
  | .defaultAndEntries name list =>
    ("default_and_named", some (.array [.string name, .ofList ImportEntry.toJson list]))
  | .defaultAndWhole name asName =>
    ("default_and_namespace", some (.array [.string name, .string asName]))

/-- A form with its bindings; a form without any has no such member. -/
def formJson (form : String × Option Json) : Json :=
  .object (("form", .string form.1) :: form.2.toList.map ("bindings", ·))

/-- The bindings of an import in a report. -/
def Bindings.toJson (b : Bindings) : Json := formJson b.described

/-- What a local name stands for, in a report. -/
def ImportedName.toJson : ImportedName → Json
  | .byDefault => .object [("kind", .string "default")]
  | .whole => .object [("kind", .string "namespace")]
  | .named name => .object [("kind", .string "named"), ("name", .string name)]

/-- The origin of an exported name in a report. -/
def Origin.toJson (o : Origin) : Json :=
  .object [("specifier", o.specifier.toJson), ("imported", o.imported.toJson)]

/-- An entry of an export list in a report, with its origin if it has one. -/
def ExportBinding.toJson (b : ExportBinding) : Json :=
  .object <|
    [("exported", .string b.exported), ("local", .string b.localName),
     ("type_only", .bool b.typeOnly)] ++ b.origin.toList.map fun o => ("origin", o.toJson)

/-- What a form of exports offers, if it says so itself. -/
def ExportForm.offered? : ExportForm → Option Json
  | .all => none
  | .whole asName => some (.string asName)
  | .entries list => some (.ofList ExportBinding.toJson list)
  | .nothing => none
  | .declared names => some (.ofList .string names)

/-- The form of an export in a report. -/
def ExportForm.toJson (f : ExportForm) : Json := formJson (f.name, f.offered?)

/-- The members of an import in a report. -/
def ImportRecord.members (r : ImportRecord) : List (String × Json) :=
  [("raw_specifier", .string r.raw), ("specifier", r.specifier.toJson),
   ("bindings", r.bindings.toJson), ("dynamic", .bool r.dynamic),
   ("side_effect_only", .bool r.sideEffectOnly), ("type_only", .bool r.typeOnly)]

/-- The members of an export in a report. -/
def ExportRecord.members (r : ExportRecord) : List (String × Json) :=
  [("specifier", .ofOption Specifier.toJson r.specifier), ("form", r.form.toJson),
   ("type_only", .bool r.typeOnly)]

/-- An import or export in a report. -/
def Record.toJson : Record → Json
  | .importing r => .object (("record", .string "import") :: r.members)
  | .exporting r => .object (("record", .string "export") :: r.members)

/-- An edge in a report. -/
def Edge.toJson (e : Edge) : Json :=
  .object
    [("from_file", .string e.file.text), ("resolved_specifier", e.specifier.toJson),
     ("edge_kind", .string e.kind.name), ("type_only", .bool e.typeOnly),
     ("is_asset", .bool e.isAsset)]

/-- All that is known about a file, as a report. -/
def Extraction.toJson (x : Extraction) : Json :=
  .object <|
    [("file", .string x.file.text), ("records", .ofList Record.toJson x.records),
     ("edges", .ofList Edge.toJson x.edges)] ++
    if x.globals.isEmpty then []
    else [("commonjs", .ofList (fun g => .string g.name) x.globals)]

end ModuleGraph
