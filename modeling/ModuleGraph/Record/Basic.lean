import ModuleGraph.Declaration.Basic
import ModuleGraph.Specifier.Basic

/-!
# Import and export records

The imports and exports of a file with their targets in canonical spelling, and what they say
about names: which names an import binds in the file, and which names an export offers.
-/

namespace ModuleGraph

/-- What a local name stands for in the module it is imported from. -/
inductive ImportedName
  | byDefault
  | whole
  | named (name : String)
deriving DecidableEq, Inhabited, Repr

/-- A name an import introduces in its file. -/
structure LocalBinding where
  localName : String
  imported : ImportedName
  typeOnly : Bool
deriving DecidableEq, Inhabited, Repr

/-- An import and its target. -/
structure ImportRecord where
  raw : String
  specifier : Specifier
  bindings : Bindings
  dynamic : Bool
  sideEffectOnly : Bool
  typeOnly : Bool
deriving DecidableEq, Inhabited, Repr

/-- Where an exported name of this file was imported from. -/
structure Origin where
  specifier : Specifier
  imported : ImportedName
deriving DecidableEq, Inhabited, Repr

/-- One name of an export list. -/
structure ExportBinding where
  exported : String
  localName : String
  typeOnly : Bool
  origin : Option Origin
deriving DecidableEq, Inhabited, Repr

/-- The form of an export. -/
inductive ExportForm
  | all
  | whole (asName : String)
  | entries (list : List ExportBinding)
  | nothing
  | declared (names : List String)
deriving DecidableEq, Inhabited, Repr

/-- An export and its target, if it has one. -/
structure ExportRecord where
  specifier : Option Specifier
  form : ExportForm
  typeOnly : Bool
deriving DecidableEq, Inhabited, Repr

/-- One import or export of a file. -/
inductive Record
  | importing (r : ImportRecord)
  | exporting (r : ExportRecord)
deriving DecidableEq, Inhabited, Repr

/-- The binding of one entry of an import list. -/
def LocalBinding.ofEntry (e : ImportEntry) : LocalBinding :=
  ⟨e.localName, .named e.imported, e.typeOnly⟩

/-- The names that bindings introduce, in the order in which they are written. -/
def Bindings.locals : Bindings → List LocalBinding
  | .nothing => []
  | .byDefault name => [⟨name, .byDefault, false⟩]
  | .entries list => list.map .ofEntry
  | .whole name => [⟨name, .whole, false⟩]
  | .defaultAndEntries name list => ⟨name, .byDefault, false⟩ :: list.map .ofEntry
  | .defaultAndWhole name ns => [⟨name, .byDefault, false⟩, ⟨ns, .whole, false⟩]

/-- The names an import introduces in its file. A call of `import()` has a value and
introduces none. -/
def ImportRecord.locals (r : ImportRecord) : List LocalBinding :=
  if r.dynamic then [] else r.bindings.locals

/-- The name of a form in reports and messages. -/
def ExportForm.name : ExportForm → String
  | .all => "reexport_all"
  | .whole _ => "reexport_all_as_namespace"
  | .entries _ => "reexport_named"
  | .nothing => "reexport_empty"
  | .declared _ => "declaration"

/-- The names an export offers. `export *` offers names that only its target knows. -/
def ExportForm.exportedNames : ExportForm → List String
  | .all => []
  | .whole asName => [asName]
  | .entries list => list.map (·.exported)
  | .nothing => []
  | .declared names => names

/-- The origin of a local name: the first import that introduces it. -/
def Origin.find (localName : String) (imports : List ImportRecord) : Option Origin :=
  imports.findSome? fun r =>
    (r.locals.find? (·.localName = localName)).map fun b => ⟨r.specifier, b.imported⟩

/-- The binding of one entry of an export list. Only a list without a target has origins. -/
def ExportBinding.ofEntry (typeOnly targeted : Bool) (imports : List ImportRecord)
    (e : ExportEntry) : ExportBinding :=
  { exported := e.exported
    localName := e.localName
    typeOnly := typeOnly || e.typeOnly
    origin := if targeted then none else Origin.find e.localName imports }

/-- The record of an export with the given target, in a file with the given imports. A list
is erased with the types if it is marked so or if each of its entries is. -/
def ExportRecord.ofDeclaration (d : ExportDeclaration) (specifier : Option Specifier)
    (imports : List ImportRecord) : ExportRecord :=
  match d.shape with
  | .all => ⟨specifier, .all, d.typeOnly⟩
  | .whole asName => ⟨specifier, .whole asName, d.typeOnly⟩
  | .entries list =>
    if list.isEmpty && specifier.isSome then ⟨specifier, .nothing, d.typeOnly⟩
    else
      let bindings := list.map (.ofEntry d.typeOnly specifier.isSome imports)
      ⟨specifier, .entries bindings,
        d.typeOnly || (!bindings.isEmpty && bindings.all (·.typeOnly))⟩
  | .declared names => ⟨specifier, .declared names, d.typeOnly⟩

/-- The record as an import. -/
def Record.import? : Record → Option ImportRecord
  | .importing r => some r
  | .exporting _ => none

/-- The record as an export. -/
def Record.export? : Record → Option ExportRecord
  | .importing _ => none
  | .exporting r => some r

end ModuleGraph
