import ModuleGraph.Syntax.Finding

/-!
# Import and export declarations

The items of a module as one list of imports and exports in source order. Every import item
and every export item gives one declaration, and every `import()` call with a written target
gives one where its statement stands.
-/

namespace ModuleGraph

/-- What an import binds in its file. -/
inductive Bindings
  | nothing
  | byDefault (name : String)
  | entries (list : List ImportEntry)
  | whole (name : String)
  | defaultAndEntries (name : String) (list : List ImportEntry)
  | defaultAndWhole (name whole : String)
deriving DecidableEq, Inhabited, Repr

/-- An import whose target is still as written. -/
structure ImportDeclaration where
  source : String
  bindings : Bindings
  dynamic : Bool
  typeOnly : Bool
deriving DecidableEq, Inhabited, Repr

/-- What an export names. -/
inductive ExportShape
  | all
  | whole (asName : String)
  | entries (list : List ExportEntry)
  | declared (names : List String)
deriving DecidableEq, Inhabited, Repr

/-- An export whose target, if it has one, is still as written. -/
structure ExportDeclaration where
  source : Option String
  shape : ExportShape
  typeOnly : Bool
deriving DecidableEq, Inhabited, Repr

/-- One import or export of a module. -/
inductive Declaration
  | importing (d : ImportDeclaration)
  | exporting (d : ExportDeclaration)
deriving DecidableEq, Inhabited, Repr

namespace Bindings

/-- The bindings of an import item with these names. A name for the whole module leaves no
room for entries. -/
def ofNames (defaultName wholeName : Option String) (list : List ImportEntry) : Bindings :=
  match defaultName, wholeName with
  | none, none => if list.isEmpty then .nothing else .entries list
  | some d, none => if list.isEmpty then .byDefault d else .defaultAndEntries d list
  | none, some w => .whole w
  | some d, some w => .defaultAndWhole d w

/-- Nothing is bound. -/
def isNothing : Bindings → Bool
  | .nothing => true
  | _ => false

/-- The bindings are entries, and each of them is of a type. -/
def allTypes : Bindings → Bool
  | .entries list => !list.isEmpty && list.all (·.typeOnly)
  | _ => false

end Bindings

/-- The entries of an import item; in a type import every entry is of a type. -/
def ImportItem.marked (item : ImportItem) : List ImportEntry :=
  item.entries.map fun e => { e with typeOnly := item.typeOnly || e.typeOnly }

namespace Declaration

/-- The declaration of an import item. It is erased with the types if it is marked so or if
each of its bindings is. -/
def ofImport (item : ImportItem) : Declaration :=
  let bindings := Bindings.ofNames item.defaultName item.wholeName item.marked
  .importing
    { source := item.source, bindings, dynamic := false,
      typeOnly := item.typeOnly || bindings.allTypes }

/-- The declaration of an `import()` call. It binds nothing and is needed at run time. -/
def ofCall (target : String) : Declaration :=
  .importing { source := target, bindings := .nothing, dynamic := true, typeOnly := false }

/-- The declaration of an export item, apart from calls in what it declares. -/
def ofExport : ExportItem → Declaration
  | .all source asName typeOnly =>
    .exporting { source := some source, shape := asName.elim .all .whole, typeOnly }
  | .named source entries typeOnly => .exporting { source, shape := .entries entries, typeOnly }
  | .declaration names typeOnly _ =>
    .exporting { source := none, shape := .declared names, typeOnly }

/-- The targets of the `import()` calls among the findings. -/
def targets (found : List Finding) : List String :=
  found.filterMap fun
    | .importCall target => some target
    | .global _ => none

/-- The declarations of the `import()` calls in statements. -/
def ofStatements (body : List Statement) : List Declaration :=
  (targets (Search.run (body.map .statement))).map ofCall

/-- The declarations of one item. -/
def ofItem : Item → List Declaration
  | .importing item => [ofImport item]
  | .exporting item =>
    ofExport item ::
      match item with
      | .declaration _ _ body => ofStatements body
      | _ => []
  | .statement s => ofStatements [s]

/-- The declarations of a module in source order. -/
def ofItems (items : List Item) : List Declaration := items.flatMap ofItem

/-- The declaration as an import. -/
def import? : Declaration → Option ImportDeclaration
  | .importing d => some d
  | .exporting _ => none

end Declaration

/-- The statements of an item in which CommonJS globals count: import declarations and lists
of exports have none. -/
def Item.searched : Item → List Statement
  | .importing _ => []
  | .exporting (.declaration _ _ body) => body
  | .exporting _ => []
  | .statement s => [s]

namespace Global

/-- The globals among the findings. -/
def among (found : List Finding) : List Global :=
  found.filterMap fun
    | .global g => some g
    | .importCall _ => none

/-- Adds `g` at the end unless it is there. -/
def record (seen : List Global) (g : Global) : List Global :=
  if g ∈ seen then seen else seen ++ [g]

/-- The CommonJS globals of a module, each once, in the order of their first use. -/
def ofItems (items : List Item) : List Global :=
  (items.flatMap fun item => among (Search.run (item.searched.map .statement))).foldl record []

end Global

end ModuleGraph
