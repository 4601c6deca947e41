import ModuleGraph.Source.Pattern
import ModuleGraph.Source.Scan
import ModuleGraph.Text.Alphanumeric
import ModuleGraph.Text.Split

/-!
# From syntax trees to module items

Imports and exports keep all that matters for dependencies; every other statement keeps the
calls and globals in it. Trees of texts with errors are read as far as they go.

## Implementation notes

The TypeScript grammar has no rule for `export type *`, so that its modifier and its star may
land in an error node. The text of the statement is then read instead of its tree.
-/

namespace ModuleGraph.Source

/-- The entry of an import list. -/
def importEntryOf? (bytes : ByteArray) (t : Tree) : Option ImportEntry :=
  (t.child? .name).map fun name =>
    let imported := nameOf bytes name
    { imported
      localName := (t.child? .asName).elim imported (textOf bytes)
      typeOnly := t.hasToken "type" }

/-- Reads one part of an import clause into the item. -/
def addClausePart (bytes : ByteArray) (item : ImportItem) (t : Tree) : ImportItem :=
  match t.kind with
  | "identifier" => { item with defaultName := some (textOf bytes t) }
  | "namespace_import" =>
    { item with wholeName := (t.childOfKind? "identifier").map (textOf bytes) }
  | "named_imports" =>
    { item with
      entries := item.entries ++
        (t.proper.filter (·.kind == "import_specifier")).filterMap (importEntryOf? bytes) }
  | _ => item

/-- Reads one part of `name = require('source')` into the item. -/
def addRequirePart (bytes : ByteArray) (item : ImportItem) (t : Tree) : ImportItem :=
  match t.kind with
  | "identifier" => { item with defaultName := some (textOf bytes t) }
  | "string" => { item with source := (literal? bytes t).getD "" }
  | _ => item

/-- Reads one part of an import statement into the item. -/
def addImportPart (bytes : ByteArray) (item : ImportItem) (t : Tree) : ImportItem :=
  match t.kind with
  | "import_clause" => t.proper.foldl (addClausePart bytes) item
  | "import_require_clause" => t.proper.foldl (addRequirePart bytes) item
  | _ => item

/-- The item of an import statement. -/
def importItem (bytes : ByteArray) (t : Tree) : ImportItem :=
  t.proper.foldl (addImportPart bytes)
    { source := ((t.child? .source).bind (literal? bytes)).getD ""
      typeOnly := t.hasToken "type"
      defaultName := none
      wholeName := none
      entries := [] }

/-- The statement text begins with `export type` as two words, or with a star or a brace
right after them. -/
def beginsWithTypeExport (text : String) : Bool :=
  ((Text.afterPrefix? "export" text).bind fun rest =>
    Text.afterPrefix? "type" (String.ofList (Text.skipBlanks rest.toList))).any fun rest =>
      rest.toList.head?.any fun c => Text.isBlank c || c == '*' || c == '{'

/-- The export is marked as one of types. -/
def isTypeExport (bytes : ByteArray) (t : Tree) : Bool :=
  t.hasToken "type" || beginsWithTypeExport (textOf bytes t)

/-- A character of a name. -/
def isNameChar (c : Char) : Bool := Text.isAlphanumeric c || c == '_' || c == '$'

/-- The name after `* as` in the text of a statement. -/
def starAlias? (text : String) : Option String :=
  (Text.cutFirst '*' text).bind fun (_, afterStar) =>
    (Text.afterPrefix? "as" (String.ofList (Text.skipBlanks afterStar.toList))).bind fun rest =>
      if rest.toList.head?.any Text.isBlank then
        let name := (Text.skipBlanks rest.toList).takeWhile isNameChar
        if name.isEmpty then none else some (String.ofList name)
      else none

/-- A star stands in an error node of a statement that exports nothing else. -/
def hasStrayStar (bytes : ByteArray) (t : Tree) : Bool :=
  (t.child? .declaration).isNone && (t.childOfKind? "export_clause").isNone &&
    (t.proper.filter (·.kind == "ERROR")).any fun e => '*' ∈ (textOf bytes e).toList

/-- The statement exports everything of its source. -/
def isStarExport (bytes : ByteArray) (t : Tree) : Bool :=
  t.hasToken "*" || (t.childOfKind? "namespace_export").isSome || hasStrayStar bytes t

/-- The alias of a star export, from its tree or else from its text. -/
def exportAlias? (bytes : ByteArray) (t : Tree) : Option String :=
  (((t.childOfKind? "namespace_export").bind (·.proper.head?)).map (nameOf bytes)).or
    (starAlias? (textOf bytes t))

/-- The entry of an export list. -/
def exportEntryOf? (bytes : ByteArray) (t : Tree) : Option ExportEntry :=
  (t.child? .name).map fun name =>
    let localName := nameOf bytes name
    { localName
      exported := (t.child? .asName).elim localName (nameOf bytes)
      typeOnly := t.hasToken "type" }

/-- The declaration leaves nothing in the emitted code. -/
def isTypeDeclaration (t : Tree) : Bool :=
  t.kind == "interface_declaration" || t.kind == "type_alias_declaration" ||
    t.kind == "ambient_declaration"

/-- The names that the declarators of a variable declaration bind. -/
def variableNames (bytes : ByteArray) (children : List Tree) : List String :=
  ((children.filter fun d => d.isProper && d.kind == "variable_declarator").filterMap
    (·.child? .name)).flatMap (boundNames bytes)

mutual

/-- The names that a declaration declares. -/
def declaredNames (bytes : ByteArray) : Tree → List String
  | .node label children =>
    if label.kind = "lexical_declaration" || label.kind = "variable_declaration" then
      variableNames bytes children
    else if label.kind = "ambient_declaration" then declaredNamesOfList bytes children
    else (((Tree.node label children).child? .name).map (textOf bytes)).toList

/-- The names that the proper ones among these nodes declare. -/
def declaredNamesOfList (bytes : ByteArray) : List Tree → List String
  | [] => []
  | t :: rest =>
    (if t.isProper then declaredNames bytes t else []) ++ declaredNamesOfList bytes rest

end

/-- The item of an export statement. -/
def exportItem (bytes : ByteArray) (t : Tree) : Item :=
  let typeOnly := isTypeExport bytes t
  let source := (t.child? .source).bind (literal? bytes)
  if isStarExport bytes t then
    .exporting (.all (source.getD "") (exportAlias? bytes t) typeOnly)
  else
    match t.childOfKind? "export_clause" with
    | some clause =>
      let entries :=
        (clause.proper.filter (·.kind == "export_specifier")).filterMap (exportEntryOf? bytes)
      .exporting (.named source entries typeOnly)
    | none =>
      let declaration := t.child? .declaration
      if t.hasToken "default" then
        .exporting <|
          .declaration ["default"] (declaration.any isTypeDeclaration)
            ((declaration.or (t.child? .value)).map (statementOf bytes)).toList
      else
        match declaration with
        | some d =>
          .exporting <|
            .declaration (declaredNames bytes d) (isTypeDeclaration d) [statementOf bytes d]
        | none => .statement (statementOf bytes t)

/-- The item of a statement at the top level; a line for the shell is none. -/
def itemOf? (bytes : ByteArray) (t : Tree) : Option Item :=
  match t.kind with
  | "import_statement" => some (.importing (importItem bytes t))
  | "export_statement" => some (exportItem bytes t)
  | "hash_bang_line" => none
  | _ => some (.statement (statementOf bytes t))

/-- The items of a module. -/
def itemsOf (d : Document) : List Item := d.tree.proper.filterMap (itemOf? d.bytes)

end ModuleGraph.Source
