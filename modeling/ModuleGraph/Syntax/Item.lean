/-!
# Module items

What a module consists of, as far as its dependencies are concerned: imports, exports, and
statements of which only the nesting, the `import()` calls and the CommonJS globals are kept.
-/

namespace ModuleGraph

/-- The globals that exist in CommonJS modules only. -/
inductive Global
  | dirname
  | filename
  | require
  | requireResolve
  | requireCache
  | requireExtensions
deriving DecidableEq, Inhabited, Repr

/-- The global as it is written in source text. -/
def Global.source : Global → String
  | .dirname => "__dirname"
  | .filename => "__filename"
  | .require => "require()"
  | .requireResolve => "require.resolve()"
  | .requireCache => "require.cache"
  | .requireExtensions => "require.extensions"

/-- The name of the global in reports. -/
def Global.name : Global → String
  | .dirname => "dirname"
  | .filename => "filename"
  | .require => "require"
  | .requireResolve => "require_resolve"
  | .requireCache => "require_cache"
  | .requireExtensions => "require_extensions"

/-- One entry of `import { imported as localName }`. -/
structure ImportEntry where
  imported : String
  localName : String
  typeOnly : Bool
deriving DecidableEq, Inhabited, Repr

/-- One entry of `export { localName as exported }`. -/
structure ExportEntry where
  localName : String
  exported : String
  typeOnly : Bool
deriving DecidableEq, Inhabited, Repr

mutual

/-- A statement, reduced to its nesting. -/
inductive Statement
  | expression (e : Expression)
  | block (body : List Statement)
  | attempt (block handler finalizer : List Statement)
  /-- Anything else: the expressions it evaluates and the statements it contains. -/
  | other (body : List Statement) (expressions : List Expression)

/-- An expression, reduced to what matters for finding `import()` calls. -/
inductive Expression
  | importCall (source : Expression) (options : Option Expression)
  /-- A string, or a template without substitutions. -/
  | literal (value : String)
  | await (inner : Expression)
  /-- The body of a function or class. -/
  | body (statements : List Statement)
  | commonJS (global : Global)
  | other (parts : List Expression)

end

instance : Inhabited Statement := ⟨.block []⟩
instance : Inhabited Expression := ⟨.other []⟩

/-- A static import. Without any binding it is made for its side effects. -/
structure ImportItem where
  source : String
  typeOnly : Bool
  defaultName : Option String
  wholeName : Option String
  entries : List ImportEntry
deriving Inhabited, Repr

/-- An export. -/
inductive ExportItem
  /-- `export * from source`, with an alias `export * as alias from source`. -/
  | all (source : String) (asName : Option String) (typeOnly : Bool)
  /-- `export { entries }`, with or without a source. -/
  | named (source : Option String) (entries : List ExportEntry) (typeOnly : Bool)
  /-- A declaration that is exported under the names it declares. -/
  | declaration (names : List String) (typeOnly : Bool) (body : List Statement)

/-- An item at the top level of a module. -/
inductive Item
  | importing (item : ImportItem)
  | exporting (item : ExportItem)
  | statement (s : Statement)

instance : Inhabited Item := ⟨.statement default⟩

end ModuleGraph
