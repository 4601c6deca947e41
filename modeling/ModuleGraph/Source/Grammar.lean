import ModuleGraph.Path.Basic
import ModuleGraph.Source.Lower
import ModuleGraph.Text.Ascii
import ModuleGraph.Text.Quoted

/-!
# Which files can be parsed

The extension of a file decides which grammar reads it. Letter case does not matter.
-/

namespace ModuleGraph.Source

/-- The grammars of source files. TypeScript with JSX differs from TypeScript, which has type
assertions in angle brackets; JavaScript includes JSX. -/
inductive Grammar
  | typeScript
  | tsx
  | javaScript
deriving DecidableEq, Inhabited, Repr

/-- The name of a grammar. -/
def Grammar.name : Grammar → String
  | .typeScript => "TypeScript"
  | .tsx => "Tsx"
  | .javaScript => "JavaScript"

/-- The grammar of files with that extension. -/
def Grammar.ofExtension? (ext : String) : Option Grammar :=
  match Text.lower ext with
  | "ts" | "mts" | "cts" => some .typeScript
  | "tsx" => some .tsx
  | "js" | "jsx" | "mjs" | "cjs" => some .javaScript
  | _ => none

/-- The file can be parsed. -/
def isParseable (p : Path) : Bool := (p.extension?.bind Grammar.ofExtension?).isSome

/-- Why a file cannot be parsed. -/
inductive ParseFault
  | unsupportedExtension (ext : String)
deriving DecidableEq, Inhabited, Repr

/-- The fault in words. -/
def ParseFault.message : ParseFault → String
  | .unsupportedExtension ext => "unsupported file extension: " ++ Text.quoted ext

/-- The items of a file, if its extension has a grammar. -/
def parse (p : Path) (d : Document) : Except ParseFault (List Item) :=
  match Grammar.ofExtension? (p.extension?.getD "") with
  | none => .error (.unsupportedExtension (p.extension?.getD ""))
  | some _ => .ok (itemsOf d)

end ModuleGraph.Source
