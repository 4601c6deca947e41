/-!
# Kinds of files

An extension says whether a file is a module of code or an asset that another pipeline
handles, and of which family. The kinds are written by name in configuration files.
-/

namespace ModuleGraph

/-- The families of code modules. -/
inductive ModuleKind
  | typescript
  | javascript
  | json
deriving DecidableEq, Inhabited, Repr

/-- The families of assets. -/
inductive AssetKind
  | image
  | style
  | font
  | media
  | data
deriving DecidableEq, Inhabited, Repr

namespace Extension

/-- What an extension stands for. -/
inductive Kind
  | module (kind : ModuleKind)
  | asset (kind : AssetKind)
deriving DecidableEq, Inhabited, Repr

/-- The kind is one of code. -/
def Kind.isModule : Kind → Bool
  | .module _ => true
  | .asset _ => false

/-- The family of an asset, none for code. -/
def Kind.asset? : Kind → Option AssetKind
  | .module _ => none
  | .asset kind => some kind

end Extension

/-- The written name of a family of modules. -/
def ModuleKind.name : ModuleKind → String
  | .typescript => "typescript"
  | .javascript => "javascript"
  | .json => "json"

/-- The written name of a family of assets. -/
def AssetKind.name : AssetKind → String
  | .image => "image"
  | .style => "style"
  | .font => "font"
  | .media => "media"
  | .data => "data"

namespace Extension.Kind

/-- The written name of a kind. -/
def name : Kind → String
  | .module kind => kind.name
  | .asset kind => kind.name

/-- Every kind, in the order of the families. -/
def all : List Kind :=
  [.module .typescript, .module .javascript, .module .json,
   .asset .image, .asset .style, .asset .font, .asset .media, .asset .data]

/-- The kind of that name; names are read with their case. -/
def ofName? (s : String) : Option Kind := all.find? fun k => k.name = s

theorem ofName?_name (k : Kind) : ofName? k.name = some k := by
  rcases k with k | k <;> cases k <;> decide

end Extension.Kind

end ModuleGraph
