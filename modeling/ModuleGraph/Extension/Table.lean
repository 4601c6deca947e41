import ModuleGraph.Extension.Kind
import ModuleGraph.Text.Ascii

/-!
# Tables of extensions

Which extensions are known, and as what. Entries keep the order in which their keys first
came, which is also the order in which extensions are tried when a file is looked for.

## Implementation notes

Keys are in lower case and without leading dots because `Table.insert` writes them so. A
lookup compares them without regard to case and keeps the dots of its question.
-/

namespace ModuleGraph.Extension

/-- The known extensions in the order of their first insertion. -/
structure Table where
  entries : List (String × Kind)
deriving DecidableEq, Inhabited, Repr

namespace Table

/-- Nothing is known. -/
def empty : Table := ⟨[]⟩

/-- The key under which an extension is entered. -/
def keyOf (ext : String) : String := Text.lower (Text.trimDots ext)

/-- Enters `kind` under the key of `ext`, in its old place if the key is known. -/
def insert (t : Table) (ext : String) (kind : Kind) : Table :=
  let key := keyOf ext
  if t.entries.any (·.1 == key) then
    ⟨t.entries.map fun e => if e.1 == key then (e.1, kind) else e⟩
  else ⟨t.entries ++ [(key, kind)]⟩

/-- Enters every pair in turn. -/
def insertAll (t : Table) (pairs : List (String × Kind)) : Table :=
  pairs.foldl (fun t p => t.insert p.1 p.2) t

/-- What an extension, written without its dot, stands for. -/
def get? (t : Table) (ext : String) : Option Kind :=
  (t.entries.find? fun e => Text.eqIgnoringCase e.1 ext).map (·.2)

/-- The extension is known. -/
def recognizes (t : Table) (ext : String) : Bool := (t.get? ext).isSome

/-- The asset family of an extension. -/
def asset? (t : Table) (ext : String) : Option AssetKind := (t.get? ext).bind Kind.asset?

/-- The extensions of code modules, in the order in which they are tried. -/
def modules (t : Table) : List String :=
  (t.entries.filter fun e => e.2.isModule).map (·.1)

/-- How many extensions are known. -/
def size (t : Table) : Nat := t.entries.length

/-- The table every project starts from. -/
def standard : Table :=
  empty.insertAll <|
    ["ts", "tsx", "mts", "cts"].map (·, .module .typescript) ++
    ["js", "jsx", "mjs", "cjs"].map (·, .module .javascript) ++
    ["json"].map (·, .module .json) ++
    ["css", "scss", "sass", "less"].map (·, .asset .style) ++
    ["svg", "png", "jpg", "jpeg", "gif", "webp", "avif", "ico"].map (·, .asset .image) ++
    ["woff", "woff2", "ttf", "otf"].map (·, .asset .font) ++
    ["mp3", "mp4", "webm", "wav"].map (·, .asset .media) ++
    ["wasm", "txt", "csv"].map (·, .asset .data)

/-- A new key is entered at the end. -/
theorem insert_entries_of_new {t : Table} {ext : String} {kind : Kind}
    (h : t.entries.any (·.1 == keyOf ext) = false) :
    (t.insert ext kind).entries = t.entries ++ [(keyOf ext, kind)] := by
  simp [insert, h]

end Table

end ModuleGraph.Extension
