import ModuleGraph.Extension.Table
import ModuleGraph.Toml.Reader

/-!
# Settings of a project

A file at the root of a project may name paths to leave out and give extensions another kind.
A file with a fault in it counts as none: it changes nothing, not even by the parts that can
be read.
-/

namespace ModuleGraph

/-- The settings of a project; what is missing was not written. -/
structure Settings where
  /-- Patterns of paths that are left out. -/
  exclude : Option (List String)
  /-- The kinds of extensions, in the order of the extensions. -/
  extensions : Option (List (String × Extension.Kind))
deriving DecidableEq, Inhabited, Repr

namespace Settings

/-- The name of the file at the root of a project. -/
def fileName : String := "modgraph.toml"

/-- Nothing is set. -/
def none : Settings := ⟨.none, .none⟩

/-- The texts of an array. -/
def textsOf? : Toml.Value → Option (List String)
  | .array items =>
    items.mapM fun
      | .text s => some s
      | _ => .none
  | _ => .none

/-- The kind that a value names. -/
def kindOf? : Toml.Value → Option Extension.Kind
  | .text s => Extension.Kind.ofName? s
  | _ => .none

/-- The kinds that a table gives to extensions, sorted by extension. -/
def kindsOf? : Toml.Value → Option (List (String × Extension.Kind))
  | .table _ entries =>
    (entries.mapM fun e => (kindOf? e.2).map (e.1, ·)).map fun kinds =>
      kinds.mergeSort fun a b => a.1 ≤ b.1
  | _ => .none

/-- What `read` makes of the value under a key; a key that is missing sets nothing, and a
value that is not fit is a fault. -/
def optional? {α : Type} (read : Toml.Value → Option α) (entries : Toml.Entries)
    (key : String) : Option (Option α) :=
  match entries.get? key with
  | .none => some .none
  | some v => (read v).map some

/-- The settings of a document without a fault; keys without a meaning do not count. -/
def ofEntries? (entries : Toml.Entries) : Option Settings :=
  (optional? textsOf? entries "exclude").bind fun exclude =>
    (optional? kindsOf? entries "extensions").map fun extensions => ⟨exclude, extensions⟩

/-- The settings that the bytes of a file write. -/
def ofBytes (bytes : ByteArray) : Settings :=
  (((String.fromUTF8? bytes).bind Toml.ofText?).bind ofEntries?).getD none

/-- The known extensions of the project: those that all projects know, with the kinds set
here entered in turn. -/
def table (s : Settings) : Extension.Table :=
  Extension.Table.standard.insertAll (s.extensions.getD [])

end Settings

end ModuleGraph
