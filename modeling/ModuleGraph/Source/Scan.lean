import ModuleGraph.Source.Cursor
import ModuleGraph.Source.Text
import ModuleGraph.Syntax.Item

/-!
# Calls and globals in a syntax tree

All `import()` calls and CommonJS globals under a node, in preorder. `require` is read
together with the property it is asked for: `require.resolve` is a global of its own.

## Implementation notes

The search walks with a cursor and does not recurse into nodes, since generated code nests
expressions thousands of levels deep.
-/

namespace ModuleGraph.Source

/-- The property that a member expression asks its object for. -/
def askedProperty (bytes : ByteArray) (t : Tree) : Option String :=
  if t.kind = "member_expression" then (t.child? .property).map (textOf bytes) else none

/-- The property that a node is asked for by the node above it. -/
def askedFor (bytes : ByteArray) (parent : Option Tree) (t : Tree) : Option String :=
  if t.field = some .object then parent.bind (askedProperty bytes) else none

/-- The global that an identifier names when it is asked for `property`. -/
def globalOf? (name : String) (property : Option String) : Option Global :=
  match name with
  | "__dirname" => some .dirname
  | "__filename" => some .filename
  | "require" =>
    match property with
    | some "resolve" => some .requireResolve
    | some "cache" => some .requireCache
    | some "extensions" => some .requireExtensions
    | _ => some .require
  | _ => none

/-- The target of a call, if its first argument is written out. -/
def callTarget? (bytes : ByteArray) (t : Tree) : Option String :=
  ((t.child? .arguments).bind (·.proper.head?)).bind (literal? bytes)

/-- The node is a call of `import`. -/
def isImportCall (t : Tree) : Bool :=
  t.kind == "call_expression" && (t.child? .function).any (·.kind == "import")

/-- What a node is by itself: a call of `import()`, whose target is left open unless it is
written out, or a CommonJS global. -/
def entryOf (bytes : ByteArray) (property : Option String) (t : Tree) : List Expression :=
  if isImportCall t then
    [.importCall ((callTarget? bytes t).elim (.other []) .literal) none]
  else if t.kind = "identifier" then
    ((globalOf? (textOf bytes t) property).map .commonJS).toList
  else []

/-- Searches from the node of the cursor to the end of the walk and keeps what it finds, latest
first. -/
def scanFrom (bytes : ByteArray) (c : Cursor) (found : List Expression) : List Expression :=
  let here := entryOf bytes (askedFor bytes c.parentNode? c.node) c.node
  match _h : c.next? with
  | some d => scanFrom bytes d (here.reverse ++ found)
  | none => here.reverse ++ found
termination_by c.remaining
decreasing_by exact Cursor.remaining_of_next? _h

/-- The calls and globals at or under a node of a tree, in preorder. -/
def scanAt (bytes : ByteArray) (s : Spot) : List Expression :=
  (scanFrom bytes (.start s) []).reverse

/-- The calls and globals at or under a node that is asked for nothing. -/
def scan (bytes : ByteArray) (t : Tree) : List Expression := scanAt bytes ⟨t, []⟩

/-- A node as a statement: only what it contains is kept. -/
def statementOf (bytes : ByteArray) (t : Tree) : Statement := .other [] (scan bytes t)

end ModuleGraph.Source
