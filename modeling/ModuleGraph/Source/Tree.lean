/-!
# Concrete syntax trees

The tree that a parser made of a source text: nodes of named and anonymous kinds over spans
of bytes. A child may stand in a field of its parent, such as the `source` of an import.

## Implementation notes

Trees arrive as the list of their nodes in preorder. Reading that list from its end, the
trees at the front that lie deeper than a node are its children.
-/

namespace ModuleGraph.Source

/-- The fields that matter for dependencies. -/
inductive Field
  | source
  | name
  | asName
  | declaration
  | value
  | left
  | function
  | arguments
  | object
  | property
deriving DecidableEq, Inhabited, Repr

/-- The field of that name. -/
def Field.ofName? : String → Option Field
  | "source" => some .source
  | "name" => some .name
  | "alias" => some .asName
  | "declaration" => some .declaration
  | "value" => some .value
  | "left" => some .left
  | "function" => some .function
  | "arguments" => some .arguments
  | "object" => some .object
  | "property" => some .property
  | _ => none

/-- What a node is, apart from its children. -/
structure Label where
  kind : String
  isNamed : Bool
  field : Option Field
  start : Nat
  stop : Nat
deriving DecidableEq, Inhabited, Repr

/-- A node and its children. -/
inductive Tree
  | node (label : Label) (children : List Tree)

namespace Tree

instance : Inhabited Tree := ⟨.node default []⟩

/-- What the node is. -/
def label : Tree → Label
  | .node label _ => label

/-- The children of the node, in order. -/
def children : Tree → List Tree
  | .node _ children => children

/-- The kind of the node. -/
def kind (t : Tree) : String := t.label.kind

/-- The field of its parent in which the node stands. -/
def field (t : Tree) : Option Field := t.label.field

/-- A named node that is no comment. -/
def isProper (t : Tree) : Bool := t.label.isNamed && t.kind != "comment"

/-- The named children that are no comments. -/
def proper (t : Tree) : List Tree := t.children.filter isProper

/-- An anonymous child is spelled `token`. -/
def hasToken (t : Tree) (token : String) : Bool :=
  t.children.any fun c => !c.label.isNamed && c.kind == token

/-- The first child of that kind. -/
def childOfKind? (t : Tree) (kind : String) : Option Tree := t.children.find? (·.kind == kind)

/-- The child in that field. -/
def child? (t : Tree) (f : Field) : Option Tree := t.children.find? (·.field == some f)

/-- Puts a node of the given depth before trees that follow it in preorder. -/
def place (row : Nat × Label) (following : List (Nat × Tree)) : List (Nat × Tree) :=
  let (inside, after) := following.span fun t => row.1 < t.1
  (row.1, .node row.2 (inside.map (·.2))) :: after

/-- The tree whose nodes in preorder have these depths and labels. -/
def ofPreorder? (rows : List (Nat × Label)) : Option Tree :=
  match rows.foldr place [] with
  | [(_, t)] => some t
  | _ => none

mutual

/-- The number of nodes of a tree. -/
def size : Tree → Nat
  | .node _ children => sizeOfList children + 1

/-- The number of nodes of all trees of a list. -/
def sizeOfList : List Tree → Nat
  | [] => 0
  | t :: rest => t.size + sizeOfList rest

end

theorem sizeOfList_append (xs ys : List Tree) :
    sizeOfList (xs ++ ys) = sizeOfList xs + sizeOfList ys := by
  induction xs with
  | nil => simp [sizeOfList]
  | cons t rest ih => simp [sizeOfList, ih]; omega

/-- Leaving out trees makes no list larger. -/
theorem sizeOfList_filter_le (p : Tree → Bool) (ts : List Tree) :
    sizeOfList (ts.filter p) ≤ sizeOfList ts := by
  induction ts with
  | nil => simp [sizeOfList]
  | cons t rest ih =>
    by_cases h : p t = true
    · simp [sizeOfList, h, ih]
    · simp [sizeOfList, h]
      omega

/-- The children together are smaller than the tree. -/
theorem sizeOfList_children_lt (t : Tree) : sizeOfList t.children < t.size := by
  cases t
  simp [children, size]

end Tree

end ModuleGraph.Source
