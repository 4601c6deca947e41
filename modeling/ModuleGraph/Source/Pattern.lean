import ModuleGraph.Source.Text

/-!
# Names bound by patterns

`const { a, b: [c], d = 1 } = e` declares `a`, `c` and `d`: a pattern binds the identifiers
in it, but neither the keys nor the default values.

## Implementation notes

Pending patterns are kept in a list, so that deep nesting needs no more room than wide.
-/

namespace ModuleGraph.Source

/-- The node binds its own text as a name. -/
def bindsItself (t : Tree) : Bool :=
  t.kind == "identifier" || t.kind == "shorthand_property_identifier_pattern"

/-- The parts of a pattern in which it binds names: the value of a pair, the left side of an
assignment, and else every part. -/
def boundParts (t : Tree) : List Tree :=
  if t.kind = "pair_pattern" then (t.child? .value).toList
  else if t.kind = "assignment_pattern" || t.kind = "object_assignment_pattern" then
    (t.child? .left).toList
  else t.proper

theorem sizeOfList_find?_le (p : Tree → Bool) (ts : List Tree) :
    Tree.sizeOfList (ts.find? p).toList ≤ Tree.sizeOfList ts := by
  induction ts with
  | nil => simp [Tree.sizeOfList]
  | cons t rest ih =>
    by_cases h : p t = true
    · simp [h, Tree.sizeOfList]
    · simp only [List.find?_cons, h, Tree.sizeOfList]
      omega

/-- The parts that bind names are smaller than the pattern. -/
theorem sizeOfList_boundParts_lt (t : Tree) : Tree.sizeOfList (boundParts t) < t.size := by
  have h := Tree.sizeOfList_children_lt t
  unfold boundParts
  split
  · exact Nat.lt_of_le_of_lt (sizeOfList_find?_le _ _) h
  · split
    · exact Nat.lt_of_le_of_lt (sizeOfList_find?_le _ _) h
    · exact Nat.lt_of_le_of_lt (Tree.sizeOfList_filter_le _ _) h

/-- Visits the pending patterns and keeps the names they bind, latest first. -/
def bindFrom (bytes : ByteArray) (pending : List Tree) (names : List String) : List String :=
  match pending with
  | [] => names
  | t :: rest =>
    if bindsItself t then bindFrom bytes rest (textOf bytes t :: names)
    else bindFrom bytes (boundParts t ++ rest) names
termination_by Tree.sizeOfList pending
decreasing_by
  · have : 0 < t.size := by cases t; simp [Tree.size]
    simp [Tree.sizeOfList]
    omega
  · have := sizeOfList_boundParts_lt t
    simp [Tree.sizeOfList, Tree.sizeOfList_append]
    omega

/-- The names that a pattern binds, from left to right. -/
def boundNames (bytes : ByteArray) (t : Tree) : List String := (bindFrom bytes [t] []).reverse

end ModuleGraph.Source
