import ModuleGraph.Source.Tree

/-!
# Walking through syntax trees

A cursor begins at some node of a tree and moves to first children, to next siblings and to
parents. It never leaves the node where it began, whatever stands beside that.

## Implementation notes

The way back to the beginning is kept apart from what is above it, because a node may be asked
about its parent also where the walk began.
-/

namespace ModuleGraph.Source

/-- A node that was entered, and its children that come after the one through which it was. -/
structure Level where
  node : Tree
  after : List Tree

/-- A node in a tree, and the nodes above it, the nearest first. -/
structure Spot where
  node : Tree
  above : List Level

/-- A node on a walk: the nodes above it that belong to the walk, the last of which is its
beginning, and the nodes above that, the nearest first. -/
structure Cursor where
  node : Tree
  way : List Level
  outside : List Level

namespace Cursor

/-- A walk that begins at `s`. -/
def start (s : Spot) : Cursor := ⟨s.node, [], s.above⟩

/-- The node above, also where the walk began. -/
def parentNode? (c : Cursor) : Option Tree := (c.way.head?.or c.outside.head?).map Level.node

/-- Down to the first child. -/
def firstChild? (c : Cursor) : Option Cursor :=
  match c.node.children with
  | t :: rest => some ⟨t, ⟨c.node, rest⟩ :: c.way, c.outside⟩
  | [] => none

/-- On to the next sibling, unless the walk began here. -/
def nextSibling? (c : Cursor) : Option Cursor :=
  match c.way with
  | ⟨p, t :: rest⟩ :: up => some ⟨t, ⟨p, rest⟩ :: up, c.outside⟩
  | _ => none

/-- Up to the parent, unless the walk began here. -/
def parent? (c : Cursor) : Option Cursor :=
  match c.way with
  | l :: up => some ⟨l.node, up, c.outside⟩
  | [] => none

theorem length_way_of_parent? {c d : Cursor} (h : c.parent? = some d) :
    d.way.length < c.way.length := by
  obtain ⟨t, way, outside⟩ := c
  cases way with
  | nil => cases h
  | cons l up =>
      cases h
      exact Nat.lt_succ_self _

/-- The next sibling of the node, or of the nearest node above that has one. -/
def leave? (c : Cursor) : Option Cursor :=
  match c.nextSibling? with
  | some d => some d
  | none =>
    match _h : c.parent? with
    | some d => d.leave?
    | none => none
termination_by c.way.length
decreasing_by exact length_way_of_parent? _h

/-- The next node of the walk: a node comes before its children, and these come before its next
sibling. -/
def next? (c : Cursor) : Option Cursor :=
  match c.firstChild? with
  | some d => some d
  | none => c.leave?

section

variable (t p s : Tree) (rest : List Tree) (up outside : List Level)

theorem leave?_start : (⟨t, [], outside⟩ : Cursor).leave? = none := by
  rw [leave?]
  rfl

/-- A next sibling is entered at once. -/
theorem leave?_sibling : (⟨t, ⟨p, s :: rest⟩ :: up, outside⟩ : Cursor).leave? =
    some ⟨s, ⟨p, rest⟩ :: up, outside⟩ := by
  rw [leave?]
  rfl

/-- The last child is left together with its parent. -/
theorem leave?_last : (⟨t, ⟨p, []⟩ :: up, outside⟩ : Cursor).leave? =
    (⟨p, up, outside⟩ : Cursor).leave? := by
  rw [leave?]
  rfl

end

/-- The number of nodes at and under the later siblings on the way back. -/
def laterSize : List Level → Nat
  | [] => 0
  | l :: up => Tree.sizeOfList l.after + laterSize up

/-- The number of nodes that the walk has not left behind. -/
def remaining (c : Cursor) : Nat := c.node.size + laterSize c.way

/-- A later node is among those that come after the subtree. -/
theorem remaining_of_leave? {c d : Cursor} (h : c.leave? = some d) :
    d.remaining ≤ laterSize c.way := by
  obtain ⟨t, way, outside⟩ := c
  induction way generalizing t with
  | nil =>
      rw [leave?_start] at h
      cases h
  | cons l up ih =>
      obtain ⟨p, after⟩ := l
      cases after with
      | nil =>
          rw [leave?_last] at h
          exact Nat.le_trans (ih p h) (Nat.le_add_left _ _)
      | cons s rest =>
          rw [leave?_sibling] at h
          cases h
          simp only [remaining, laterSize, Tree.sizeOfList]
          omega

/-- Every step of a walk leaves a node behind. -/
theorem remaining_of_next? {c d : Cursor} (h : c.next? = some d) : d.remaining < c.remaining := by
  have hsize := Tree.sizeOfList_children_lt c.node
  unfold next? firstChild? at h
  cases hchildren : c.node.children with
  | nil =>
      rw [hchildren] at h
      have hlater := remaining_of_leave? h
      simp only [remaining] at hlater ⊢
      omega
  | cons t rest =>
      rw [hchildren] at h
      cases h
      rw [hchildren, Tree.sizeOfList] at hsize
      simp only [remaining, laterSize]
      omega

end Cursor

end ModuleGraph.Source
