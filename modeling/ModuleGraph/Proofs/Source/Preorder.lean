import ModuleGraph.Proofs.Source.Walk
import ModuleGraph.Proofs.Syntax.Search

/-!
# Preorder of syntax trees

Main statement: `findingsOfList_scan`. The places of a tree are its nodes in preorder, each
with the node above it. What is found when a node is searched is what stands at the places
below it: calls of `import()` whose first argument is written out, and CommonJS globals.

## Implementation notes

A node stands below its parent only, so the parent tells which property an identifier is
asked for. The node that is searched may stand below any parent that asks it for nothing.
-/

namespace ModuleGraph.Source

/-- A node and the node it stands below, unless it is taken by itself. -/
structure Place where
  parent : Option Tree
  node : Tree

mutual

/-- The places of a tree in preorder. -/
def Tree.places (parent : Option Tree) : Tree → List Place
  | .node label children =>
    ⟨parent, .node label children⟩ :: Tree.placesOfList (.node label children) children

/-- The places of children, one child after the other. -/
def Tree.placesOfList (parent : Tree) : List Tree → List Place
  | [] => []
  | t :: rest => t.places (some parent) ++ Tree.placesOfList parent rest

end

theorem Tree.placesOfList_eq_flatMap (parent : Tree) (ts : List Tree) :
    Tree.placesOfList parent ts = ts.flatMap (Tree.places (some parent)) := by
  induction ts with
  | nil => rfl
  | cons t rest ih => rw [Tree.placesOfList, List.flatMap_cons, ih]

theorem Tree.places_eq (parent : Option Tree) (t : Tree) :
    t.places parent = ⟨parent, t⟩ :: t.children.flatMap (Tree.places (some t)) := by
  cases t with
  | node label children => rw [Tree.places, Tree.placesOfList_eq_flatMap]; rfl

namespace Place

variable (bytes : ByteArray)

/-- The property that the node is asked for by the member expression it is the object of. -/
def asked (p : Place) : Option String :=
  if p.node.field = some .object then p.parent.bind (askedProperty bytes) else none

/-- The target of the call of `import()` that stands here, if its first argument is a string
or a template without substitutions. -/
def importTarget? (p : Place) : Option String :=
  match p.node.child? .function, p.node.child? .arguments with
  | some function, some arguments =>
    if p.node.kind = "call_expression" ∧ function.kind = "import" then
      arguments.proper.head?.bind (literal? bytes)
    else none
  | _, _ => none

/-- The CommonJS global that is used here. -/
def global? (p : Place) : Option Global :=
  if p.node.kind = "identifier" then globalOf? (textOf bytes p.node) (p.asked bytes) else none

/-- What stands here. -/
def findings (p : Place) : List Finding :=
  (p.importTarget? bytes).toList.map .importCall ++ (p.global? bytes).toList.map .global

end Place

variable {bytes : ByteArray}

mutual

/-- The places of a tree are its spots without all that is above the parents. -/
theorem map_place_spots (above : List Level) : ∀ t : Tree,
    (t.spots above).map (fun s => (⟨s.parent?, s.node⟩ : Place)) =
      t.places (above.head?.map Level.node)
  | .node label children => by
    rw [Tree.spots, Tree.places, List.map_cons, map_place_spotsOfList]
    rfl

theorem map_place_spotsOfList (parent : Tree) (above : List Level) : ∀ ts : List Tree,
    (Tree.spotsOfList parent above ts).map (fun s => (⟨s.parent?, s.node⟩ : Place)) =
      Tree.placesOfList parent ts
  | [] => rfl
  | t :: rest => by
    rw [Tree.spotsOfList, Tree.placesOfList, List.map_append, map_place_spots,
      map_place_spotsOfList]
    rfl

end

/-- A search finds what stands at the places of its node, in preorder. -/
theorem scanAt_eq_places (s : Spot) :
    scanAt bytes s =
      (s.node.places s.parent?).flatMap fun p => entryOf bytes (p.asked bytes) p.node := by
  rw [scanAt_eq, Spot.parent?, ← map_place_spots, List.flatMap_map]
  rfl

/-- A node that is taken by itself is asked for nothing. -/
theorem asked_none (t : Tree) : Place.asked bytes ⟨none, t⟩ = none := by
  unfold Place.asked
  split <;> rfl

/-- A node that is asked for nothing may as well be taken by itself. -/
theorem scan_eq {parent : Option Tree} {t : Tree} (h : Place.asked bytes ⟨parent, t⟩ = none) :
    scan bytes t = (t.places parent).flatMap fun p => entryOf bytes (p.asked bytes) p.node := by
  calc
    scan bytes t = (t.places none).flatMap fun p => entryOf bytes (p.asked bytes) p.node :=
      scanAt_eq_places _
    _ = (t.places parent).flatMap fun p => entryOf bytes (p.asked bytes) p.node := by
      rw [Tree.places_eq none, Tree.places_eq parent, List.flatMap_cons, List.flatMap_cons, h,
        asked_none]

theorem importTarget?_eq (p : Place) :
    p.importTarget? bytes = if isImportCall p.node then callTarget? bytes p.node else none := by
  unfold Place.importTarget? isImportCall callTarget?
  cases hf : p.node.child? .function with
  | none => simp
  | some f =>
      cases p.node.child? .arguments with
      | none => simp
      | some args => simp

theorem findingsOfList_entryOf (p : Place) :
    Expression.findingsOfList (entryOf bytes (p.asked bytes) p.node) = p.findings bytes := by
  rw [Place.findings, importTarget?_eq]
  unfold entryOf Place.global?
  by_cases hcall : isImportCall p.node = true
  · have hkind : p.node.kind = "call_expression" := by
      simp only [isImportCall, Bool.and_eq_true, beq_iff_eq] at hcall
      exact hcall.1
    have hident : p.node.kind ≠ "identifier" := by
      rw [hkind]
      decide
    rw [if_pos hcall, if_pos hcall, if_neg hident]
    cases callTarget? bytes p.node <;> rfl
  · rw [if_neg hcall, if_neg hcall]
    by_cases hident : p.node.kind = "identifier"
    · rw [if_pos hident, if_pos hident]
      cases globalOf? (textOf bytes p.node) (p.asked bytes) <;> rfl
    · rw [if_neg hident, if_neg hident]
      rfl

/-- The calls and globals that are found in a searched node stand at its places. -/
theorem findingsOfList_scan {parent : Option Tree} {t : Tree}
    (h : Place.asked bytes ⟨parent, t⟩ = none) :
    Expression.findingsOfList (scan bytes t) =
      (t.places parent).flatMap (Place.findings bytes) := by
  rw [scan_eq h, Expression.findingsOfList_eq_flatMap, List.flatMap_assoc]
  congr 1
  funext p
  rw [← Expression.findingsOfList_eq_flatMap, findingsOfList_entryOf]

end ModuleGraph.Source
