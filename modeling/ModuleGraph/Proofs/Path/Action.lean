import ModuleGraph.Proofs.Path.Enclosing

/-!
# Relative texts act on directories

Main statement: `resolve_action`. Going on from a resolved path is the same as resolving both
texts at once, so relative texts act on directories, and a text without steps acts as the collapse
of a path. What is resolved is spelled by its root, its climbs and its names, in this order.

## Implementation notes

A resolved path is read once more as a base, and what may be taken back is counted again from its
spelling. The count comes out as it was left because the climbs that are spelled stand before
all names, so that no climb of the spelling takes back a name.
-/

namespace ModuleGraph

/-- A resolved path is below the root when its base is. -/
theorem Path.isAbsolute_resolve (base : Path) (relative : String) :
    (base.resolve relative).isAbsolute = base.isAbsolute := by
  rw [resolve_eq, isAbsolute_ofBody _ (base.clean_route.follow_split relative)]

/-- Only the root and the route of the base matter for what is resolved from it. -/
theorem Path.resolve_congr {p q : Path} (habs : p.isAbsolute = q.isAbsolute)
    (hroute : p.route = q.route) (relative : String) : p.resolve relative = q.resolve relative := by
  rw [resolve_eq, resolve_eq, habs, hroute]

/-- Two texts are followed in turn when a slash stands between them. -/
theorem Route.follow_split_append (r : Route) (x y : String) :
    r.follow (Text.split '/' (x ++ "/" ++ y)) =
      (r.follow (Text.split '/' x)).follow (Text.split '/' y) := by
  have hcut : x ++ "/" ++ y = x ++ String.singleton '/' ++ y := rfl
  rw [hcut, Text.split_append_singleton, follow_append]

namespace Path

/-- Going on from a resolved path resolves both texts from the base. -/
theorem resolve_resolve (base : Path) (x y : String) :
    (base.resolve x).resolve y = base.resolve (x ++ "/" ++ y) := by
  calc
    (base.resolve x).resolve y =
        ofBody base.isAbsolute
          ((base.route.follow (Text.split '/' x)).follow (Text.split '/' y)).segments := by
      rw [resolve_eq, isAbsolute_resolve, route_resolve]
    _ = ofBody base.isAbsolute
          (base.route.follow (Text.split '/' (x ++ "/" ++ y))).segments := by
      rw [Route.follow_split_append]
    _ = base.resolve (x ++ "/" ++ y) := (resolve_eq base _).symm

/-- A path and its collapsed spelling are one base. -/
theorem resolve_normal (base : Path) (relative : String) :
    base.normal.resolve relative = base.resolve relative :=
  resolve_congr base.isAbsolute_normal base.route_normal relative

/-- Relative texts act on directories: resolving two texts in turn resolves them joined by a slash.
A resolved path consists of the root of its base, if that has one, then climbs, then names, and is
spelled by these alone. Collapsing is the action of the empty text: a second time it changes
nothing, and the collapsed path is the same base as the path. -/
theorem resolve_action (d : Path) :
    (∀ x y : String, (d.resolve x).resolve y = d.resolve (x ++ "/" ++ y)) ∧
      (∀ x : String, ∃ (ups : Nat) (names : List String), (∀ s ∈ names, IsName s) ∧
        (d.resolve x).components =
          (if d.isAbsolute then [.root] else []) ++ List.replicate ups .up ++ names.map .name ∧
        (d.resolve x).text =
          (if d.isAbsolute then "/" else "") ++
            Text.join '/' (List.replicate ups ".." ++ names)) ∧
      d.normal = d.resolve "" ∧ d.normal.normal = d.normal ∧
      ∀ x : String, d.normal.resolve x = d.resolve x := by
  refine ⟨resolve_resolve d, ?_, rfl, d.collapsed_normal, resolve_normal d⟩
  intro x
  have hclean : (d.route.follow (Text.split '/' x)).Clean := d.clean_route.follow_split x
  refine ⟨(d.route.follow (Text.split '/' x)).ups, (d.route.follow (Text.split '/' x)).names,
    hclean, ?_, ?_⟩
  · rw [resolve_eq, hclean.components_ofBody, List.append_assoc]
    rfl
  · rw [resolve_eq]
    rfl

/-- Climbs above a root stay in the spelling, and none of them is taken back by a later name. -/
example : (resolve ⟨"/a/./b"⟩ "../../..//c").resolve "../d/" = ⟨"/../d"⟩ := by decide

end Path

end ModuleGraph
