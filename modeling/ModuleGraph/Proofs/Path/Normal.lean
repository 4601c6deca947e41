import ModuleGraph.Proofs.Path.Resolve

/-!
# Collapsed paths

Main statement: `Collapsed.eq_of_same`. A collapsed path is spelled from its root and its
route, so collapsing it a second time changes nothing, and two collapsed paths with the same
steps are one path.
-/

namespace ModuleGraph.Path

theorem root_not_mem_stepsOf (segs : List String) : Component.root ∉ stepsOf segs := by
  intro h
  obtain ⟨s, _, hs⟩ := List.mem_map.mp h
  unfold stepOf at hs
  split at hs <;> cases hs

/-- The root is a step of absolute paths only. -/
theorem root_mem_components_iff {p : Path} :
    Component.root ∈ p.components ↔ p.isAbsolute = true := by
  unfold components
  split
  · rename_i h
    exact iff_of_true List.mem_cons_self h
  · rename_i h
    split <;> simp [root_not_mem_stepsOf, h]

/-- No segment of a route is empty. -/
theorem empty_not_mem_segments {r : Route} (hr : r.Clean) : "" ∉ r.segments := by
  intro h
  rcases List.mem_append.mp h with h | h
  · exact absurd (List.eq_of_mem_replicate h) (by decide)
  · cases (hr "" h).not_idle

/-- An absolute path has an empty segment before its first slash. -/
theorem exists_segments_eq_of_isAbsolute {p : Path} (h : p.isAbsolute = true) :
    ∃ rest, rest ≠ [] ∧ p.segments = "" :: rest := by
  obtain ⟨rest, hrest⟩ := List.isPrefixOf_iff_prefix.mp h
  have htext : p.text = "/" ++ String.ofList rest := by
    rw [← String.toList_inj, ← hrest]
    simp
  refine ⟨Text.split '/' (String.ofList rest), Text.split_ne_nil _ _, ?_⟩
  rw [segments, htext, Text.split_slash_append]

/-- The spelling of a route begins with a slash only when it stands below the root. -/
theorem isAbsolute_ofBody (absolute : Bool) {r : Route} (hr : r.Clean) :
    (ofBody absolute r.segments).isAbsolute = absolute := by
  cases absolute with
  | true => simp [isAbsolute, ofBody, Text.hasPrefix]
  | false =>
      apply Bool.eq_false_iff.mpr
      intro habs
      obtain ⟨rest, hne, hsegs⟩ := exists_segments_eq_of_isAbsolute habs
      have htext : (ofBody false r.segments).text = Text.join '/' r.segments := by
        simp [ofBody]
      rw [segments, htext] at hsegs
      by_cases hnil : r.segments = []
      · rw [hnil, Text.split_join_nil] at hsegs
        exact hne (List.cons.inj hsegs).2.symm
      · rw [Text.split_join hnil fun _ => hr.whole_of_mem_segments] at hsegs
        apply empty_not_mem_segments hr
        rw [hsegs]
        exact List.mem_cons_self

/-- A collapsed path has one root and one route. -/
theorem ofBody_inj {a b : Bool} {r q : Route} (hr : r.Clean) (hq : q.Clean) :
    ofBody a r.segments = ofBody b q.segments ↔ a = b ∧ r = q := by
  constructor
  · intro h
    have habs := congrArg isAbsolute h
    have hroute := congrArg route h
    rw [isAbsolute_ofBody a hr, isAbsolute_ofBody b hq] at habs
    rw [route_ofBody a hr, route_ofBody b hq] at hroute
    exact ⟨habs, hroute⟩
  · rintro ⟨rfl, rfl⟩
    rfl

theorem normal_eq (p : Path) : p.normal = ofBody p.isAbsolute p.route.segments := by
  rw [normal, resolve_eq, Text.split_empty, Route.follow_cons, Route.step_of_isIdle _ (by decide),
    Route.follow_nil]

theorem isAbsolute_normal (p : Path) : p.normal.isAbsolute = p.isAbsolute := by
  rw [normal_eq, isAbsolute_ofBody _ p.clean_route]

theorem route_normal (p : Path) : p.normal.route = p.route := by
  rw [normal_eq, route_ofBody _ p.clean_route]

/-- The path is spelled as collapsed paths are. -/
def Collapsed (p : Path) : Prop := p.normal = p

/-- Collapsing a collapsed path changes nothing. -/
theorem collapsed_normal (p : Path) : p.normal.Collapsed := by
  rw [Collapsed, normal_eq p.normal, isAbsolute_normal, route_normal, ← normal_eq]

/-- Collapsed paths with the same steps are spelled alike. -/
theorem Collapsed.eq_of_same {p q : Path} (hp : p.Collapsed) (hq : q.Collapsed)
    (h : p.same q = true) : p = q := by
  have habs : p.isAbsolute = q.isAbsolute := by
    rw [Bool.eq_iff_iff, ← root_mem_components_iff, ← root_mem_components_iff, same_iff.mp h]
  calc
    p = ofBody p.isAbsolute p.route.segments := hp.symm.trans (normal_eq p)
    _ = ofBody q.isAbsolute q.route.segments := by rw [habs, route_eq_of_same h]
    _ = q := (normal_eq q).symm.trans hq

end ModuleGraph.Path
