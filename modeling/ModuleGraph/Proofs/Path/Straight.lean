import ModuleGraph.Proofs.Path.Enclosing

/-!
# Paths that go straight

Main statement: `straight_iff_components_normal`. Collapsing a path keeps its steps exactly when
no climb of it comes after a name, since such a climb takes a name back.
-/

namespace ModuleGraph

/-- The step is a name. -/
def Component.isName : Component → Bool
  | .name _ => true
  | _ => false

/-- The step `c` is kept when `e` comes after it: only a climb takes back what is before it, and
only a name is taken back. -/
def Component.KeptBy (c e : Component) : Prop := e = .up → c.isName = false

instance (c e : Component) : Decidable (c.KeptBy e) :=
  inferInstanceAs (Decidable (_ → _))

/-- Every step is kept by a name. -/
theorem Component.keptBy_name (c : Component) (s : String) : c.KeptBy (.name s) := nofun

theorem Component.pairwise_keptBy_map_name (names : List String) :
    (names.map Component.name).Pairwise KeptBy :=
  List.pairwise_map.mpr (List.pairwise_of_forall fun s t => keptBy_name (.name s) t)

/-- The steps of a route keep one another: its climbs come before its names. -/
theorem Route.pairwise_keptBy_steps (r : Route) : r.steps.Pairwise Component.KeptBy := by
  refine List.pairwise_append.mpr ⟨?_, Component.pairwise_keptBy_map_name r.names, ?_⟩
  · exact List.pairwise_replicate.mpr (Or.inr fun _ => rfl)
  · intro c _ e he
    obtain ⟨s, _, rfl⟩ := List.mem_map.mp he
    exact c.keptBy_name s

namespace Path

/-- No climb of the path comes after a name. -/
def Straight (p : Path) : Prop := p.components.Pairwise Component.KeptBy

instance (p : Path) : Decidable p.Straight :=
  inferInstanceAs (Decidable (List.Pairwise _ _))

theorem stepsOf_of_isName {names : List String} (h : ∀ s ∈ names, IsName s) :
    stepsOf names = names.map .name := by
  rw [stepsOf_eq_map fun s hs => (h s hs).not_idle, map_stepOf_of_isName h]

end Path

namespace Route

open ModuleGraph.Path (stepsOf stepOf isIdle IsName)

/-- Segments are written behind a route as they stand when no step is taken back. -/
theorem steps_follow {r : Route} {segs : List String} (hwhole : ∀ s ∈ segs, '/' ∉ s.toList)
    (h : (r.steps ++ stepsOf segs).Pairwise Component.KeptBy) :
    (r.follow segs).steps = r.steps ++ stepsOf segs := by
  induction segs generalizing r with
  | nil => simp [stepsOf]
  | cons s rest ih =>
      have hrest : ∀ t ∈ rest, '/' ∉ t.toList := fun t ht => hwhole t (List.mem_cons_of_mem s ht)
      rw [follow_cons]
      rcases isIdle_or_eq_up_or_isName (hwhole s List.mem_cons_self) with hidle | rfl | hname
      · rw [Path.stepsOf_cons_of_isIdle hidle] at h ⊢
        rw [step_of_isIdle r hidle, ih hrest h]
      · rw [Path.stepsOf_cons_of_not_isIdle (by decide)] at h ⊢
        -- a climb that keeps all steps before it finds no names
        have hnone : r.names = [] := by
          refine List.eq_nil_iff_forall_not_mem.mpr fun n hn => ?_
          have hmem : Component.name n ∈ r.steps :=
            List.mem_append_right _ (List.mem_map_of_mem hn)
          have hkept := (List.pairwise_append.mp h).2.2 _ hmem _ List.mem_cons_self
          cases hkept rfl
        have hstep : (r.step "..").steps = r.steps ++ [.up] := by
          rw [step_up, hnone]
          simp [steps, hnone, List.replicate_succ']
        rw [ih hrest (by rw [hstep, List.append_assoc]; exact h), hstep, List.append_assoc]
        rfl
      · rw [Path.stepsOf_cons_of_not_isIdle hname.not_idle, stepOf, if_neg hname.ne_up] at h ⊢
        have hstep : (r.step s).steps = r.steps ++ [.name s] := by
          rw [step_of_isName r hname]
          simp [steps]
        rw [ih hrest (by rw [hstep, List.append_assoc]; exact h), hstep, List.append_assoc]
        rfl

end Route

namespace Path

variable {p : Path}

theorem components_of_isAbsolute (h : p.isAbsolute = true) :
    p.components = .root :: stepsOf p.segments :=
  if_pos h

theorem components_normal (h : p.isAbsolute = true) :
    p.normal.components = .root :: p.route.steps := by
  rw [normal_eq, h, p.clean_route.components_ofBody]
  rfl

/-- The root is kept by every step. -/
theorem straight_iff_of_isAbsolute (h : p.isAbsolute = true) :
    p.Straight ↔ (stepsOf p.segments).Pairwise Component.KeptBy := by
  rw [Straight, components_of_isAbsolute h, List.pairwise_cons]
  exact and_iff_right fun _ _ _ => rfl

/-- Collapsed paths go straight. -/
theorem straight_normal (h : p.isAbsolute = true) : p.normal.Straight := by
  rw [Straight, components_normal h, List.pairwise_cons]
  exact ⟨fun _ _ _ => rfl, p.route.pairwise_keptBy_steps⟩

/-- A path goes straight when collapsing it changes none of its steps. -/
theorem straight_iff_components_normal (h : p.isAbsolute = true) :
    p.Straight ↔ p.normal.components = p.components := by
  constructor
  · intro hp
    have hsteps : (Route.stay.follow p.segments).steps = Route.stay.steps ++ stepsOf p.segments :=
      Route.steps_follow (fun _ => Text.not_mem_of_mem_split)
        ((straight_iff_of_isAbsolute h).mp hp)
    rw [components_normal h, components_of_isAbsolute h, route, hsteps]
    rfl
  · intro hp
    rw [Straight, ← hp]
    exact straight_normal h

end Path

end ModuleGraph
