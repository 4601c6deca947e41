import ModuleGraph.Proofs.Path.Normal

/-!
# Enclosing directories

Main statement: `encloses_ofBody_iff`. The steps of a collapsed path are its root, its climbs and
its names, so one collapsed path that ends in a name encloses another exactly when both
climb equally far and the names of the one begin the names of the other.
-/

namespace ModuleGraph

namespace Path

/-- `p` is `q` or a directory that `q` lies in, by their steps. -/
def Encloses (p q : Path) : Prop := p.components <+: q.components

instance (p q : Path) : Decidable (p.Encloses q) :=
  inferInstanceAs (Decidable (p.components <+: q.components))

/-- The steps above a route. -/
def rootSteps (absolute : Bool) : List Component := if absolute then [.root] else []

theorem stepsOf_append (xs ys : List String) : stepsOf (xs ++ ys) = stepsOf xs ++ stepsOf ys := by
  simp [stepsOf]

theorem stepsOf_cons (s : String) (segs : List String) :
    stepsOf (s :: segs) = stepsOf [s] ++ stepsOf segs :=
  stepsOf_append [s] segs

theorem stepsOf_cons_of_isIdle {s : String} (h : isIdle s = true) (segs : List String) :
    stepsOf (s :: segs) = stepsOf segs := by
  simp [stepsOf, h]

theorem stepsOf_cons_of_not_isIdle {s : String} (h : isIdle s = false) (segs : List String) :
    stepsOf (s :: segs) = stepOf s :: stepsOf segs := by
  simp [stepsOf, h]

theorem stepsOf_eq_map {segs : List String} (h : ∀ s ∈ segs, isIdle s = false) :
    stepsOf segs = segs.map stepOf := by
  have hall : segs.filter (fun s => !isIdle s) = segs :=
    List.filter_eq_self.mpr fun s hs => by simp [h s hs]
  rw [stepsOf, hall]

/-- Joined segments take the steps of the segments, also when there are none. -/
theorem stepsOf_split_join {segs : List String} (h : ∀ s ∈ segs, '/' ∉ s.toList) :
    stepsOf (Text.split '/' (Text.join '/' segs)) = stepsOf segs := by
  by_cases hnil : segs = []
  · subst hnil
    rw [Text.split_join_nil]
    rfl
  · rw [Text.split_join hnil h]

/-- Names are steps of their own. -/
theorem map_stepOf_of_isName {names : List String} (h : ∀ s ∈ names, IsName s) :
    names.map stepOf = names.map .name :=
  List.map_congr_left fun s hs => if_neg (h s hs).ne_up

theorem segments_ofBody_true (segs : List String) :
    (ofBody true segs).segments = "" :: Text.split '/' (Text.join '/' segs) := by
  rw [segments, ofBody, if_pos rfl, Text.split_slash_append]

theorem segments_ofBody_false (segs : List String) :
    (ofBody false segs).segments = Text.split '/' (Text.join '/' segs) := by
  simp [segments, ofBody]

/-- A path whose first segment takes a step is relative and has no leading dot. -/
theorem components_of_not_isIdle {p : Path} {first : String} {rest : List String}
    (h : p.segments = first :: rest) (hfirst : isIdle first = false) :
    p.components = stepsOf (first :: rest) := by
  have habs : p.isAbsolute = false := by
    apply Bool.eq_false_iff.mpr
    intro habs
    obtain ⟨more, _, hroot⟩ := exists_segments_eq_of_isAbsolute habs
    rw [h] at hroot
    rw [(List.cons.inj hroot).1] at hfirst
    cases hfirst
  rw [components, habs, if_neg Bool.false_ne_true, h]
  split
  · rename_i heq
    rw [(List.cons.inj heq).1] at hfirst
    cases hfirst
  · rfl

end Path

namespace Route

open ModuleGraph.Path (stepOf stepsOf isIdle rootSteps)

/-- The steps of a route: its climbs, then its names. -/
def steps (r : Route) : List Component := List.replicate r.ups .up ++ r.names.map .name

/-- No segment of a clean route is idle. -/
theorem Clean.not_idle_of_mem_segments {r : Route} (hr : r.Clean) {s : String}
    (hs : s ∈ r.segments) : isIdle s = false := by
  rcases List.mem_append.mp hs with hs | hs
  · rw [List.eq_of_mem_replicate hs]
    decide
  · exact (hr s hs).not_idle

theorem Clean.map_stepOf_segments {r : Route} (hr : r.Clean) : r.segments.map stepOf = r.steps := by
  rw [segments, steps, List.map_append, List.map_replicate, Path.map_stepOf_of_isName hr]
  rfl

theorem Clean.stepsOf_segments {r : Route} (hr : r.Clean) : stepsOf r.segments = r.steps := by
  rw [Path.stepsOf_eq_map fun _ => hr.not_idle_of_mem_segments, hr.map_stepOf_segments]

/-- Further segments behind a collapsed path take their steps after it. -/
theorem Clean.components_ofBody_append {r : Route} (hr : r.Clean) (absolute : Bool)
    (hne : r.segments ≠ []) {segs : List String} (h : ∀ s ∈ segs, '/' ∉ s.toList) :
    (Path.ofBody absolute (r.segments ++ segs)).components =
      rootSteps absolute ++ r.steps ++ stepsOf segs := by
  have hsplit : Text.split '/' (Text.join '/' (r.segments ++ segs)) = r.segments ++ segs := by
    apply Text.split_join (List.append_ne_nil_of_left_ne_nil hne segs)
    intro s hs
    exact (List.mem_append.mp hs).elim hr.whole_of_mem_segments (h s)
  have hsteps : stepsOf (r.segments ++ segs) = r.steps ++ stepsOf segs := by
    rw [Path.stepsOf_append, hr.stepsOf_segments]
  cases absolute with
  | true =>
      have habs : (Path.ofBody true (r.segments ++ segs)).isAbsolute = true := by
        simp [Path.isAbsolute, Path.ofBody, Text.hasPrefix]
      rw [Path.components, habs, if_pos rfl, Path.segments_ofBody_true, hsplit,
        Path.stepsOf_cons_of_isIdle (by decide), hsteps]
      rfl
  | false =>
      obtain ⟨first, rest, hfirst⟩ := List.exists_cons_of_ne_nil hne
      have hsegs : (Path.ofBody false (r.segments ++ segs)).segments = first :: (rest ++ segs) := by
        rw [Path.segments_ofBody_false, hsplit, hfirst, List.cons_append]
      have hbusy : isIdle first = false :=
        hr.not_idle_of_mem_segments (hfirst ▸ List.mem_cons_self)
      rw [Path.components_of_not_isIdle hsegs hbusy, ← List.cons_append, ← hfirst, hsteps]
      rfl

/-- A collapsed path consists of its root and the steps of its route. -/
theorem Clean.components_ofBody {r : Route} (hr : r.Clean) (absolute : Bool) :
    (Path.ofBody absolute r.segments).components = rootSteps absolute ++ r.steps := by
  by_cases hne : r.segments = []
  · have hsteps : r.steps = [] := by
      rw [← hr.stepsOf_segments, hne]
      rfl
    rw [hne, hsteps]
    cases absolute <;> rfl
  · have h : (Path.ofBody absolute (r.segments ++ [])).components =
        rootSteps absolute ++ r.steps ++ stepsOf [] :=
      hr.components_ofBody_append absolute hne nofun
    simpa [stepsOf] using h

/-- The climbs and names of a route that ends in a name begin those of another one exactly
when both climb equally far and the names do. -/
theorem steps_prefix_iff {r s : Route} (hne : r.names ≠ []) :
    r.steps <+: s.steps ↔ r.ups = s.ups ∧ r.names <+: s.names := by
  obtain ⟨u, names⟩ := r
  obtain ⟨v, others⟩ := s
  have hinj : Function.Injective Component.name := fun _ _ => Component.name.inj
  simp only [steps]
  induction u generalizing v with
  | zero =>
      cases v with
      | zero => simpa using List.prefix_map_iff_of_injective hinj
      | succ v =>
          obtain ⟨a, rest, rfl⟩ := List.exists_cons_of_ne_nil hne
          simp [List.replicate_succ, List.cons_prefix_cons]
  | succ u ih =>
      cases v with
      | zero => cases others <;> simp [List.replicate_succ, List.cons_prefix_cons]
      | succ v =>
          simp only [List.replicate_succ, List.cons_append, List.cons_prefix_cons, true_and,
            ih hne, Nat.succ_inj]

end Route

namespace Path

/-- A collapsed path that ends in a name encloses those that climb equally far and go through
its names. -/
theorem encloses_ofBody_iff (absolute : Bool) {r s : Route} (hr : r.Clean) (hs : s.Clean)
    (hne : r.names ≠ []) :
    (ofBody absolute r.segments).Encloses (ofBody absolute s.segments) ↔
      r.ups = s.ups ∧ r.names <+: s.names := by
  rw [Encloses, hr.components_ofBody, hs.components_ofBody, List.prefix_append_right_inj,
    Route.steps_prefix_iff hne]

end Path

end ModuleGraph
