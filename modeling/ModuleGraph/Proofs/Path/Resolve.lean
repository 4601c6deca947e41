import ModuleGraph.Path.Trail
import ModuleGraph.Proofs.Path.Route

/-!
# Resolved paths

Main statements: `resolve_eq` and `route_resolve`. A trail with its count of names and a route
describe the same walk, so a resolved path is spelled from the route that is followed. Resolved
paths are the same only when they are spelled alike.

## Implementation notes

The trail of a route has written its climbs and then its names, and counts the names. Every
step keeps this form, so the count is never larger than the names written after the climbs.
-/

namespace ModuleGraph

namespace Trail

/-- The trail that has written a route. -/
def ofRoute (r : Route) : Trail := ⟨r.segments, r.names.length⟩

theorem start_eq_ofRoute_stay : start = ofRoute Route.stay := rfl

theorem climb_ofRoute (r : Route) : (ofRoute r).climb = ofRoute (r.step "..") := by
  rw [Route.step_up]
  cases hr : r.names with
  | nil => simp [climb, ofRoute, Route.segments, hr, List.replicate_succ']
  | cons a rest =>
      have hdrop : (List.replicate r.ups ".." ++ a :: rest).dropLast =
          List.replicate r.ups ".." ++ (a :: rest).dropLast :=
        List.dropLast_append_of_ne_nil (List.cons_ne_nil a rest)
      simp [climb, ofRoute, Route.segments, hr, hdrop]

theorem enter_ofRoute (r : Route) (s : String) :
    (ofRoute r).enter s = ofRoute ⟨r.ups, r.names ++ [s]⟩ := by
  simp [enter, ofRoute, Route.segments]

/-- The steps of some segments are walked as the segments are followed. -/
theorem walk_stepsOf (r : Route) (segs : List String) :
    (ofRoute r).walk (Path.stepsOf segs) = ofRoute (r.follow segs) := by
  induction segs generalizing r with
  | nil => rfl
  | cons s rest ih =>
      rw [Route.follow_cons]
      by_cases hidle : Path.isIdle s = true
      · rw [Route.step_of_isIdle r hidle, ← ih]
        simp [Path.stepsOf, hidle]
      · have hcons : Path.stepsOf (s :: rest) = Path.stepOf s :: Path.stepsOf rest := by
          simp [Path.stepsOf, hidle]
        rw [hcons, walk, List.foldl_cons]
        change ((ofRoute r).step (Path.stepOf s)).walk (Path.stepsOf rest) = _
        rw [← ih]
        congr 1
        by_cases hup : s = ".."
        · subst hup
          exact climb_ofRoute r
        · have hstep : r.step s = ⟨r.ups, r.names ++ [s]⟩ := by
            simp [Route.step, hidle, hup]
          rw [hstep, Path.stepOf, if_neg hup]
          exact enter_ofRoute r s

theorem walk_append (t : Trail) (cs ds : List Component) :
    t.walk (cs ++ ds) = (t.walk cs).walk ds :=
  List.foldl_append

/-- The steps of a path are walked as its segments are followed. -/
theorem walk_components (p : Path) : start.walk p.components = ofRoute p.route := by
  unfold Path.components Path.route
  rw [start_eq_ofRoute_stay]
  split
  · exact walk_stepsOf Route.stay p.segments
  · split
    · rename_i rest hsegs
      rw [hsegs, Route.follow_cons, Route.step_of_isIdle Route.stay (by decide)]
      exact walk_stepsOf Route.stay rest
    · exact walk_stepsOf Route.stay p.segments

theorem ofRoute_inj {r s : Route} : ofRoute r = ofRoute s ↔ r = s := by
  constructor
  · intro h
    obtain ⟨hsegs, hlen⟩ := Trail.mk.inj h
    have hups : r.ups = s.ups := by
      have := congrArg List.length hsegs
      simp only [Route.segments, List.length_append, List.length_replicate] at this
      omega
    have hnames : r.names = s.names := by
      rw [Route.segments, Route.segments, hups] at hsegs
      exact List.append_cancel_left hsegs
    cases r
    cases s
    simp_all
  · rintro rfl
    rfl

end Trail

/-- Segments that take the same steps are followed alike. -/
theorem Route.follow_eq_of_stepsOf_eq (r : Route) {xs ys : List String}
    (h : Path.stepsOf xs = Path.stepsOf ys) : r.follow xs = r.follow ys := by
  rw [← Trail.ofRoute_inj, ← Trail.walk_stepsOf, ← Trail.walk_stepsOf, h]

namespace Path

/-- A resolved path is spelled from the route of its base and the text that is followed. -/
theorem resolve_eq (base : Path) (relative : String) :
    base.resolve relative =
      ofBody base.isAbsolute (base.route.follow (Text.split '/' relative)).segments := by
  rw [resolve, Trail.walk_append, Trail.walk_components, Trail.walk_stepsOf]
  rfl

theorem clean_route (p : Path) : p.route.Clean :=
  Route.clean_stay.follow_split p.text

/-- The spelling of a route below the root or without one has that route. -/
theorem route_ofBody (absolute : Bool) {r : Route} (hr : r.Clean) :
    (ofBody absolute r.segments).route = r := by
  have hwhole : ∀ s ∈ r.segments, '/' ∉ s.toList := fun _ => hr.whole_of_mem_segments
  have hjoin : Route.stay.follow (Text.split '/' (Text.join '/' r.segments)) = r := by
    calc
      Route.stay.follow (Text.split '/' (Text.join '/' r.segments)) =
          Route.stay.follow r.segments := Route.follow_split_join _ hwhole
      _ = r := Route.follow_stay_segments hr
  unfold route segments ofBody
  cases absolute with
  | false => simpa using hjoin
  | true =>
      simp only [if_true]
      rw [Text.split_slash_append, Route.follow_cons,
        Route.step_of_isIdle Route.stay (by decide), hjoin]

theorem route_resolve (base : Path) (relative : String) :
    (base.resolve relative).route = base.route.follow (Text.split '/' relative) := by
  rw [resolve_eq]
  exact route_ofBody _ (base.clean_route.follow_split relative)

/-- Two texts lead from a directory to one path when they lead along one route. -/
theorem resolve_eq_iff {base : Path} {x y : String} :
    base.resolve x = base.resolve y ↔
      base.route.follow (Text.split '/' x) = base.route.follow (Text.split '/' y) := by
  constructor
  · intro h
    rw [← route_resolve, ← route_resolve, h]
  · intro h
    rw [resolve_eq, resolve_eq, h]

/-- Paths with the same steps have one route. -/
theorem route_eq_of_same {p q : Path} (h : p.same q = true) : p.route = q.route := by
  rw [← Trail.ofRoute_inj, ← Trail.walk_components, ← Trail.walk_components, same_iff.mp h]

end Path

end ModuleGraph
