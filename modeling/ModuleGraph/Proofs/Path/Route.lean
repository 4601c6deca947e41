import ModuleGraph.Path.Route

/-!
# Ways between directories

Main statements: `follow_relativeTo` and `follow_split_render`. The way from one route to
another leads there when it is followed, and so does its canonical spelling.

## Implementation notes

Following segments never takes back a climb, so a target that was reached from a base climbs
at least as far as the base. This is what a way from the base needs, since no segment leads
back down through a climb.
-/

namespace ModuleGraph

namespace Path

/-- A segment by which one goes down into something: it is not idle, it is no climb, and no
slash is in it. -/
structure IsName (s : String) : Prop where
  not_idle : isIdle s = false
  ne_up : s ≠ ".."
  whole : '/' ∉ s.toList

end Path

namespace Route

open ModuleGraph.Path (IsName)

/-- All names of the route are names. -/
def Clean (r : Route) : Prop := ∀ s ∈ r.names, IsName s

theorem clean_stay : stay.Clean := by
  intro s hs
  cases hs

/-- No segment of a clean route has a slash in it. -/
theorem Clean.whole_of_mem_segments {r : Route} (hr : r.Clean) {s : String}
    (hs : s ∈ r.segments) : '/' ∉ s.toList := by
  rcases List.mem_append.mp hs with hs | hs
  · rw [List.eq_of_mem_replicate hs]
    decide
  · exact (hr s hs).whole

theorem step_of_isIdle (r : Route) {s : String} (h : Path.isIdle s = true) : r.step s = r := by
  simp [step, h]

theorem step_up (r : Route) :
    r.step ".." = ⟨r.ups + (1 - r.names.length), r.names.dropLast⟩ := by
  have hidle : Path.isIdle ".." = false := by decide
  cases hr : r.names with
  | nil => simp [step, hidle, hr]
  | cons a rest => simp [step, hidle, hr]

theorem step_of_isName (r : Route) {s : String} (h : IsName s) :
    r.step s = ⟨r.ups, r.names ++ [s]⟩ := by
  simp [step, h.not_idle, h.ne_up]

/-- A segment is idle, a climb or a name. -/
theorem isIdle_or_eq_up_or_isName {s : String} (h : '/' ∉ s.toList) :
    Path.isIdle s = true ∨ s = ".." ∨ IsName s := by
  by_cases hidle : Path.isIdle s = true
  · exact Or.inl hidle
  · by_cases hup : s = ".."
    · exact Or.inr (Or.inl hup)
    · exact Or.inr (Or.inr ⟨Bool.eq_false_iff.mpr hidle, hup, h⟩)

theorem Clean.step {r : Route} (hr : r.Clean) {s : String} (hs : '/' ∉ s.toList) :
    (r.step s).Clean := by
  rcases isIdle_or_eq_up_or_isName hs with h | rfl | h
  · rwa [step_of_isIdle r h]
  · rw [step_up]
    intro t ht
    exact hr t (List.dropLast_subset _ ht)
  · rw [step_of_isName r h]
    intro t ht
    rcases List.mem_append.mp ht with ht | ht
    · exact hr t ht
    · exact List.mem_singleton.mp ht ▸ h

theorem Clean.follow {r : Route} (hr : r.Clean) {segs : List String}
    (h : ∀ s ∈ segs, '/' ∉ s.toList) : (r.follow segs).Clean := by
  induction segs generalizing r with
  | nil => exact hr
  | cons s rest ih =>
      rw [follow_cons]
      exact ih (hr.step (h s List.mem_cons_self)) fun t ht => h t (List.mem_cons_of_mem s ht)

/-- A text leads from clean routes to clean ones. -/
theorem Clean.follow_split {r : Route} (hr : r.Clean) (text : String) :
    (r.follow (Text.split '/' text)).Clean :=
  hr.follow fun _ => Text.not_mem_of_mem_split

theorem ups_le_ups_step (r : Route) (s : String) : r.ups ≤ (r.step s).ups := by
  unfold step
  split
  · exact Nat.le_refl _
  · split
    · split
      · exact Nat.le_succ _
      · exact Nat.le_refl _
    · exact Nat.le_refl _

/-- No climb is taken back. -/
theorem ups_le_ups_follow (r : Route) (segs : List String) : r.ups ≤ (r.follow segs).ups := by
  induction segs generalizing r with
  | nil => exact Nat.le_refl _
  | cons s rest ih =>
      calc
        r.ups ≤ (r.step s).ups := ups_le_ups_step r s
        _ ≤ ((r.step s).follow rest).ups := ih (r.step s)

/-- Climbs take back names from the end and go on above the first one. -/
theorem follow_replicate_up (r : Route) (k : Nat) :
    r.follow (List.replicate k "..") =
      ⟨r.ups + (k - r.names.length), r.names.take (r.names.length - k)⟩ := by
  induction k generalizing r with
  | zero => simp
  | succ k ih =>
      rw [List.replicate_succ, follow_cons, ih, step_up, List.dropLast_eq_take,
        List.length_take, List.take_take]
      simp only [mk.injEq]
      constructor
      · omega
      · congr 1
        omega

/-- Names are written behind the others. -/
theorem follow_of_isName (r : Route) {names : List String} (h : ∀ s ∈ names, IsName s) :
    r.follow names = ⟨r.ups, r.names ++ names⟩ := by
  induction names generalizing r with
  | nil => simp
  | cons s rest ih =>
      rw [follow_cons, step_of_isName r (h s List.mem_cons_self),
        ih _ fun t ht => h t (List.mem_cons_of_mem s ht)]
      simp

/-- What following a route does: its climbs take back names first. -/
theorem follow_segments (base : Route) {r : Route} (hr : r.Clean) :
    base.follow r.segments =
      ⟨base.ups + (r.ups - base.names.length),
        base.names.take (base.names.length - r.ups) ++ r.names⟩ := by
  rw [segments, follow_append, follow_replicate_up, follow_of_isName _ hr]

/-- A route is what following it from nowhere gives. -/
theorem follow_stay_segments {r : Route} (hr : r.Clean) : stay.follow r.segments = r := by
  rw [follow_segments stay hr]
  simp [stay]

/-- A climb takes back the name that was entered last. -/
theorem step_up_step (r : Route) {s : String} (h : IsName s) : (r.step s).step ".." = r := by
  rw [step_of_isName r h, step_up]
  simp

/-- One more segment is followed from wherever the route begins. -/
theorem follow_segments_step (base : Route) {r : Route} (hr : r.Clean) {s : String}
    (hs : '/' ∉ s.toList) :
    base.follow (r.step s).segments = (base.follow r.segments).step s := by
  rcases isIdle_or_eq_up_or_isName hs with h | rfl | h
  · rw [step_of_isIdle _ h, step_of_isIdle _ h]
  · rcases r.names.eq_nil_or_concat with hnil | ⟨init, last, hlast⟩
    · have hstep : (r.step "..").segments = r.segments ++ [".."] := by
        rw [step_up, segments, segments, hnil]
        simp [List.replicate_succ']
      rw [hstep, follow_append]
      rfl
    · have hsegs : r.segments = (r.step "..").segments ++ [last] := by
        rw [step_up, segments, segments, hlast]
        simp
      have hname : IsName last := hr last (by rw [hlast]; simp)
      rw [hsegs, follow_append, follow_cons, follow_nil, step_up_step _ hname]
  · have hstep : (r.step s).segments = r.segments ++ [s] := by
      rw [step_of_isName r h, segments, segments, List.append_assoc]
    rw [hstep, follow_append]
    rfl

/-- Segments are followed from wherever the route begins. -/
theorem follow_segments_follow (base : Route) {r : Route} (hr : r.Clean) {segs : List String}
    (h : ∀ s ∈ segs, '/' ∉ s.toList) :
    base.follow (r.follow segs).segments = (base.follow r.segments).follow segs := by
  induction segs generalizing r with
  | nil => rfl
  | cons s rest ih =>
      have hs := h s List.mem_cons_self
      rw [follow_cons, follow_cons, ih (hr.step hs) fun t ht => h t (List.mem_cons_of_mem s ht),
        follow_segments_step base hr hs]

theorem sharedLength_le_left (xs ys : List String) : sharedLength xs ys ≤ xs.length := by
  fun_induction sharedLength xs ys with
  | case1 a as bs ih => simpa using ih
  | case2 => exact Nat.zero_le _
  | case3 => exact Nat.zero_le _

theorem take_sharedLength (xs ys : List String) :
    xs.take (sharedLength xs ys) = ys.take (sharedLength xs ys) := by
  fun_induction sharedLength xs ys with
  | case1 a as bs ih => rw [List.take_succ_cons, List.take_succ_cons, ih]
  | case2 => rfl
  | case3 => simp

/-- The way from `base` to `target` leads there. -/
theorem follow_relativeTo {base target : Route} (hups : base.ups ≤ target.ups)
    (htarget : target.Clean) : base.follow (base.relativeTo target).segments = target := by
  unfold relativeTo
  split
  · rename_i heq
    have hle := sharedLength_le_left base.names target.names
    have htake := take_sharedLength base.names target.names
    generalize sharedLength base.names target.names = shared at hle htake
    have hclean : (⟨base.names.length - shared, target.names.drop shared⟩ : Route).Clean :=
      fun s hs => htarget s (List.mem_of_mem_drop hs)
    have hback : base.names.length - (base.names.length - shared) = shared := by omega
    have hnone : base.names.length - shared - base.names.length = 0 := by omega
    rw [follow_segments base hclean, hback, hnone, htake, List.take_append_drop, heq,
      Nat.add_zero]
  · -- the climbs of `base` are not shared by a target that climbs further, its names are not
    have hclean : (⟨base.names.length + (target.ups - base.ups), target.names⟩ : Route).Clean :=
      htarget
    have hback : base.names.length - (base.names.length + (target.ups - base.ups)) = 0 := by
      omega
    have hups' : base.ups + (base.names.length + (target.ups - base.ups) - base.names.length) =
        target.ups := by
      omega
    rw [follow_segments base hclean, hback, hups', List.take_zero, List.nil_append]

theorem Clean.relativeTo {target : Route} (h : target.Clean) (base : Route) :
    (base.relativeTo target).Clean := by
  unfold Route.relativeTo
  split
  · exact fun s hs => h s (List.mem_of_mem_drop hs)
  · exact h

/-- Joined names lead where the names lead, also when there are none. -/
theorem follow_split_join (base : Route) {segs : List String} (h : ∀ s ∈ segs, '/' ∉ s.toList) :
    base.follow (Text.split '/' (Text.join '/' segs)) = base.follow segs := by
  by_cases hne : segs = []
  · subst hne
    rw [Text.split_join_nil, follow_cons, step_of_isIdle base (by decide)]
  · rw [Text.split_join hne h]

theorem split_climbs_append (k : Nat) (t : String) :
    Text.split '/' (String.join (List.replicate k "../") ++ t) =
      List.replicate k ".." ++ Text.split '/' t := by
  induction k with
  | zero => simp
  | succ k ih =>
      have hcut : String.join (List.replicate (k + 1) "../") ++ t =
          ".." ++ String.singleton '/' ++ (String.join (List.replicate k "../") ++ t) := by
        rw [List.replicate_succ, String.join_cons, String.append_assoc]
        rfl
      have hup : Text.split '/' ".." = [".."] := by decide
      rw [hcut, Text.split_append_singleton, ih, hup, List.replicate_succ]
      rfl

/-- The canonical spelling of a route leads where the route leads. -/
theorem follow_split_render (base : Route) {r : Route} (hr : r.Clean) :
    base.follow (Text.split '/' r.render) = base.follow r.segments := by
  have hwhole : ∀ s ∈ r.names, '/' ∉ s.toList := fun s hs => (hr s hs).whole
  unfold render segments
  split
  · rename_i hzero
    have hdot : Text.split '/' "." = ["."] := by decide
    have hcut : "./" ++ Text.join '/' r.names =
        "." ++ String.singleton '/' ++ Text.join '/' r.names := rfl
    rw [hcut, Text.split_append_singleton, hdot, hzero, follow_append, follow_cons,
      step_of_isIdle base (by decide), follow_nil, follow_split_join base hwhole]
    rfl
  · rw [split_climbs_append, follow_append, follow_append, follow_split_join _ hwhole]

end Route

end ModuleGraph
