import ModuleGraph.Path.Absolute
import ModuleGraph.Proofs.Path.Directory

/-!
# Paths below a root

Main statements: `SpelledBelow.below?_eq`, `SpelledBelow.normal` and `below?_normal_eq_none`. A
path that is spelled as its root and names after it is found below the root by these names. Its
collapsed spelling is found there by the same names when the root goes straight, and not at all
otherwise.

## Implementation notes

Below a root only the steps of the root count and not their spelling, so a path is described
by any segments that take the steps of its root, and the names after them.
-/

namespace ModuleGraph

namespace Path

variable {root p : Path} {names : List String}

theorem trimEnd_of_isName (h : ∀ s ∈ names, IsName s) : trimEnd names = names := by
  rcases names.eq_nil_or_concat with rfl | ⟨init, s, rfl⟩
  · rfl
  · rw [List.concat_eq_append] at h ⊢
    exact trimEnd_concat init (h s (by simp)).not_idle

theorem dropSteps_cons_of_isIdle {s : String} (h : isIdle s = true) (n : Nat)
    (segs : List String) : dropSteps n (s :: segs) = dropSteps n segs := by
  cases n with
  | zero => simp [dropSteps, h]
  | succ n => simp [dropSteps, h]

/-- Dropping the steps before names leaves the names. -/
theorem dropSteps_append (lead : List String) (h : ∀ s ∈ names, IsName s) :
    dropSteps (stepsOf lead).length (lead ++ names) = names := by
  induction lead with
  | nil =>
      cases names with
      | nil => rfl
      | cons s rest => simp [stepsOf, dropSteps, (h s List.mem_cons_self).not_idle]
  | cons s rest ih =>
      cases hidle : isIdle s with
      | true =>
          rw [stepsOf_cons_of_isIdle hidle, List.cons_append, dropSteps_cons_of_isIdle hidle, ih]
      | false =>
          rw [stepsOf_cons_of_not_isIdle hidle, List.length_cons, List.cons_append, dropSteps,
            hidle, if_neg Bool.false_ne_true, ih]

/-- The path is spelled from the root on, by segments that take the steps of `root` and then by
`names`. -/
structure SpelledBelow (root : Path) (names : List String) (p : Path) : Prop where
  isAbsolute_root : root.isAbsolute = true
  isAbsolute : p.isAbsolute = true
  isName : ∀ s ∈ names, IsName s
  segments : ∃ lead, p.segments = lead ++ names ∧ stepsOf lead = stepsOf root.segments

namespace SpelledBelow

theorem components (h : SpelledBelow root names p) :
    p.components = root.components ++ names.map .name := by
  obtain ⟨lead, hsegs, hlead⟩ := h.segments
  rw [components_of_isAbsolute h.isAbsolute, components_of_isAbsolute h.isAbsolute_root, hsegs,
    stepsOf_append, hlead, stepsOf_of_isName h.isName]
  rfl

/-- The path is found below the root by its names. -/
theorem below?_eq (h : SpelledBelow root names p) :
    root.below? p = some ⟨Text.join '/' names⟩ := by
  obtain ⟨lead, hsegs, hlead⟩ := h.segments
  have hprefix : root.components.isPrefixOf p.components = true := by
    rw [List.isPrefixOf_iff_prefix, h.components]
    exact List.prefix_append _ _
  have hsteps : root.components.length - 1 = (stepsOf lead).length := by
    rw [components_of_isAbsolute h.isAbsolute_root, hlead]
    rfl
  have htext : ofBody false names = ⟨Text.join '/' names⟩ := by simp [ofBody]
  simp only [below?, hprefix, h.isAbsolute, if_true, hsteps, hsegs,
    dropSteps_append lead h.isName, trimEnd_of_isName h.isName, htext]

/-- Names are never taken back by names. -/
theorem straight_iff (h : SpelledBelow root names p) : p.Straight ↔ root.Straight := by
  rw [Straight, h.components, List.pairwise_append]
  constructor
  · exact fun hp => hp.1
  · intro hroot
    refine ⟨hroot, Component.pairwise_keptBy_map_name names, fun c _ e he => ?_⟩
    obtain ⟨s, _, rfl⟩ := List.mem_map.mp he
    exact c.keptBy_name s

/-- The route of the path is the one of its root with the names behind it. -/
theorem route_eq (h : SpelledBelow root names p) :
    p.route = ⟨root.route.ups, root.route.names ++ names⟩ := by
  obtain ⟨lead, hsegs, hlead⟩ := h.segments
  have hroute : Route.stay.follow lead = root.route := Route.stay.follow_eq_of_stepsOf_eq hlead
  rw [route, hsegs, Route.follow_append, hroute, Route.follow_of_isName _ h.isName]

/-- Below a root that goes straight a path keeps its names when it is collapsed. -/
theorem normal (h : SpelledBelow root names p) (hroot : root.Straight) :
    SpelledBelow root names p.normal := by
  have habs : p.normal.isAbsolute = true := (isAbsolute_normal p).trans h.isAbsolute
  refine ⟨h.isAbsolute_root, habs, h.isName, ?_⟩
  -- only a route with a name in it is sure to be spelled by its own segments
  by_cases hnil : names = []
  · subst hnil
    have hnormal := (straight_iff_components_normal h.isAbsolute).mp (h.straight_iff.mpr hroot)
    rw [h.components, List.map_nil, List.append_nil, components_of_isAbsolute habs,
      components_of_isAbsolute h.isAbsolute_root] at hnormal
    exact ⟨p.normal.segments, (List.append_nil _).symm, (List.cons.inj hnormal).2⟩
  · have hsegs : p.route.segments = root.route.segments ++ names := by
      rw [h.route_eq, Route.segments, Route.segments, List.append_assoc]
    have hne : p.route.segments ≠ [] := by simp [hsegs, hnil]
    have hnormal := (straight_iff_components_normal h.isAbsolute_root).mp hroot
    rw [components_normal h.isAbsolute_root, components_of_isAbsolute h.isAbsolute_root] at hnormal
    refine ⟨"" :: root.route.segments, ?_, ?_⟩
    · rw [normal_eq, h.isAbsolute, segments_ofBody_true,
        Text.split_join hne fun _ => p.clean_route.whole_of_mem_segments, hsegs]
      rfl
    · rw [stepsOf_cons_of_isIdle (by decide), root.clean_route.stepsOf_segments]
      exact (List.cons.inj hnormal).2

end SpelledBelow

/-- Nothing that is collapsed lies below a root in which a climb takes back a name. -/
theorem below?_normal_eq_none (h : p.isAbsolute = true) (hroot : ¬ root.Straight) :
    root.below? p.normal = none := by
  refine if_neg fun hprefix => hroot ?_
  exact (straight_normal h).sublist (List.isPrefixOf_iff_prefix.mp hprefix).sublist

/-- Names do not begin at the root. -/
theorem isAbsolute_join_of_isName (h : ∀ s ∈ names, IsName s) :
    (⟨Text.join '/' names⟩ : Path).isAbsolute = false := by
  have hbody := isAbsolute_ofBody false (r := ⟨0, names⟩) h
  simpa [ofBody, Route.segments] using hbody

theorem isAbsolute_append (h : p.isAbsolute = true) (text : String) :
    (⟨p.text ++ text⟩ : Path).isAbsolute = true := by
  rw [isAbsolute, Text.hasPrefix, List.isPrefixOf_iff_prefix] at h ⊢
  rw [String.toList_append]
  exact h.trans (List.prefix_append _ _)

/-- What is read from an absolute directory is absolute. -/
theorem isAbsolute_join (h : p.isAbsolute = true) (q : Path) : (p.join q).isAbsolute = true := by
  unfold join
  split
  · assumption
  · split
    · exact isAbsolute_append h q.text
    · rw [String.append_assoc]
      exact isAbsolute_append h _

theorem isAbsolute_foldl_join (h : p.isAbsolute = true) (steps : List Component) :
    (steps.foldl (fun q c => q.join ⟨c.text⟩) p).isAbsolute = true := by
  induction steps generalizing p with
  | nil => exact h
  | cons c rest ih => exact ih (isAbsolute_join h _)

/-- An absolute spelling is absolute if the directory is from which it is read. -/
theorem isAbsolute_absolute {directory : Path} (h : directory.isAbsolute = true) (p : Path) :
    (p.absolute directory).isAbsolute = true := by
  unfold absolute
  extract_lets doubled start steps spelled
  have hstart : start.isAbsolute = true := by
    unfold start
    split
    · rfl
    · split
      · rfl
      · exact h
  have hspelled : spelled.isAbsolute = true :=
    isAbsolute_foldl_join hstart steps
  split
  · exact isAbsolute_join hspelled empty
  · exact hspelled

/-- The path to which names lead down from `root`. -/
def descend (root : Path) (names : List String) : Path :=
  if names = [] then root else root.join ⟨Text.join '/' names⟩

/-- The segments of a directory take its steps when something is read from it. -/
theorem exists_segments_join (root : Path) {q : Path} (hq : q.isAbsolute = false) :
    ∃ lead, (root.join q).segments = lead ++ q.segments ∧ stepsOf lead = stepsOf root.segments := by
  have hslash : String.singleton '/' = "/" := rfl
  unfold join
  rw [if_neg (by simp [hq])]
  by_cases hempty : root.text = ""
  · refine ⟨[], ?_, ?_⟩
    · rw [if_pos (by simp [hempty]), hempty, String.empty_append]
      rfl
    · rw [segments, hempty, Text.split_empty]
      rfl
  · by_cases hend : Text.hasSuffix "/" root.text = true
    · obtain ⟨init, hinit⟩ := List.isSuffixOf_iff_suffix.mp hend
      have htext : root.text = String.ofList init ++ "/" := by
        rw [← String.toList_inj, ← hinit]
        simp
      have hcut := Text.split_append_singleton '/' (String.ofList init) ""
      rw [hslash, String.append_empty, ← htext, Text.split_empty] at hcut
      refine ⟨Text.split '/' (String.ofList init), ?_, ?_⟩
      · rw [if_pos (by simp [hend]), segments, htext, ← hslash, Text.split_append_singleton]
        rfl
      · rw [segments, hcut, stepsOf_append]
        simp [stepsOf, isIdle]
    · refine ⟨root.segments, ?_, rfl⟩
      rw [if_neg (by simp [hend, hempty]), segments, ← hslash, Text.split_append_singleton]
      rfl

theorem spelledBelow_descend (hroot : root.isAbsolute = true) (h : ∀ s ∈ names, IsName s) :
    SpelledBelow root names (root.descend names) := by
  unfold descend
  split
  · rename_i hnil
    subst hnil
    exact ⟨hroot, hroot, h, root.segments, (List.append_nil _).symm, rfl⟩
  · rename_i hne
    refine ⟨hroot, isAbsolute_join hroot _, h, ?_⟩
    obtain ⟨lead, hsegs, hlead⟩ := exists_segments_join root (isAbsolute_join_of_isName h)
    refine ⟨lead, ?_, hlead⟩
    rw [hsegs, segments, Text.split_join hne fun s hs => (h s hs).whole]

/-- A path that ends in a name lies below its directory. -/
theorem spelledBelow_directory (habs : p.isAbsolute = true) {init : List String} {s : String}
    (hsegs : p.segments = init ++ [s]) (hs : IsName s) : SpelledBelow p.directory [s] p := by
  obtain ⟨segs, hdirectory, _⟩ := exists_directory_eq hsegs hs nofun
  refine ⟨?_, habs, fun t ht => List.mem_singleton.mp ht ▸ hs, init, hsegs, ?_⟩
  · rw [hdirectory, habs]
    simp [isAbsolute, ofBody, Text.hasPrefix]
  · exact (stepsOf_directory hsegs hs nofun).symm

end Path

end ModuleGraph
