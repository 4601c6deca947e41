import Mathlib.Data.List.Induction
import ModuleGraph.Proofs.Path.Straight

/-!
# The directory of a file

Main statements: `stepsOf_directory` and `isAbsolute_parent?`. The directory of a path that ends in
a name takes the steps before the name, and it begins at the root exactly when the path does.

## Implementation notes

The text of a directory is cut off its file without being collapsed, and the idle segments in
front of the name are cut off with it. So only the steps of the two are compared.
-/

namespace ModuleGraph.Path

variable {p : Path} {names : List String}

/-- Idle segments at the end are trimmed. -/
theorem trimEnd_append (segs : List String) {tail : List String}
    (h : ∀ t ∈ tail, isIdle t = true) : trimEnd (segs ++ tail) = trimEnd segs := by
  induction segs with
  | nil =>
      induction tail with
      | nil => rfl
      | cons t rest ih =>
          have hrest : trimEnd rest = [] := ih fun u hu => h u (List.mem_cons_of_mem t hu)
          simp [trimEnd, hrest, h t List.mem_cons_self]
  | cons s rest ih => rw [List.cons_append, trimEnd, trimEnd, ih]

/-- The last segment of a path is kept if it is not idle. -/
theorem trimEnd_concat (segs : List String) {s : String} (h : isIdle s = false) :
    trimEnd (segs ++ [s]) = segs ++ [s] := by
  induction segs with
  | nil => simp [trimEnd, h]
  | cons t rest ih =>
      rw [List.cons_append, trimEnd, ih]
      cases rest <;> rfl

/-- What is trimmed takes no steps. -/
theorem stepsOf_trimEnd (segs : List String) : stepsOf (trimEnd segs) = stepsOf segs := by
  induction segs with
  | nil => rfl
  | cons s rest ih =>
      rw [trimEnd, stepsOf_cons s rest, ← ih]
      split
      · rename_i hnil
        rw [hnil]
        split
        · rename_i hidle
          rw [stepsOf_cons_of_isIdle hidle]
          rfl
        · exact (List.append_nil _).symm
      · exact stepsOf_cons s _

theorem trimEnd_isPrefix (segs : List String) : trimEnd segs <+: segs := by
  induction segs with
  | nil => exact List.prefix_rfl
  | cons s rest ih =>
      rw [trimEnd]
      split
      · split
        · exact List.nil_prefix
        · exact List.cons_prefix_cons.mpr ⟨rfl, List.nil_prefix⟩
      · exact List.cons_prefix_cons.mpr ⟨rfl, ih⟩

/-- The segments of a relative path without the idle ones they end in; a leading dot stays. -/
def trimRelative : List String → List String
  | "." :: rest => "." :: trimEnd rest
  | segs => trimEnd segs

theorem trimRelative_of_ne {segs : List String} (h : ∀ rest, segs ≠ "." :: rest) :
    trimRelative segs = trimEnd segs := by
  unfold trimRelative
  split
  · exact absurd rfl (h _)
  · rfl

theorem stepsOf_trimRelative (segs : List String) :
    stepsOf (trimRelative segs) = stepsOf segs := by
  unfold trimRelative
  split
  · rename_i rest
    rw [stepsOf_cons, stepsOf_trimEnd, ← stepsOf_cons]
  · exact stepsOf_trimEnd segs

theorem trimRelative_isPrefix (segs : List String) : trimRelative segs <+: segs := by
  unfold trimRelative
  split
  · exact List.cons_prefix_cons.mpr ⟨rfl, trimEnd_isPrefix _⟩
  · exact trimEnd_isPrefix segs

/-- A name and what stands before it are kept. -/
theorem trimEnd_append_cons (init : List String) {s : String} (hs : IsName s)
    {tail : List String} (h : ∀ t ∈ tail, isIdle t = true) :
    trimEnd (init ++ s :: tail) = init ++ [s] := by
  rw [List.append_cons, trimEnd_append _ h, trimEnd_concat init hs.not_idle]

theorem trimRelative_append_cons (init : List String) {s : String} (hs : IsName s)
    {tail : List String} (h : ∀ t ∈ tail, isIdle t = true) :
    trimRelative (init ++ s :: tail) = init ++ [s] := by
  cases init with
  | nil =>
      have hdot : s ≠ "." := by
        rintro rfl
        cases hs.not_idle
      unfold trimRelative
      split
      · rename_i rest heq
        exact absurd (List.cons.inj heq).1 hdot
      · exact trimEnd_append_cons [] hs h
  | cons a more =>
      unfold trimRelative
      split
      · rename_i rest heq
        obtain ⟨rfl, rfl⟩ := List.cons.inj heq
        exact congrArg (List.cons ".") (trimEnd_append_cons more hs h)
      · exact trimEnd_append_cons (a :: more) hs h

/-- The text of a path that is not empty begins with its first segment. -/
theorem ne_empty_of_segments_eq (hp : p.isAbsolute = false) {first second : String}
    {rest : List String} (h : p.segments = first :: second :: rest) : first ≠ "" := by
  rintro rfl
  have htext : p.text = Text.join '/' ("" :: second :: rest) := by
    rw [← h, segments, Text.join_split]
  have habs : p.isAbsolute = true := by
    rw [isAbsolute, Text.hasPrefix, htext, Text.toList_join]
    simp [List.intercalate]
  rw [hp] at habs
  cases habs

/-- What begins as a relative path does is relative. -/
theorem isAbsolute_ofBody_of_isPrefix (hp : p.isAbsolute = false) {segs : List String}
    (h : segs <+: p.segments) : (ofBody false segs).isAbsolute = false := by
  apply Bool.eq_false_iff.mpr
  intro habs
  obtain ⟨rest, hne, hsegs⟩ := exists_segments_eq_of_isAbsolute habs
  rw [segments_ofBody_false] at hsegs
  by_cases hnil : segs = []
  · rw [hnil, Text.split_join_nil] at hsegs
    exact hne (List.cons.inj hsegs).2.symm
  · rw [Text.split_join hnil fun s hs => Text.not_mem_of_mem_split (h.subset hs)] at hsegs
    obtain ⟨second, more, rfl⟩ := List.exists_cons_of_ne_nil hne
    obtain ⟨after, hafter⟩ := h
    rw [hsegs] at hafter
    exact ne_empty_of_segments_eq hp hafter.symm rfl

theorem body_of_isAbsolute (h : p.isAbsolute = true) : p.body = trimEnd p.segments.tail :=
  if_pos h

theorem body_of_relative (h : p.isAbsolute = false) : p.body = trimRelative p.segments :=
  if_neg (Bool.eq_false_iff.mp h)

theorem parent?_of_isAbsolute (h : p.isAbsolute = true) :
    p.parent? = if p.body = [] then none else some (ofBody true (trimEnd p.body.dropLast)) := by
  unfold parent?
  split
  · rename_i hnil
    rw [if_pos hnil]
  · rename_i hne
    rw [if_neg hne]
    dsimp only
    split
    · rw [h]
      rfl
    · rw [h]

theorem parent?_of_relative (h : p.isAbsolute = false) :
    p.parent? =
      if p.body = [] then none else some (ofBody false (trimRelative p.body.dropLast)) := by
  unfold parent?
  split
  · rename_i hnil
    rw [if_pos hnil]
  · rename_i hne
    rw [if_neg hne]
    dsimp only
    split
    · rename_i rest hdot
      rw [h, hdot]
      rfl
    · rename_i hdot
      rw [h, trimRelative_of_ne hdot]

/-- A directory begins at the root exactly when what lies in it does. -/
theorem isAbsolute_parent? {q : Path} (h : p.parent? = some q) :
    q.isAbsolute = p.isAbsolute := by
  cases hp : p.isAbsolute with
  | true =>
      rw [parent?_of_isAbsolute hp] at h
      split at h
      · cases h
      · cases h
        simp [isAbsolute, ofBody, Text.hasPrefix]
  | false =>
      rw [parent?_of_relative hp] at h
      split at h
      · cases h
      · cases h
        have hbody : p.body <+: p.segments := by
          rw [body_of_relative hp]
          exact trimRelative_isPrefix _
        exact isAbsolute_ofBody_of_isPrefix hp <|
          (trimRelative_isPrefix _).trans ((List.dropLast_prefix _).trans hbody)

theorem isAbsolute_directory_of_relative (h : p.isAbsolute = false) :
    p.directory.isAbsolute = false := by
  unfold directory
  cases hq : p.parent? with
  | none => rfl
  | some q => exact (isAbsolute_parent? hq).trans h

/-- The directory of a path that ends in a name is spelled by segments that take the steps before
the name. -/
theorem exists_directory_eq {init : List String} {s : String} {tail : List String}
    (hsegs : p.segments = init ++ s :: tail) (hs : IsName s)
    (htail : ∀ t ∈ tail, isIdle t = true) :
    ∃ segs, p.directory = ofBody p.isAbsolute segs ∧ segs ⊆ init ∧ stepsOf segs = stepsOf init := by
  cases hp : p.isAbsolute with
  | true =>
      obtain ⟨rest, _, hroot⟩ := exists_segments_eq_of_isAbsolute hp
      obtain ⟨more, rfl⟩ : ∃ more, init = "" :: more := by
        cases init with
        | nil =>
            rw [hsegs] at hroot
            cases (List.cons.inj hroot).1 ▸ hs.not_idle
        | cons a more =>
            rw [hsegs] at hroot
            exact ⟨more, by rw [(List.cons.inj hroot).1]⟩
      have hbody : p.body = more ++ [s] := by
        rw [body_of_isAbsolute hp, hsegs]
        exact trimEnd_append_cons more hs htail
      refine ⟨trimEnd more, ?_, ?_, ?_⟩
      · rw [directory, parent?_of_isAbsolute hp, hbody, if_neg (by simp), List.dropLast_concat]
        rfl
      · exact List.subset_cons_of_subset "" (trimEnd_isPrefix more).subset
      · rw [stepsOf_trimEnd, stepsOf_cons_of_isIdle (by decide)]
  | false =>
      have hbody : p.body = init ++ [s] := by
        rw [body_of_relative hp, hsegs, trimRelative_append_cons init hs htail]
      refine ⟨trimRelative init, ?_, ?_, stepsOf_trimRelative init⟩
      · rw [directory, parent?_of_relative hp, hbody, if_neg (by simp), List.dropLast_concat]
        rfl
      · exact (trimRelative_isPrefix init).subset

/-- The directory of a path that ends in a name takes the steps before the name. -/
theorem stepsOf_directory {init : List String} {s : String} {tail : List String}
    (hsegs : p.segments = init ++ s :: tail) (hs : IsName s)
    (htail : ∀ t ∈ tail, isIdle t = true) :
    stepsOf p.directory.segments = stepsOf init := by
  obtain ⟨segs, hdirectory, hsub, hsteps⟩ := exists_directory_eq hsegs hs htail
  have hwhole : ∀ t ∈ segs, '/' ∉ t.toList := by
    intro t ht
    have hmem : t ∈ p.segments := by
      rw [hsegs]
      exact List.mem_append_left _ (hsub ht)
    exact Text.not_mem_of_mem_split hmem
  rw [hdirectory]
  cases p.isAbsolute with
  | true =>
      rw [segments_ofBody_true, stepsOf_cons_of_isIdle (by decide), stepsOf_split_join hwhole,
        hsteps]
  | false => rw [segments_ofBody_false, stepsOf_split_join hwhole, hsteps]

/-- The last step of some segments is the one of their last segment that is not idle. -/
theorem exists_eq_of_getLast?_stepsOf {segs : List String} {c : Component}
    (h : (stepsOf segs).getLast? = some c) :
    ∃ init s tail, segs = init ++ s :: tail ∧ isIdle s = false ∧ stepOf s = c ∧
      ∀ t ∈ tail, isIdle t = true := by
  induction segs using List.reverseRecOn with
  | nil => cases h
  | append_singleton init s ih =>
      rw [stepsOf_append] at h
      cases hidle : isIdle s with
      | true =>
          have hnone : stepsOf [s] = [] := stepsOf_cons_of_isIdle hidle []
          rw [hnone, List.append_nil] at h
          obtain ⟨front, t, tail, rfl, ht, hc, htail⟩ := ih h
          refine ⟨front, t, tail ++ [s], by simp, ht, hc, ?_⟩
          intro u hu
          rcases List.mem_append.mp hu with hu | hu
          · exact htail u hu
          · exact List.mem_singleton.mp hu ▸ hidle
      | false =>
          have hone : stepsOf [s] = [stepOf s] := stepsOf_cons_of_not_isIdle hidle []
          rw [hone, List.getLast?_concat, Option.some.injEq] at h
          exact ⟨init, s, [], rfl, hidle, h, nofun⟩

/-- The name a path ends in is its last step. -/
theorem getLast?_stepsOf_of_fileName? {s : String} (h : p.fileName? = some s) :
    (stepsOf p.segments).getLast? = some (.name s) := by
  have hlast : p.components.getLast? = some (.name s) := by
    unfold fileName? at h
    split at h
    · rename_i t ht
      rw [ht, Option.some.inj h]
    · cases h
  have hsteps : ∀ (c : Component) (segs : List String), c.isName = false →
      (c :: stepsOf segs).getLast? = some (.name s) →
      (stepsOf segs).getLast? = some (.name s) := by
    intro c segs hc hlast
    rw [List.getLast?_cons] at hlast
    cases hnone : (stepsOf segs).getLast? with
    | none =>
        rw [hnone, Option.getD_none] at hlast
        cases hlast
        cases hc
    | some d => rwa [hnone] at hlast
  unfold components at hlast
  split at hlast
  · exact hsteps .root _ rfl hlast
  · split at hlast
    · rename_i rest hdot
      rw [hdot, stepsOf_cons_of_isIdle (by decide)]
      exact hsteps .here _ rfl hlast
    · exact hlast

/-- A path that ends in a name has only idle segments after it. -/
theorem exists_segments_eq_of_fileName? {s : String} (h : p.fileName? = some s) :
    ∃ init tail, p.segments = init ++ s :: tail ∧ IsName s ∧ ∀ t ∈ tail, isIdle t = true := by
  obtain ⟨init, t, tail, hsegs, hidle, hstep, htail⟩ :=
    exists_eq_of_getLast?_stepsOf (getLast?_stepsOf_of_fileName? h)
  unfold stepOf at hstep
  split at hstep
  · cases hstep
  · rename_i hup
    cases hstep
    have hmem : s ∈ p.segments := by
      rw [hsegs]
      exact List.mem_append_right init List.mem_cons_self
    exact ⟨init, tail, hsegs, ⟨hidle, hup, Text.not_mem_of_mem_split hmem⟩, htail⟩

end ModuleGraph.Path
