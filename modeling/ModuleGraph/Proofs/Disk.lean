import ModuleGraph.Disk
import ModuleGraph.Proofs.Path.Below

/-!
# Ways through a disk

Main statement: `exists_isName_of_isFile`. All that a way goes through on a disk are directories,
also when links are followed. A way that ends in a climb or stays where it is ends in one of
them, so that a path to a file ends in a name.
-/

namespace ModuleGraph

instance (s : String) : Decidable (Path.IsName s) :=
  decidable_of_iff (Path.isIdle s = false ∧ s ≠ ".." ∧ '/' ∉ s.toList)
    ⟨fun h => ⟨h.1, h.2.1, h.2.2⟩, fun h => ⟨h.not_idle, h.ne_up, h.whole⟩⟩

namespace Disk

/-- The names of all places are names, and relative paths are read from an absolute one. -/
structure WellFormed (d : Disk) : Prop where
  isName : ∀ e ∈ d.entries, ∀ s ∈ e.1, Path.IsName s
  isAbsolute : d.workingDirectory.isAbsolute = true

variable {d : Disk} {here place : Place}

/-- What stands at the place is a directory. -/
def IsDirectoryAt (d : Disk) (place : Place) : Prop := (d.at? place).any Entry.isDirectory = true

/-- Everything that the place lies in is a directory. -/
def Enters (d : Disk) (place : Place) : Prop :=
  ∀ front, front <+: place → front ≠ place → d.IsDirectoryAt front

theorem enters_nil (d : Disk) : d.Enters [] := fun _ h hne => absurd (List.prefix_nil.mp h) hne

theorem Enters.concat (h : d.Enters here) (hhere : d.IsDirectoryAt here) (s : String) :
    d.Enters (here ++ [s]) := by
  intro front hfront hne
  rcases List.prefix_concat_iff.mp hfront with heq | hfront
  · exact absurd heq hne
  · by_cases heq : front = here
    · rw [heq]
      exact hhere
    · exact h front hfront heq

theorem Enters.dropLast (h : d.Enters here) : d.Enters here.dropLast := by
  intro front hfront hne
  refine h front (hfront.trans (List.dropLast_prefix here)) fun heq => hne ?_
  exact hfront.eq_of_length_le (by rw [heq, List.length_dropLast]; omega)

theorem Enters.isDirectoryAt_dropLast (h : d.Enters here) (hhere : d.IsDirectoryAt here) :
    d.IsDirectoryAt here.dropLast := by
  by_cases heq : here.dropLast = here
  · rw [heq]
    exact hhere
  · exact h _ (List.dropLast_prefix here) heq

/-- Segments that end in a climb or in an idle one lead to a directory. -/
theorem isDirectoryAt_of_follow {links : Nat} {segments : List String} {s : String}
    (hlast : segments.getLast? = some s) (hs : Path.isIdle s = true ∨ s = "..")
    (henters : d.Enters here) (h : d.follow links here segments = some place) :
    d.IsDirectoryAt place := by
  -- a link on the way is exchanged for its segments, and these come before the last one, too
  fun_induction follow d links here segments with
  | case1 => cases hlast
  | case2 links here t rest hhere hidle ih =>
      cases rest with
      | nil =>
          rw [follow] at h
          exact Option.some.inj h ▸ hhere
      | cons u more => exact ih (by rwa [List.getLast?_cons_cons] at hlast) henters h
  | case3 links here rest hhere hidle ih =>
      cases rest with
      | nil =>
          rw [follow] at h
          exact Option.some.inj h ▸ henters.isDirectoryAt_dropLast hhere
      | cons u more =>
          exact ih (by rwa [List.getLast?_cons_cons] at hlast) henters.dropLast h
  | case4 => cases h
  | case5 => cases h
  | case6 here t rest hhere hidle hup target hlink links ih =>
      cases rest with
      | nil =>
          cases hlast
          exact absurd hs (by simp [hidle, hup])
      | cons u more =>
          refine ih ?_ ?_ h
          · rw [List.getLast?_cons_cons] at hlast
            rw [List.getLast?_append, hlast, Option.some_or]
          · split
            · exact d.enters_nil
            · exact henters
  | case7 links here t rest hhere hidle hup e hlink hentry ih =>
      cases rest with
      | nil =>
          cases hlast
          exact absurd hs (by simp [hidle, hup])
      | cons u more =>
          exact ih (by rwa [List.getLast?_cons_cons] at hlast) (henters.concat hhere t) h
  | case8 => cases h

/-- What leads to a directory does not lead to a file. -/
theorem isFile_eq_false_of_isDirectory {p : Path} (h : d.isDirectory p = true) :
    d.isFile p = false := by
  rw [isDirectory] at h
  rw [isFile, read?]
  cases hfind : d.find? p with
  | none => rfl
  | some e =>
      rw [hfind] at h
      cases e with
      | directory => rfl
      | _ => cases h

/-- A path to a file ends in a name. -/
theorem exists_isName_of_isFile {p : Path} (habs : p.isAbsolute = true)
    (h : d.isFile p = true) : ∃ init s, p.segments = init ++ [s] ∧ Path.IsName s := by
  obtain ⟨init, s, hsegs⟩ : ∃ init s, p.segments = init ++ [s] := by
    rcases p.segments.eq_nil_or_concat with hnil | ⟨init, s, hsegs⟩
    · exact absurd hnil (Text.split_ne_nil _ _)
    · exact ⟨init, s, by rw [hsegs, List.concat_eq_append]⟩
  obtain ⟨c, hread⟩ := Option.isSome_iff_exists.mp h
  obtain ⟨e, hfind, hcontents⟩ := Option.bind_eq_some_iff.mp hread
  obtain ⟨place, hlocate, hat⟩ := Option.bind_eq_some_iff.mp hfind
  have hfollow : d.follow mostLinks [] p.segments = some place := by
    unfold locate segmentsOf at hlocate
    rw [if_pos habs] at hlocate
    split at hlocate
    · cases hlocate
    · exact hlocate
  -- otherwise a directory would be read as a file
  have hnot : ¬ (Path.isIdle s = true ∨ s = "..") := by
    intro hs
    have hdirectory := isDirectoryAt_of_follow (by rw [hsegs]; simp) hs d.enters_nil hfollow
    rw [IsDirectoryAt, hat] at hdirectory
    cases e with
    | directory => cases hcontents
    | _ => cases hdirectory
  have hwhole : '/' ∉ s.toList :=
    Text.not_mem_of_mem_split (s := p.text) (by rw [← Path.segments, hsegs]; simp)
  refine ⟨init, s, hsegs, ?_⟩
  rcases Route.isIdle_or_eq_up_or_isName hwhole with hidle | hup | hname
  · exact absurd (Or.inl hidle) hnot
  · exact absurd (Or.inr hup) hnot
  · exact hname

end Disk

end ModuleGraph
