import Mathlib.Data.List.Nodup
import Mathlib.Logic.Relation
import ModuleGraph.Graph.Reach

/-!
# What the search finds

The search takes one number after the other out of a finite list. It finds exactly what a
path within that list leads to, each number once.

## Implementation notes

Taking `u` out of the list cuts the paths through `u`. Nothing is lost, because what lies
behind the last visit of `u` is found from the successors of `u`, which become pending.
-/

namespace ModuleGraph.Graph

open Relation

variable {next : Nat → List Nat} {remaining pending : List Nat}

/-- One step of the search: from `a` on to `b`, which is in the list. -/
def StepWithin (next : Nat → List Nat) (remaining : List Nat) (a b : Nat) : Prop :=
  b ∈ next a ∧ b ∈ remaining

theorem StepWithin.of_erase {u a b : Nat} (h : StepWithin next (remaining.erase u) a b) :
    StepWithin next remaining a b :=
  ⟨h.1, List.mem_of_mem_erase h.2⟩

/-- A path either avoids `u`, or ends there, or leaves `u` for the last time. -/
theorem path_around (u : Nat) {w v : Nat}
    (path : ReflTransGen (StepWithin next remaining) w v) :
    w ≠ u ∧ ReflTransGen (StepWithin next (remaining.erase u)) w v ∨ v = u ∨
      ∃ x ∈ next u, x ∈ remaining.erase u ∧
        ReflTransGen (StepWithin next (remaining.erase u)) x v := by
  induction path with
  | refl =>
      by_cases hw : w = u
      · exact Or.inr (Or.inl hw)
      · exact Or.inl ⟨hw, ReflTransGen.refl⟩
  | @tail b c _ hstep ih =>
      by_cases hc : c = u
      · exact Or.inr (Or.inl hc)
      · have hin : c ∈ remaining.erase u := (List.mem_erase_of_ne hc).mpr hstep.2
        rcases ih with ⟨hw, hpath⟩ | hb | ⟨x, hx, hxin, hpath⟩
        · exact Or.inl ⟨hw, hpath.tail ⟨hstep.1, hin⟩⟩
        · rw [hb] at hstep
          exact Or.inr (Or.inr ⟨c, hstep.1, hin, ReflTransGen.refl⟩)
        · exact Or.inr (Or.inr ⟨x, hx, hxin, hpath.tail ⟨hstep.1, hin⟩⟩)

/-- The search finds what a path from a pending number of the list leads to. -/
theorem mem_gather_iff {v : Nat} :
    v ∈ gather next remaining pending ↔
      ∃ w ∈ pending, w ∈ remaining ∧ ReflTransGen (StepWithin next remaining) w v := by
  fun_induction gather next remaining pending with
  | case1 => simp
  | case2 remaining u rest hu ih =>
      rw [List.mem_cons, ih]
      constructor
      · rintro (rfl | ⟨w, hw, hwin, path⟩)
        · exact ⟨v, List.mem_cons_self, hu, ReflTransGen.refl⟩
        · have hwin' := List.mem_of_mem_erase hwin
          have path' : ReflTransGen (StepWithin next remaining) w v :=
            ReflTransGen.mono (fun _ _ => StepWithin.of_erase) _ _ path
          rcases List.mem_append.mp hw with hw | hw
          · exact ⟨u, List.mem_cons_self, hu, ReflTransGen.head ⟨hw, hwin'⟩ path'⟩
          · exact ⟨w, List.mem_cons_of_mem u hw, hwin', path'⟩
      · rintro ⟨w, hw, hwin, path⟩
        rcases path_around u path with ⟨hne, path'⟩ | hv | ⟨x, hx, hxin, path'⟩
        · have hrest : w ∈ rest := (List.mem_cons.mp hw).resolve_left hne
          have hwin' : w ∈ remaining.erase u := (List.mem_erase_of_ne hne).mpr hwin
          exact Or.inr ⟨w, List.mem_append_right _ hrest, hwin', path'⟩
        · exact Or.inl hv
        · exact Or.inr ⟨x, List.mem_append_left _ hx, hxin, path'⟩
  | case3 remaining u rest hu ih =>
      rw [ih]
      constructor
      · rintro ⟨w, hw, hwin, path⟩
        exact ⟨w, List.mem_cons_of_mem u hw, hwin, path⟩
      · rintro ⟨w, hw, hwin, path⟩
        rcases List.mem_cons.mp hw with rfl | hw
        · exact absurd hwin hu
        · exact ⟨w, hw, hwin, path⟩

/-- Only numbers of the list are found. -/
theorem mem_of_mem_gather {v : Nat} (h : v ∈ gather next remaining pending) :
    v ∈ remaining := by
  obtain ⟨w, _, hw, path⟩ := mem_gather_iff.mp h
  cases path with
  | refl => exact hw
  | tail _ hstep => exact hstep.2

/-- Each number is found once. -/
theorem nodup_gather (h : remaining.Nodup) : (gather next remaining pending).Nodup := by
  fun_induction gather next remaining pending with
  | case1 => exact List.nodup_nil
  | case2 remaining u rest hu ih =>
      refine List.nodup_cons.mpr ⟨fun hmem => ?_, ih (h.erase u)⟩
      exact h.not_mem_erase (mem_of_mem_gather hmem)
  | case3 remaining u rest hu ih => exact ih h

/-- The search that starts behind a number of the list follows a relation on the list as far
as it leads, when `next` goes on to what is related. -/
theorem mem_gather_next_iff {related : Nat → Nat → Prop}
    (hin : ∀ a b, related a b → b ∈ remaining)
    (hnext : ∀ a ∈ remaining, ∀ b ∈ remaining, b ∈ next a ↔ related a b)
    {i v : Nat} (hi : i ∈ remaining) :
    v ∈ gather next remaining (next i) ↔ TransGen related i v := by
  rw [mem_gather_iff, TransGen.head'_iff]
  constructor
  · rintro ⟨w, hw, hwin, path⟩
    refine ⟨w, (hnext i hi w hwin).mp hw, ?_⟩
    suffices h : v ∈ remaining ∧ ReflTransGen related w v from h.2
    induction path with
    | refl => exact ⟨hwin, ReflTransGen.refl⟩
    | tail _ hstep ih => exact ⟨hstep.2, ih.2.tail ((hnext _ ih.1 _ hstep.2).mp hstep.1)⟩
  · rintro ⟨w, hw, path⟩
    have hwin := hin i w hw
    refine ⟨w, (hnext i hi w hwin).mpr hw, hwin, ?_⟩
    suffices h : v ∈ remaining ∧ ReflTransGen (StepWithin next remaining) w v from h.2
    induction path with
    | refl => exact ⟨hwin, ReflTransGen.refl⟩
    | tail _ hrel ih =>
        have hv := hin _ _ hrel
        exact ⟨hv, ih.2.tail ⟨(hnext _ ih.1 _ hv).mpr hrel, hv⟩⟩

end ModuleGraph.Graph
