import Mathlib.Data.Finset.Card
import Mathlib.Data.List.Basic
import Mathlib.Data.List.Pairwise
import Mathlib.Data.List.Sort

/-!
# First occurrences

Main statements: `IsFirsts.append_of_mem`, `IsFirsts.append_of_not_mem` and
`IsFirsts.iff_sameFirsts`. What is collected without repetition stands in the order of first
occurrences. One more occurrence changes nothing, and one more member comes last.
-/

namespace ModuleGraph

variable {α : Type} [BEq α]

/-- `ks` has each member of `xs` once, in the order in which they first occur there. -/
structure IsFirsts (xs ks : List α) : Prop where
  mem_iff : ∀ k, k ∈ ks ↔ k ∈ xs
  ordered : ks.Pairwise fun a b => xs.idxOf a < xs.idxOf b

/-- Both lists have the same members, and each of them first occurs before the same others. -/
structure SameFirsts (xs ys : List α) : Prop where
  mem_iff : ∀ k, k ∈ xs ↔ k ∈ ys
  order_iff : ∀ a ∈ ys, ∀ b ∈ ys, (xs.idxOf a < xs.idxOf b ↔ ys.idxOf a < ys.idxOf b)

namespace IsFirsts

variable {xs ks : List α}

theorem nil : IsFirsts ([] : List α) [] := ⟨by simp, List.Pairwise.nil⟩

theorem nodup (h : IsFirsts xs ks) : ks.Nodup := by
  apply h.ordered.imp
  rintro a b hab rfl
  exact Nat.lt_irrefl _ hab

/-- As many are collected as there are different members. -/
theorem length_eq [DecidableEq α] (h : IsFirsts xs ks) : ks.length = xs.toFinset.card := by
  have hsame : ks.toFinset = xs.toFinset := by
    ext k
    rw [List.mem_toFinset, List.mem_toFinset, h.mem_iff]
  rw [← hsame, List.toFinset_card_of_nodup h.nodup]

theorem length_le (h : IsFirsts xs ks) : ks.length ≤ xs.length :=
  (List.subperm_of_subset h.nodup fun k hk => (h.mem_iff k).mp hk).length_le

/-- All occurrences are first ones when nothing occurs twice. -/
theorem length_eq_length_iff [DecidableEq α] (h : IsFirsts xs ks) :
    ks.length = xs.length ↔ xs.Nodup := by
  rw [h.length_eq]
  exact Multiset.toFinset_card_eq_card_iff_nodup

/-- What is collected from one list is collected from another when their first occurrences
are the same. -/
theorem iff_sameFirsts (h : IsFirsts xs ks) {ys : List α} : IsFirsts ys ks ↔ SameFirsts ys xs := by
  constructor
  · intro h'
    refine ⟨fun k => (h'.mem_iff k).symm.trans (h.mem_iff k), fun a ha b hb => ?_⟩
    by_cases hab : a = b
    · subst hab
      exact iff_of_false (Nat.lt_irrefl _) (Nat.lt_irrefl _)
    · -- two members of `ks` stand in it one after the other, in one of the two orders
      let agree (a b : α) : Prop :=
        (ys.idxOf a < ys.idxOf b ∧ xs.idxOf a < xs.idxOf b) ∨
          (ys.idxOf b < ys.idxOf a ∧ xs.idxOf b < xs.idxOf a)
      have : Std.Symm agree := ⟨fun _ _ hor => hor.symm⟩
      have hpair : ks.Pairwise agree := (h'.ordered.and h.ordered).imp Or.inl
      rcases hpair.forall ((h.mem_iff a).mpr ha) ((h.mem_iff b).mpr hb) hab with
        ⟨h₁, h₂⟩ | ⟨h₁, h₂⟩
      · exact iff_of_true h₁ h₂
      · exact iff_of_false (Nat.lt_asymm h₁) (Nat.lt_asymm h₂)
  · rintro ⟨hmem, horder⟩
    refine ⟨fun k => (h.mem_iff k).trans (hmem k).symm, ?_⟩
    apply h.ordered.imp_of_mem
    intro a b ha hb hab
    exact (horder a ((h.mem_iff a).mp ha) b ((h.mem_iff b).mp hb)).mpr hab

variable [LawfulBEq α] {x : α}

/-- The order of what occurred before stays. -/
theorem ordered_append (h : IsFirsts xs ks) (x : α) :
    ks.Pairwise fun a b => (xs ++ [x]).idxOf a < (xs ++ [x]).idxOf b := by
  apply h.ordered.imp_of_mem
  intro a b ha hb hab
  rw [List.idxOf_append_of_mem ((h.mem_iff a).mp ha),
    List.idxOf_append_of_mem ((h.mem_iff b).mp hb)]
  exact hab

theorem append_of_mem (h : IsFirsts xs ks) (hx : x ∈ ks) : IsFirsts (xs ++ [x]) ks := by
  refine ⟨fun k => ?_, h.ordered_append x⟩
  rw [h.mem_iff, List.mem_append, List.mem_singleton]
  constructor
  · exact Or.inl
  · rintro (hk | rfl)
    · exact hk
    · exact (h.mem_iff k).mp hx

theorem append_of_not_mem (h : IsFirsts xs ks) (hx : x ∉ ks) :
    IsFirsts (xs ++ [x]) (ks ++ [x]) := by
  have hnew : x ∉ xs := fun hmem => hx ((h.mem_iff x).mpr hmem)
  constructor
  · intro k
    rw [List.mem_append, List.mem_append, h.mem_iff]
  · rw [List.pairwise_append]
    refine ⟨h.ordered_append x, List.pairwise_singleton _ _, ?_⟩
    intro k hk k' hk'
    have hmem := (h.mem_iff k).mp hk
    rw [List.mem_singleton.mp hk', List.idxOf_append_of_mem hmem,
      List.idxOf_append_of_notMem hnew]
    exact Nat.lt_of_lt_of_le (List.idxOf_lt_length_of_mem hmem) (Nat.le_add_right _ _)

end IsFirsts

end ModuleGraph
