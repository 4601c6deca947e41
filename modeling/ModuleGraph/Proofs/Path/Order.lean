import Mathlib.Data.List.Sort
import ModuleGraph.Path.Basic

/-!
# The order of paths

Steps are ordered by their kinds and names among themselves by their texts, and paths step by
step. The order is transitive and total, and two paths between which it does not decide have
the same steps.
-/

namespace ModuleGraph

namespace Component

/-- The place of a step's kind in the order of kinds. -/
def rank : Component → Nat
  | .root => 0
  | .here => 1
  | .up => 2
  | .name _ => 3

/-- The text of a name, and no text for the other steps. -/
def label : Component → String
  | .name s => s
  | _ => ""

theorem compare_name (s t : String) : compare (name s) (name t) = compare s t := by
  change (compare s t).then .eq = compare s t
  cases compare s t <;> rfl

theorem compare_eq_compareLex :
    (compare : Component → Component → Ordering) =
      compareLex (compareOn rank) (compareOn label) := by
  funext a b
  cases a with
  | name s =>
      cases b with
      | name t => exact compare_name s t
      | _ => rfl
  | _ => cases b <;> rfl

instance : Std.TransOrd Component := by
  unfold Std.TransOrd
  rw [compare_eq_compareLex]
  infer_instance

instance : Std.LawfulEqOrd Component where
  eq_of_compare {a b} h := by
    rw [compare_eq_compareLex, compareLex_eq_eq] at h
    have hr : a.rank = b.rank := Std.LawfulEqOrd.eq_of_compare h.1
    have hl : a.label = b.label := Std.LawfulEqOrd.eq_of_compare h.2
    cases a <;> cases b <;> simp_all [rank, label]

end Component

namespace Path

/-- `p` comes before `q`. -/
def Before (p q : Path) : Prop := compare p q = .lt

instance : Std.TransOrd Path :=
  inferInstanceAs <| Std.TransCmp (compareOn components)

theorem compare_eq_iff {p q : Path} : compare p q = .eq ↔ p.components = q.components :=
  Std.LawfulEqOrd.compare_eq_iff_eq (α := List Component)

theorem not_before_self (p : Path) : ¬ p.Before p := by
  intro h
  have he : compare p p = .eq := compare_eq_iff.mpr rfl
  rw [Before, he] at h
  cases h

theorem Before.trans {p q r : Path} (hpq : p.Before q) (hqr : q.Before r) : p.Before r :=
  Std.TransCmp.lt_trans hpq hqr

theorem Before.asymm {p q : Path} (h : p.Before q) : ¬ q.Before p :=
  fun h' => not_before_self p (h.trans h')

instance : Std.Irrefl Before := ⟨not_before_self⟩

instance : Std.Antisymm Before := ⟨fun _ _ h h' => absurd h' h.asymm⟩

theorem le_trans {p q r : Path} (hpq : p.le q = true) (hqr : q.le r = true) :
    p.le r = true :=
  Std.TransCmp.isLE_trans hpq hqr

theorem le_total (p q : Path) : (p.le q || q.le p) = true := by
  unfold le
  rw [Std.OrientedOrd.eq_swap (a := q) (b := p)]
  cases compare p q <;> rfl

/-- What comes no later and has other steps comes before. -/
theorem before_of_le {p q : Path} (h : p.le q = true) (hne : p.components ≠ q.components) :
    p.Before q := by
  have hnot : compare p q ≠ .eq := fun he => hne (compare_eq_iff.mp he)
  unfold le at h
  unfold Before
  cases hc : compare p q with
  | lt => rfl
  | eq => exact absurd hc hnot
  | gt => rw [hc] at h; cases h

end Path

end ModuleGraph
