import ModuleGraph.Proofs.Graph.Cycles
import ModuleGraph.Proofs.Graph.Identity

/-!
# Cycles without numbers

Main statement: `cycles_congr`. One file requires another when a link between them is eager. The
cycles of a graph are the listings of the files that require one another, so two graphs in
which the same files require the same files have the same cycles, whatever the numbers of
their nodes.

## Implementation notes

The files of a grown graph have different paths, so a path of required files is walked by
numbers in one way only.
-/

namespace ModuleGraph

open Relation

/-- The cycle lists these paths once each and in ascending order, and then the first of them
again. -/
def Cycle.Lists (paths : Set Path) (c : Cycle) : Prop :=
  ∃ first rest, c.files = first :: rest ++ [first] ∧ (first :: rest).Pairwise Path.Before ∧
    ∀ path, path ∈ first :: rest ↔ path ∈ paths

namespace Graph

/-- A link from the file `p` to the file `q` is used as a value and not loaded later. -/
def Requires (g : Graph) (p q : Path) : Prop :=
  ∃ l ∈ g.links, l.source = some (.file p) ∧ l.target = some (.file q) ∧
    l.typeOnly = false ∧ l.kind ≠ .dynamicImport

variable {g : Graph}

theorem requires_iff {p q : Path} :
    g.Requires p q ↔
      ∃ i j, g.nodes[i]? = some (.file p) ∧ g.nodes[j]? = some (.file q) ∧ g.Needs i j := by
  constructor
  · rintro ⟨l, hl, hsource, htarget, heager⟩
    obtain ⟨d, hd, rfl⟩ := List.mem_map.mp hl
    have hi := identityAt_file_iff.mp hsource
    have hj := identityAt_file_iff.mp htarget
    exact ⟨d.source, d.target, hi, hj, ⟨p, hi⟩, ⟨q, hj⟩, d, hd, rfl, rfl, heager⟩
  · rintro ⟨i, j, hi, hj, _, _, d, hd, rfl, rfl, heager⟩
    exact ⟨g.link d, List.mem_map_of_mem hd, identityAt_file_iff.mpr hi,
      identityAt_file_iff.mpr hj, heager⟩

/-- A file has one number. -/
theorem Grown.eq_of_file (h : g.Grown) {i j : Nat} {path : Path}
    (hi : g.nodes[i]? = some (.file path)) (hj : g.nodes[j]? = some (.file path)) : i = j :=
  h.eq_of_key_eq hi hj rfl

/-- Numbers of files that need one another are numbers of files that require one another. -/
theorem Grown.transGen_requires_iff (h : g.Grown) {i j : Nat} {p q : Path}
    (hi : g.nodes[i]? = some (.file p)) (hj : g.nodes[j]? = some (.file q)) :
    TransGen g.Requires p q ↔ TransGen g.Needs i j := by
  constructor
  · intro path
    induction path generalizing j with
    | single hstep =>
        obtain ⟨i', j', hi', hj', hneeds⟩ := requires_iff.mp hstep
        rw [h.eq_of_file hi hi', h.eq_of_file hj hj']
        exact TransGen.single hneeds
    | tail _ hstep ih =>
        obtain ⟨k, j', hk, hj', hneeds⟩ := requires_iff.mp hstep
        rw [h.eq_of_file hj hj']
        exact (ih hk).tail hneeds
  · intro path
    have hstep : ∀ a b, g.Needs a b → g.Requires (g.pathOf a) (g.pathOf b) := by
      intro a b hab
      obtain ⟨s, hs⟩ := hab.1
      obtain ⟨t, ht⟩ := hab.2.1
      rw [pathOf_of_getElem? hs, pathOf_of_getElem? ht]
      exact requires_iff.mpr ⟨a, b, hs, ht, hab⟩
    have hlift : TransGen g.Requires (g.pathOf i) (g.pathOf j) :=
      TransGen.lift g.pathOf hstep _ _ path
    rwa [pathOf_of_getElem? hi, pathOf_of_getElem? hj] at hlift

/-- The members of a class, given by numbers or by paths, are listed by the same cycles. -/
theorem Grown.lists_mutuallyNeed_iff (h : g.Grown) {i : Nat} {p : Path}
    (hi : g.nodes[i]? = some (.file p)) (hloop : TransGen g.Needs i i) {c : Cycle} :
    g.Lists {j | g.MutuallyNeed i j} c ↔
      c.Lists {q | TransGen g.Requires p q ∧ TransGen g.Requires q p} := by
  have hmem : ∀ q, (∃ j ∈ {j | g.MutuallyNeed i j}, g.nodes[j]? = some (.file q)) ↔
      q ∈ {q | TransGen g.Requires p q ∧ TransGen g.Requires q p} := by
    intro q
    constructor
    · rintro ⟨j, hj, hq⟩
      have hij := (mutuallyNeed_iff hloop).mp hj
      exact ⟨(h.transGen_requires_iff hi hq).mpr hij.1, (h.transGen_requires_iff hq hi).mpr hij.2⟩
    · rintro ⟨hpq, hqp⟩
      obtain ⟨_, j, _, hq, _⟩ := requires_iff.mp (TransGen.tail'_iff.mp hpq).choose_spec.2
      have hij := (h.transGen_requires_iff hi hq).mp hpq
      have hji := (h.transGen_requires_iff hq hi).mp hqp
      exact ⟨j, (mutuallyNeed_iff hloop).mpr ⟨hij, hji⟩, hq⟩
  simp only [Lists, Cycle.Lists, hmem]

/-- The cycles are the listings of the files that require one another. -/
theorem Grown.mem_cycles_iff (h : g.Grown) {c : Cycle} :
    c ∈ g.cycles ↔ ∃ p, TransGen g.Requires p p ∧
      c.Lists {q | TransGen g.Requires p q ∧ TransGen g.Requires q p} := by
  have hcycles : g.IsCycleList g.cycles := h.isCycleList_cyclesAmong (List.Perm.refl _)
  constructor
  · intro hc
    obtain ⟨members, hcircle, hlists⟩ := hcycles.sound c hc
    obtain ⟨i, hloop, rfl⟩ := isCircle_iff.mp hcircle
    obtain ⟨p, hi⟩ := isFileAt_of_needs hloop
    exact ⟨p, (h.transGen_requires_iff hi hi).mpr hloop,
      (h.lists_mutuallyNeed_iff hi hloop).mp hlists⟩
  · rintro ⟨p, hpp, hlists⟩
    obtain ⟨_, i, _, hi, _⟩ := requires_iff.mp (TransGen.tail'_iff.mp hpp).choose_spec.2
    have hloop := (h.transGen_requires_iff hi hi).mp hpp
    have hcircle : g.IsCircle {j | g.MutuallyNeed i j} := isCircle_iff.mpr ⟨i, hloop, rfl⟩
    obtain ⟨c', ⟨hc', hlists'⟩, _⟩ := hcycles.complete _ hcircle
    rw [((h.lists_mutuallyNeed_iff hi hloop).mpr hlists).unique hlists']
    exact hc'

/-- Graphs in which the same files require the same files have the same cycles. -/
theorem Grown.cycles_congr {g' : Graph} (h : g.Grown) (h' : g'.Grown)
    (hrequires : ∀ p q, g.Requires p q ↔ g'.Requires p q) : g.cycles = g'.cycles := by
  have heq : g.Requires = g'.Requires := by
    funext p q
    exact propext (hrequires p q)
  have hmem : ∀ c, c ∈ g.cycles ↔ c ∈ g'.cycles := by
    intro c
    rw [h.mem_cycles_iff, h'.mem_cycles_iff, heq]
  have hasc : ∀ {g : Graph}, g.Grown → g.cycles.Pairwise Cycle.Precedes := fun hg =>
    (hg.isCycleList_cyclesAmong (List.Perm.refl _)).ascending
  exact (hasc h).eq_of_mem_iff (hasc h') hmem

end Graph

end ModuleGraph
