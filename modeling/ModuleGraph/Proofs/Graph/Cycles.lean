import ModuleGraph.Proofs.Graph.Circles

/-!
# The cycles of a graph

Main statement: `cycles_exact`. The cycles of a grown graph are one for each circle of files
and no others; each lists the paths of its circle once and in order, with the first one again
at its end, and the cycles come in the order of their first paths. There is only one such
list, and it is found from the parsed files in whatever order they are listed.

## Implementation notes

A cycle is made at the least file of its circle. The members of a circle sort to the same list
from each of them, so every circle has exactly one file at which its cycle is made.
-/

namespace ModuleGraph

/-- The first path of `a` comes before the first path of `b`. -/
def Cycle.Precedes (a b : Cycle) : Prop :=
  ∃ p q, a.files.head? = some p ∧ b.files.head? = some q ∧ p.Before q

instance : Std.Irrefl Cycle.Precedes where
  irrefl c h := by
    obtain ⟨p, q, hp, hq, hpq⟩ := h
    rw [hp] at hq
    cases hq
    exact Path.not_before_self p hpq

instance : Std.Antisymm Cycle.Precedes where
  antisymm a b h h' := by
    obtain ⟨p, q, hp, hq, hpq⟩ := h
    obtain ⟨q', p', hq', hp', hqp⟩ := h'
    rw [hp] at hp'
    rw [hq] at hq'
    cases hp'
    cases hq'
    exact absurd hqp hpq.asymm

namespace Graph

open Relation

/-- The cycle lists the paths of these files once each and in ascending order, and then the
first of them again. -/
def Lists (g : Graph) (members : Set Nat) (c : Cycle) : Prop :=
  ∃ first rest, c.files = first :: rest ++ [first] ∧ (first :: rest).Pairwise Path.Before ∧
    ∀ path, path ∈ first :: rest ↔ ∃ i ∈ members, g.nodes[i]? = some (.file path)

/-- The list has exactly one cycle for each circle of files and no other, in ascending order
of their first paths. -/
structure IsCycleList (g : Graph) (cs : List Cycle) : Prop where
  complete : ∀ members, g.IsCircle members → ∃! c, c ∈ cs ∧ g.Lists members c
  sound : ∀ c ∈ cs, ∃ members, g.IsCircle members ∧ g.Lists members c
  ascending : cs.Pairwise Cycle.Precedes

variable {g : Graph} {files : List Nat}

/-- The paths of some files can be listed in one way only. -/
theorem Lists.unique {members : Set Nat} {c c' : Cycle} (h : g.Lists members c)
    (h' : g.Lists members c') : c = c' := by
  obtain ⟨first, rest, hc, hasc, hmem⟩ := h
  obtain ⟨first', rest', hc', hasc', hmem'⟩ := h'
  have he : first :: rest = first' :: rest' :=
    hasc.eq_of_mem_iff hasc' fun path => (hmem path).trans (hmem' path).symm
  obtain ⟨rfl, rfl⟩ := List.cons.inj he
  cases c
  cases c'
  exact congrArg Cycle.mk (hc.trans hc'.symm)

/-- There is one list of the cycles only. -/
theorem IsCycleList.unique {cs cs' : List Cycle} (h : g.IsCycleList cs)
    (h' : g.IsCycleList cs') : cs = cs' := by
  have hsub : ∀ {xs ys : List Cycle}, g.IsCycleList xs → g.IsCycleList ys → xs ⊆ ys := by
    intro xs ys hx hy c hc
    obtain ⟨members, hcircle, hlists⟩ := hx.sound c hc
    obtain ⟨c', ⟨hc', hlists'⟩, _⟩ := hy.complete members hcircle
    exact hlists.unique hlists' ▸ hc'
  exact List.Subset.antisymm_of_pairwise h.ascending h'.ascending (hsub h h') (hsub h' h)

/-- Parsed files with the same steps are the same file. -/
theorem Grown.eq_of_pathOf_eq (h : g.Grown) {i j : Nat} (hi : g.IsFileAt i)
    (hj : g.IsFileAt j) (he : (g.pathOf i).components = (g.pathOf j).components) : i = j := by
  obtain ⟨p, hp⟩ := hi
  obtain ⟨q, hq⟩ := hj
  rw [pathOf_of_getElem? hp, pathOf_of_getElem? hq] at he
  exact h.eq_of_key_eq hp hq (congrArg NodeKey.file he)

theorem mem_sortByPath_iff {is : List Nat} {i : Nat} : i ∈ g.sortByPath is ↔ i ∈ is :=
  List.mem_mergeSort

/-- Different files are sorted into strictly ascending order. -/
theorem Grown.ascending_sortByPath (h : g.Grown) {is : List Nat} (hnodup : is.Nodup)
    (hfile : ∀ i ∈ is, g.IsFileAt i) :
    (g.sortByPath is).Pairwise fun i j => (g.pathOf i).Before (g.pathOf j) := by
  have hle : (g.sortByPath is).Pairwise fun i j => (g.pathOf i).le (g.pathOf j) = true := by
    unfold sortByPath
    apply List.pairwise_mergeSort
    · exact fun a b c hab hbc => Path.le_trans hab hbc
    · exact fun a b => Path.le_total _ _
  have hne : (g.sortByPath is).Nodup := (List.mergeSort_perm is _).nodup_iff.mpr hnodup
  apply (hle.and hne).imp_of_mem
  rintro i j hi hj ⟨hij, hdiff⟩
  apply Path.before_of_le hij
  intro he
  apply hdiff
  exact h.eq_of_pathOf_eq (hfile i (mem_sortByPath_iff.mp hi))
    (hfile j (mem_sortByPath_iff.mp hj)) he

/-- The members of a circle in order are the same from each of them. -/
theorem Grown.sortByPath_circle (h : g.Grown) (hf : g.ListsFiles files) {i j : Nat}
    (hi : g.IsFileAt i) (hj : j ∈ g.circle files i) :
    g.sortByPath (g.circle files j) = g.sortByPath (g.circle files i) := by
  have hij := (mem_circle_iff hf hi).mp hj
  have hjfile := isFileAt_of_needs hij.1
  have hasc : ∀ k, g.IsFileAt k →
      (g.sortByPath (g.circle files k)).Pairwise
        fun a b => (g.pathOf a).Before (g.pathOf b) := by
    intro k hk
    apply h.ascending_sortByPath (nodup_circle hf k)
    intro a ha
    exact isFileAt_of_needs ((mem_circle_iff hf hk).mp ha).1
  have : Std.Irrefl fun a b => (g.pathOf a).Before (g.pathOf b) :=
    ⟨fun a => Path.not_before_self _⟩
  have : Std.Antisymm fun a b => (g.pathOf a).Before (g.pathOf b) :=
    ⟨fun a b hab hba => absurd hba hab.asymm⟩
  apply (hasc j hjfile).eq_of_mem_iff (hasc i hi)
  intro k
  rw [mem_sortByPath_iff, mem_sortByPath_iff, mem_circle_iff hf hjfile, mem_circle_iff hf hi]
  constructor
  · rintro ⟨hjk, hkj⟩
    exact ⟨hij.1.trans hjk, hkj.trans hij.2⟩
  · rintro ⟨hik, hki⟩
    exact ⟨hij.2.trans hik, hki.trans hij.1⟩

theorem cycleFrom?_eq_some_iff {i : Nat} {c : Cycle} :
    g.cycleFrom? files i = some c ↔
      ∃ rest, g.sortByPath (g.circle files i) = i :: rest ∧
        c = ⟨g.pathOf i :: rest.map g.pathOf ++ [g.pathOf i]⟩ := by
  unfold cycleFrom?
  cases hs : g.sortByPath (g.circle files i) with
  | nil => simp
  | cons a rest =>
      by_cases ha : a = i
      · subst ha
        simp [eq_comm]
      · simp [ha]

/-- The cycle that is made at a file lists the class of that file. -/
theorem Grown.lists_of_cycleFrom? (h : g.Grown) (hf : g.ListsFiles files) {i : Nat}
    {c : Cycle} (hi : g.IsFileAt i) (hc : g.cycleFrom? files i = some c) :
    TransGen g.Needs i i ∧ g.Lists {j | g.MutuallyNeed i j} c := by
  obtain ⟨rest, hs, rfl⟩ := cycleFrom?_eq_some_iff.mp hc
  have hmem : ∀ j, j ∈ i :: rest ↔ TransGen g.Needs i j ∧ TransGen g.Needs j i := by
    intro j
    rw [← hs, mem_sortByPath_iff, mem_circle_iff hf hi]
  have hloop : TransGen g.Needs i i := ((hmem i).mp List.mem_cons_self).1
  have hasc := h.ascending_sortByPath (nodup_circle hf i) fun j hj =>
    isFileAt_of_needs ((mem_circle_iff hf hi).mp hj).1
  rw [hs] at hasc
  refine ⟨hloop, g.pathOf i, rest.map g.pathOf, rfl, ?_, fun path => ?_⟩
  · exact List.pairwise_map.mpr hasc
  · rw [← List.map_cons, List.mem_map]
    constructor
    · rintro ⟨j, hj, rfl⟩
      obtain ⟨q, hq⟩ := isFileAt_of_needs ((hmem j).mp hj).1
      refine ⟨j, (mutuallyNeed_iff hloop).mpr ((hmem j).mp hj), ?_⟩
      rw [pathOf_of_getElem? hq]
      exact hq
    · rintro ⟨j, hj, hq⟩
      exact ⟨j, (hmem j).mpr ((mutuallyNeed_iff hloop).mp hj), pathOf_of_getElem? hq⟩

/-- In each circle there is a file at which a cycle is made. -/
theorem Grown.exists_cycleFrom? (h : g.Grown) (hf : g.ListsFiles files) {i : Nat}
    (hloop : TransGen g.Needs i i) :
    ∃ j c, g.MutuallyNeed i j ∧ g.IsFileAt j ∧ g.cycleFrom? files j = some c := by
  have hi : g.IsFileAt i := isFileAt_of_needs hloop
  have hmem : i ∈ g.sortByPath (g.circle files i) :=
    mem_sortByPath_iff.mpr ((mem_circle_iff hf hi).mpr ⟨hloop, hloop⟩)
  obtain ⟨j, rest, hs⟩ := List.exists_cons_of_ne_nil (List.ne_nil_of_mem hmem)
  have hj : j ∈ g.circle files i := by
    rw [← mem_sortByPath_iff, hs]
    exact List.mem_cons_self
  have hij := (mem_circle_iff hf hi).mp hj
  have hsj := (h.sortByPath_circle hf hi hj).trans hs
  exact ⟨j, _, (mutuallyNeed_iff hloop).mpr hij, isFileAt_of_needs hij.1,
    cycleFrom?_eq_some_iff.mpr ⟨rest, hsj, rfl⟩⟩

theorem MutuallyNeed.setOf_eq {i j : Nat} (h : g.MutuallyNeed i j) :
    {k | g.MutuallyNeed j k} = {k | g.MutuallyNeed i k} := by
  ext k
  constructor
  · rintro ⟨hjk, hkj⟩
    exact ⟨h.1.trans hjk, hkj.trans h.2⟩
  · rintro ⟨hik, hki⟩
    exact ⟨h.2.trans hik, hki.trans h.1⟩

/-- What is found from a list of the parsed files in any order is the list of the cycles. -/
theorem Grown.isCycleList_cyclesAmong (h : g.Grown) (hf : g.ListsFiles files) :
    g.IsCycleList (g.cyclesAmong files) := by
  have hmade : ∀ {c}, c ∈ g.cyclesAmong files ↔
      ∃ i, g.IsFileAt i ∧ g.cycleFrom? files i = some c := by
    intro c
    simp only [cyclesAmong, List.mem_filterMap, mem_sortByPath_iff, hf.mem_iff]
  constructor
  · intro members hcircle
    obtain ⟨i, hloop, rfl⟩ := isCircle_iff.mp hcircle
    obtain ⟨j, c, hij, hj, hc⟩ := h.exists_cycleFrom? hf hloop
    have hlists := (h.lists_of_cycleFrom? hf hj hc).2
    rw [hij.setOf_eq] at hlists
    exact ⟨c, ⟨hmade.mpr ⟨j, hj, hc⟩, hlists⟩, fun c' hc' => hc'.2.unique hlists⟩
  · intro c hc
    obtain ⟨i, hi, hfrom⟩ := hmade.mp hc
    obtain ⟨hloop, hlists⟩ := h.lists_of_cycleFrom? hf hi hfrom
    exact ⟨_, isCircle_iff.mpr ⟨i, hloop, rfl⟩, hlists⟩
  · have hnodup : files.Nodup := (List.Perm.nodup_iff hf).mpr g.nodup_fileNumbers
    have hasc := h.ascending_sortByPath hnodup fun i hi => hf.mem_iff.mp hi
    refine List.pairwise_filterMap.mpr (hasc.imp ?_)
    intro i j hij c hc c' hc'
    obtain ⟨rest, _, rfl⟩ := cycleFrom?_eq_some_iff.mp hc
    obtain ⟨rest', _, rfl⟩ := cycleFrom?_eq_some_iff.mp hc'
    exact ⟨g.pathOf i, g.pathOf j, rfl, rfl, hij⟩

/-- The cycles of a grown graph are exactly one for each circle of files, in order. The
description leaves one list only, and so the order in which the files are listed does not
matter. -/
theorem cycles_exact (h : g.Grown) :
    g.IsCycleList g.cycles ∧ (∀ cs, g.IsCycleList cs → cs = g.cycles) ∧
      ∀ files, files.Perm g.fileNumbers → g.cyclesAmong files = g.cycles := by
  have hcycles : g.IsCycleList g.cycles := h.isCycleList_cyclesAmong (List.Perm.refl _)
  refine ⟨hcycles, fun cs hcs => hcs.unique hcycles, fun files hf => ?_⟩
  exact (h.isCycleList_cyclesAmong hf).unique hcycles

/-- Two files that import and re-export one another. -/
def pair : Graph :=
  ((((empty.addFile ⟨"src/b.ts"⟩).1.addFile ⟨"src/./a.ts"⟩).1.connect
    ⟨0, 1, .staticImport, "./a", false⟩).connect ⟨1, 0, .reexportAll, "./b", false⟩)

theorem pair_eq :
    pair = ⟨[.file ⟨"src/b.ts"⟩, .file ⟨"src/a.ts"⟩],
      [⟨0, 1, .staticImport, "./a", false⟩, ⟨1, 0, .reexportAll, "./b", false⟩]⟩ := by
  decide +kernel

theorem grown_pair : pair.Grown :=
  .connect (.connect (.addFile _ (.addFile _ .empty)) (by decide +kernel) (by decide +kernel))
    (by decide +kernel) (by decide +kernel)

theorem needs_pair : TransGen pair.Needs 0 0 := by
  have h0 : pair.IsFileAt 0 := ⟨⟨"src/b.ts"⟩, by rw [pair_eq]; rfl⟩
  have h1 : pair.IsFileAt 1 := ⟨⟨"src/a.ts"⟩, by rw [pair_eq]; rfl⟩
  have h01 : pair.Needs 0 1 :=
    ⟨h0, h1, _, List.mem_cons_self, rfl, rfl, rfl, by decide⟩
  have h10 : pair.Needs 1 0 :=
    ⟨h1, h0, _, List.mem_cons_of_mem _ List.mem_cons_self, rfl, rfl, rfl, by decide⟩
  exact (TransGen.single h01).tail h10

/-- The two files are a circle, which has its one cycle, also when they are listed backwards. -/
theorem cycles_exact_pair :
    pair.Grown ∧ pair.IsCircle {j | pair.MutuallyNeed 0 j} ∧
      (∃! c, c ∈ pair.cycles ∧ pair.Lists {j | pair.MutuallyNeed 0 j} c) ∧
      [1, 0].Perm pair.fileNumbers ∧ pair.cyclesAmong [1, 0] = pair.cycles := by
  obtain ⟨hlist, _, horder⟩ := cycles_exact grown_pair
  have hcircle := isCircle_iff.mpr ⟨0, needs_pair, rfl⟩
  have hperm : [1, 0].Perm pair.fileNumbers := by
    rw [pair_eq]
    exact List.Perm.swap 0 1 []
  exact ⟨grown_pair, hcircle, hlist.complete _ hcircle, hperm, horder _ hperm⟩

end Graph

end ModuleGraph
