import ModuleGraph.Graph.Cycle
import ModuleGraph.Proofs.Graph.Growth
import ModuleGraph.Proofs.Graph.Search
import ModuleGraph.Proofs.Path.Order

/-!
# Circles of files

A file needs another when a dependency between them is eager. The files that need one another,
directly or through others, form a class, and the class is a circle when it has two members or
its only member needs itself. Main statement: `mem_circle_iff`, the circle that is computed
from a file holds what the file needs and is needed by.

## Implementation notes

Only the order in which the parsed files are listed is free in a graph, so every statement is
about any list `files` of them.
-/

namespace ModuleGraph.Graph

open Relation

/-- The node with the number `i` is a parsed file. -/
def IsFileAt (g : Graph) (i : Nat) : Prop := ∃ path, g.nodes[i]? = some (.file path)

/-- Both are parsed files, and at least one of the dependencies of `i` on `j` is used as a
value and not loaded later. -/
def Needs (g : Graph) (i j : Nat) : Prop :=
  g.IsFileAt i ∧ g.IsFileAt j ∧
    ∃ d ∈ g.dependencies, d.source = i ∧ d.target = j ∧
      d.typeOnly = false ∧ d.kind ≠ .dynamicImport

/-- Each of the two needs the other, directly or through others, or they are the same. -/
def MutuallyNeed (g : Graph) (i j : Nat) : Prop :=
  ReflTransGen g.Needs i j ∧ ReflTransGen g.Needs j i

/-- A class of parsed files that need one another, with at least two members or with a single
member that needs itself. -/
structure IsCircle (g : Graph) (members : Set Nat) : Prop where
  isClass : ∃ i, g.IsFileAt i ∧ members = {j | g.MutuallyNeed i j}
  isClosed : (∃ i ∈ members, ∃ j ∈ members, i ≠ j) ∨ ∃ i, members = {i} ∧ g.Needs i i

variable {g : Graph} {files : List Nat}

theorem mem_fileNumbers_iff {i : Nat} : i ∈ g.fileNumbers ↔ g.IsFileAt i := by
  simp only [fileNumbers, List.mem_filterMap, Prod.exists, List.mem_zipIdx_iff_getElem?]
  constructor
  · rintro ⟨n, k, hk, hn⟩
    cases n with
    | file path =>
        simp only [Node.isFile, Node.file?, Option.isSome_some, if_true, Option.some.injEq] at hn
        exact ⟨path, hn ▸ hk⟩
    | _ => simp [Node.isFile, Node.file?] at hn
  · rintro ⟨path, hp⟩
    exact ⟨.file path, i, hp, by simp [Node.isFile, Node.file?]⟩

theorem nodup_fileNumbers (g : Graph) : g.fileNumbers.Nodup := by
  have hall : (g.nodes.zipIdx.map Prod.snd).Nodup := by
    rw [List.zipIdx_map_snd]
    exact List.nodup_range'
  refine List.pairwise_filterMap.mpr ((List.pairwise_map.mp hall).imp ?_)
  rintro a b hab i hi j hj
  split at hi <;> split at hj <;> simp_all

theorem pathOf_of_getElem? {i : Nat} {path : Path} (h : g.nodes[i]? = some (.file path)) :
    g.pathOf i = path := by
  simp [pathOf, h, Node.file?]

/-- A list of the parsed files in any order. -/
def ListsFiles (g : Graph) (files : List Nat) : Prop := files.Perm g.fileNumbers

theorem ListsFiles.mem_iff (h : g.ListsFiles files) {i : Nat} : i ∈ files ↔ g.IsFileAt i :=
  (List.Perm.mem_iff h).trans mem_fileNumbers_iff

theorem isEager_iff {d : Dependency} :
    d.isEager = true ↔ d.typeOnly = false ∧ d.kind ≠ .dynamicImport := by
  simp [Dependency.isEager]

theorem mem_successors_iff {i j : Nat} (hi : g.IsFileAt i) (hj : g.IsFileAt j) :
    j ∈ g.successors i ↔ g.Needs i j := by
  simp only [successors, List.mem_map, List.mem_filter, Bool.and_eq_true, beq_iff_eq,
    isEager_iff]
  constructor
  · rintro ⟨d, ⟨hd, he, hs⟩, ht⟩
    exact ⟨hi, hj, d, hd, hs, ht, he⟩
  · rintro ⟨_, _, d, hd, hs, ht, he⟩
    exact ⟨d, ⟨hd, he, hs⟩, ht⟩

theorem mem_predecessors_iff {i j : Nat} (hi : g.IsFileAt i) (hj : g.IsFileAt j) :
    i ∈ g.predecessors j ↔ g.Needs i j := by
  simp only [predecessors, List.mem_map, List.mem_filter, Bool.and_eq_true, beq_iff_eq,
    isEager_iff]
  constructor
  · rintro ⟨d, ⟨hd, he, ht⟩, hs⟩
    exact ⟨hi, hj, d, hd, hs, ht, he⟩
  · rintro ⟨_, _, d, hd, hs, ht, he⟩
    exact ⟨d, ⟨hd, he, ht⟩, hs⟩

theorem mem_reached_iff (hf : g.ListsFiles files) {i j : Nat} (hi : g.IsFileAt i) :
    j ∈ g.reached files i ↔ TransGen g.Needs i j := by
  apply mem_gather_next_iff
  · exact fun _ _ h => hf.mem_iff.mpr h.2.1
  · exact fun _ ha _ hb => mem_successors_iff (hf.mem_iff.mp ha) (hf.mem_iff.mp hb)
  · exact hf.mem_iff.mpr hi

theorem mem_reaching_iff (hf : g.ListsFiles files) {i j : Nat} (hi : g.IsFileAt i) :
    j ∈ g.reaching files i ↔ TransGen g.Needs j i := by
  rw [← transGen_swap]
  apply mem_gather_next_iff
  · exact fun _ _ h => hf.mem_iff.mpr h.1
  · exact fun _ ha _ hb => mem_predecessors_iff (hf.mem_iff.mp hb) (hf.mem_iff.mp ha)
  · exact hf.mem_iff.mpr hi

/-- The circle from `i` holds the files that `i` needs and is needed by. -/
theorem mem_circle_iff (hf : g.ListsFiles files) {i j : Nat} (hi : g.IsFileAt i) :
    j ∈ g.circle files i ↔ TransGen g.Needs i j ∧ TransGen g.Needs j i := by
  simp only [circle, List.mem_filter, decide_eq_true_eq]
  rw [mem_reached_iff hf hi, mem_reaching_iff hf hi]

theorem nodup_circle (hf : g.ListsFiles files) (i : Nat) : (g.circle files i).Nodup :=
  (nodup_gather ((List.Perm.nodup_iff hf).mpr g.nodup_fileNumbers)).filter _

/-- A file on a path back to itself needs all of its class by a path of at least one step. -/
theorem mutuallyNeed_iff {i j : Nat} (hi : TransGen g.Needs i i) :
    g.MutuallyNeed i j ↔ TransGen g.Needs i j ∧ TransGen g.Needs j i := by
  constructor
  · rintro ⟨hij, hji⟩
    exact ⟨hi.trans_left hij, hi.trans_right hji⟩
  · rintro ⟨hij, hji⟩
    exact ⟨hij.to_reflTransGen, hji.to_reflTransGen⟩

theorem isFileAt_of_needs {i j : Nat} (h : TransGen g.Needs i j) : g.IsFileAt j := by
  cases h with
  | single h => exact h.2.1
  | tail _ h => exact h.2.1

/-- The classes with two members or with a member that needs itself are those of the files on
a path back to themselves. -/
theorem isCircle_iff {members : Set Nat} :
    g.IsCircle members ↔
      ∃ i, TransGen g.Needs i i ∧ members = {j | g.MutuallyNeed i j} := by
  constructor
  · rintro ⟨⟨i, _, rfl⟩, hclosed⟩
    refine ⟨i, ?_, rfl⟩
    have back : ∀ j, g.MutuallyNeed i j → j ≠ i → TransGen g.Needs i i := by
      intro j hj hne
      rcases reflTransGen_iff_eq_or_transGen.mp hj.1 with he | ht
      · exact absurd he hne
      · exact ht.trans_left hj.2
    rcases hclosed with ⟨a, ha, b, hb, hab⟩ | ⟨a, ha, hself⟩
    · by_cases hai : a = i
      · exact back b hb (hai ▸ hab.symm)
      · exact back a ha hai
    · have hi : i ∈ ({a} : Set Nat) := ha ▸ ⟨ReflTransGen.refl, ReflTransGen.refl⟩
      rw [Set.mem_singleton_iff.mp hi]
      exact TransGen.single hself
  · rintro ⟨i, hloop, rfl⟩
    refine ⟨⟨i, isFileAt_of_needs hloop, rfl⟩, ?_⟩
    have hi : g.MutuallyNeed i i := ⟨ReflTransGen.refl, ReflTransGen.refl⟩
    by_cases hall : ∀ j, g.MutuallyNeed i j → j = i
    · refine Or.inr ⟨i, Set.ext fun j => ⟨fun hj => hall j hj, ?_⟩, ?_⟩
      · rintro rfl
        exact hi
      · obtain ⟨j, hij, hji⟩ := TransGen.head'_iff.mp hloop
        have hj : j = i := hall j ⟨ReflTransGen.single hij, hji⟩
        exact hj ▸ hij
    · push Not at hall
      obtain ⟨j, hj, hne⟩ := hall
      exact Or.inl ⟨j, hj, i, hi, hne⟩

end ModuleGraph.Graph
