import Mathlib.Algebra.BigOperators.Group.List.Basic
import Mathlib.Algebra.GroupWithZero.Nat
import ModuleGraph.Graph.Stats
import ModuleGraph.Proofs.Graph.Lookup

/-!
# Balance of the statistics

Main statement: `Stats.balanced_of`. Some of the counts are taken from the extracted files and some
from the graph, and they agree: every edge of a file is a dependency of the graph, no record makes
two edges, every dependency leads to a parsed file or to a node of one of the other families, and
each of these nodes has a dependency on it.
-/

namespace ModuleGraph

/-- The node is a package, a file that is not parsed or a target that was not found. -/
def Node.isOutside (n : Node) : Bool := n.isPackage || n.isAsset || n.isUnresolved

/-- How many dependencies lead out of the parsed files. -/
def Graph.outsideCount (g : Graph) : Nat :=
  g.dependencies.countP fun d => g.nodes[d.target]?.any Node.isOutside

/-- The counts agree among themselves and with the graph of the files. -/
structure Stats.Balanced (xs : List Extraction) (g : Graph) (s : Stats) : Prop where
  kinds : s.edgesByKind.map (·.1) = EdgeKind.all
  sum_edgesByKind : (s.edgesByKind.map (·.2)).sum = s.edges
  length_dependencies : g.dependencies.length = s.edges
  edges_le : s.edges ≤ s.importRecords + s.exportRecords
  resolvedFiles_le : s.resolvedFiles ≤ s.edges
  outsideCount : g.outsideCount = s.edges - s.resolvedFiles
  outside_le : s.packages + s.assets + s.unresolved ≤ s.edges - s.resolvedFiles
  fileCount_le : g.fileCount ≤ s.files
  fileCount_eq_iff : g.fileCount = s.files ↔ (xs.map fun x => x.file.normal).Nodup

/-- Every edge is counted under one kind. -/
theorem EdgeKind.sum_countP (es : List Edge) :
    (all.map fun k => es.countP (·.kind = k)).sum = es.length := by
  induction es with
  | nil => rfl
  | cons e rest ih =>
      have hone : (all.map fun k => if decide (e.kind = k) then 1 else 0).sum = 1 := by
        cases e.kind <;> rfl
      simp only [List.countP_cons, List.sum_map_add, ih, hone, List.length_cons]

namespace Extraction

/-- A record is an import or an export. -/
theorem length_imports_add_length_exports (x : Extraction) :
    x.imports.length + x.exports.length = x.records.length := by
  rw [imports, exports, List.length_filterMap_eq_countP, List.length_filterMap_eq_countP,
    List.length_eq_countP_add_countP fun r : Record => r.import?.isSome]
  congr 1
  apply List.countP_congr
  intro r _
  cases r <;> simp [Record.import?, Record.export?]

/-- No record of a file that was read makes more than one edge. -/
theorem FromItems.length_edges_le {x : Extraction} (h : x.FromItems) :
    x.edges.length ≤ x.imports.length + x.exports.length := by
  obtain ⟨table, hread⟩ := h.exists_readWith
  obtain ⟨_, _, hmerge⟩ := hread.exists_isMerge
  calc
    x.edges.length = (x.edges.map Edge.key).length := (List.length_map _).symm
    _ ≤ ((x.records.filterMap Record.added?).map Contribution.key).length := hmerge.keys.length_le
    _ = (x.records.filterMap Record.added?).length := List.length_map _
    _ ≤ x.records.length := List.length_filterMap_le _ _
    _ = x.imports.length + x.exports.length := x.length_imports_add_length_exports.symm

theorem length_flatMap_edges_le {xs : List Extraction} (hxs : ∀ x ∈ xs, x.FromItems) :
    (xs.flatMap (·.edges)).length ≤
      (xs.flatMap (·.imports)).length + (xs.flatMap (·.exports)).length := by
  induction xs with
  | nil => exact Nat.le_refl _
  | cons x rest ih =>
      have hx := (hxs x List.mem_cons_self).length_edges_le
      have hrest := ih fun y hy => hxs y (List.mem_cons_of_mem x hy)
      simp only [List.flatMap_cons, List.length_append]
      omega

theorem length_fileEdges (xs : List Extraction) :
    (fileEdges xs).length = (xs.flatMap (·.edges)).length := by
  simp [fileEdges, List.length_flatMap]

end Extraction

theorem Node.isOutside_eq (n : Node) : n.isOutside = !n.isFile := by cases n <;> rfl

namespace Graph

variable {g : Graph} {files : List Path} {table : Extension.Table} {resolver : Resolver}
  {ps : List (Path × Edge)}

/-- Every dependency leads to a parsed file or out of them. -/
theorem Grown.resolvedCount_add_outsideCount (h : g.Grown) :
    g.resolvedCount + g.outsideCount = g.dependencies.length := by
  rw [List.length_eq_countP_add_countP fun d => g.nodes[d.target]?.any Node.isFile]
  congr 1
  apply List.countP_congr
  intro d hd
  obtain ⟨_, htarget⟩ := h.closed d hd
  simp [List.getElem?_eq_getElem htarget, Node.isOutside_eq]

/-- A node is a parsed file or outside of them. -/
theorem fileCount_add_countP_isOutside (g : Graph) :
    g.fileCount + g.nodes.countP Node.isOutside = g.nodes.length := by
  rw [List.length_eq_countP_add_countP Node.isFile, fileCount]
  congr 1
  exact List.countP_congr fun n _ => by simp [Node.isOutside_eq]

/-- A node outside of the parsed files is of one of the other families. -/
theorem packageCount_add_assetCount_add_unresolvedCount (g : Graph) :
    g.packageCount + g.assetCount + g.unresolvedCount = g.nodes.countP Node.isOutside := by
  rw [packageCount, assetCount, unresolvedCount]
  induction g.nodes with
  | nil => rfl
  | cons n rest ih =>
      have hone : (if n.isPackage then 1 else 0) + (if n.isAsset then 1 else 0) +
          (if n.isUnresolved then 1 else 0) = if n.isOutside then 1 else 0 := by
        cases n <;> rfl
      simp only [List.countP_cons]
      omega

/-- The parsed files are the files. -/
theorem Built.fileCount_eq (h : Built files table resolver ps g) : g.fileCount = files.length := by
  obtain ⟨others, hnodes, hothers⟩ := h.nodes
  have hall : (files.map Node.file).countP Node.isFile = (files.map Node.file).length :=
    List.countP_eq_length.mpr (List.forall_mem_map.mpr fun _ _ => rfl)
  have hnone : others.countP Node.isFile = 0 :=
    List.countP_eq_zero.mpr fun n hn => Bool.eq_false_iff.mp (hothers n hn).1
  rw [fileCount, hnodes, List.countP_append, hall, hnone, List.length_map, Nat.add_zero]

/-- Every node outside of the files has a dependency on it. -/
theorem Built.countP_isOutside_le (h : Built files table resolver ps g) :
    g.nodes.countP Node.isOutside ≤ g.outsideCount := by
  have hnumbers : List.range' files.length (g.nodes.length - files.length) ⊆
      (g.dependencies.filter fun d => g.nodes[d.target]?.any Node.isOutside).map (·.target) := by
    intro i hi
    obtain ⟨hle, hlt⟩ := List.mem_range'_1.mp hi
    have hlt' : i < g.nodes.length := by omega
    obtain ⟨d, hd, rfl⟩ := h.exists_dependency hle hlt'
    have hnode := List.getElem?_eq_getElem hlt'
    obtain ⟨hfile, _⟩ := h.exists_target_of_le hle hnode
    apply List.mem_map_of_mem
    rw [List.mem_filter, hnode, Option.any_some, Node.isOutside_eq, hfile]
    exact ⟨hd, rfl⟩
  calc
    g.nodes.countP Node.isOutside = g.nodes.length - files.length := by
      rw [← g.fileCount_add_countP_isOutside, h.fileCount_eq, Nat.add_sub_cancel_left]
    _ = (List.range' files.length (g.nodes.length - files.length)).length :=
      List.length_range'.symm
    _ ≤ _ := (List.subperm_of_subset List.nodup_range' hnumbers).length_le
    _ = g.outsideCount := by rw [List.length_map, outsideCount, List.countP_eq_length_filter]

end Graph

namespace Stats

/-- The statistics of files that were read and of the graph that is built from them agree. -/
theorem balanced_of {xs : List Extraction} (hxs : ∀ x ∈ xs, x.FromItems)
    (table : Extension.Table) (resolver : Resolver) (skipped : Nat) :
    let g := Graph.ofExtractions xs table resolver
    (Stats.of xs g skipped).Balanced xs g := by
  intro g
  obtain ⟨files, hfiled, hbuilt⟩ := Graph.exists_built xs table resolver
  have hdependencies : g.dependencies.length = (xs.flatMap (·.edges)).length := by
    rw [← Extraction.length_fileEdges]
    exact hbuilt.carries.length_eq.symm
  have hsplit : g.resolvedCount + g.outsideCount = (xs.flatMap (·.edges)).length := by
    rw [← hdependencies]
    exact hbuilt.grown.resolvedCount_add_outsideCount
  have houtside : g.outsideCount = (xs.flatMap (·.edges)).length - g.resolvedCount :=
    Nat.eq_sub_of_add_eq' hsplit
  have hfiles : g.fileCount = files.length := hbuilt.fileCount_eq
  have hlength : (xs.map fun x => x.file.normal).length = xs.length := List.length_map _
  constructor
  case kinds => rfl
  case sum_edgesByKind => exact EdgeKind.sum_countP _
  case length_dependencies => exact hdependencies
  case edges_le => exact Extraction.length_flatMap_edges_le hxs
  case resolvedFiles_le => exact Nat.le.intro hsplit
  case outsideCount => exact houtside
  case outside_le =>
    calc
      g.packageCount + g.assetCount + g.unresolvedCount = g.nodes.countP Node.isOutside :=
        g.packageCount_add_assetCount_add_unresolvedCount
      _ ≤ g.outsideCount := hbuilt.countP_isOutside_le
      _ = (xs.flatMap (·.edges)).length - g.resolvedCount := houtside
  case fileCount_le =>
    rw [hfiles]
    exact hfiled.firsts.length_le.trans_eq hlength
  case fileCount_eq_iff =>
    rw [hfiles, ← hfiled.firsts.length_eq_length_iff, hlength]
    rfl

/-- Three files, of which the last two have one collapsed path. The first imports them under two
spellings, a package, and a target that is not there and that the second imports as well. -/
def doubled : List Extraction :=
  Extraction.readAll
    [(⟨"src/a.ts"⟩, importsOf ["./b", ".//b", "react", "./gone"]),
      (⟨"./src//b.ts"⟩, importsOf ["./gone"]), (⟨"src/x/../b.ts"⟩, [])]
    Graph.typescript

/-- Two imports of one target are one edge, and the two edges to what is not there lead to one
node. -/
theorem balanced_of_doubled :
    let g := Graph.ofExtractions doubled Graph.typescript fun _ _ => .nothing
    let s := Stats.of doubled g 0
    (∀ x ∈ doubled, x.FromItems) ∧ (s.files, g.fileCount) = (3, 2) ∧
      (s.importRecords + s.exportRecords, s.edges, s.resolvedFiles) = (5, 4, 1) ∧
      (s.packages, s.assets, s.unresolved) = (1, 0, 1) ∧ s.Balanced doubled g := by
  intro g s
  have hxs : ∀ x ∈ doubled, x.FromItems := Extraction.fromItems_of_mem_readAll
  have hfiles : (s.files, g.fileCount) = (3, 2) := by decide +kernel
  have hedges : (s.importRecords + s.exportRecords, s.edges, s.resolvedFiles) = (5, 4, 1) := by
    decide +kernel
  have hothers : (s.packages, s.assets, s.unresolved) = (1, 0, 1) := by decide +kernel
  exact ⟨hxs, hfiles, hedges, hothers, balanced_of hxs _ _ 0⟩

end Stats

end ModuleGraph
