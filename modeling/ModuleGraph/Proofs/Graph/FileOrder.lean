import ModuleGraph.Graph.Stats
import ModuleGraph.Proofs.Graph.Build
import ModuleGraph.Proofs.Graph.Requires

/-!
# The order of the files

Main statement: `ofExtractions_perm`. The order in which the files of a project are listed decides
the numbers of the nodes and the labels of targets that were not found, and nothing else: the
cycles and the statistics are the same, and so are, up to their order, the links and what the
nodes are.

## Implementation notes

Where an edge leads depends only on which files are parsed, so two builds follow the same edges
to the same targets, in different orders. Everything else is read from the links and from what
the nodes are.
-/

namespace ModuleGraph

theorem Extraction.fileEdges_perm {xs ys : List Extraction} (h : xs.Perm ys) :
    (fileEdges xs).Perm (fileEdges ys) :=
  h.flatMap_right _

/-- The property of a node is one of what the node is, whatever its number and label. -/
def Node.ByIdentity (p : Node → Bool) : Prop := ∃ q : NodeIdentity → Bool, ∀ n, p n = q n.identity

namespace Node

theorem byIdentity_isFile : ByIdentity isFile :=
  ⟨fun | .file _ => true | _ => false, fun n => by cases n <;> rfl⟩

theorem byIdentity_isPackage : ByIdentity isPackage :=
  ⟨fun | .package _ => true | _ => false, fun n => by cases n <;> rfl⟩

theorem byIdentity_isAsset : ByIdentity isAsset :=
  ⟨fun | .asset .. => true | _ => false, fun n => by cases n <;> rfl⟩

theorem byIdentity_isUnresolved : ByIdentity isUnresolved :=
  ⟨fun | .unresolved _ => true | _ => false, fun n => by cases n <;> rfl⟩

end Node

namespace Graph

variable {g g' : Graph}

/-- Graphs with the same nodes have equally many of a property that is one of what they are. -/
theorem countP_nodes_eq (h : g.identities.Perm g'.identities) {p : Node → Bool}
    (hp : Node.ByIdentity p) : g.nodes.countP p = g'.nodes.countP p := by
  obtain ⟨q, hq⟩ := hp
  have hcount : ∀ g : Graph, g.nodes.countP p = g.identities.countP q := by
    intro g
    rw [identities, List.countP_map]
    exact List.countP_congr fun n _ => by simp [hq n]
  rw [hcount g, hcount g']
  exact h.countP_eq q

/-- Graphs with the same links have equally many that end in a node of such a property. -/
theorem countP_targets_eq (h : g.links.Perm g'.links) {p : Node → Bool}
    (hp : Node.ByIdentity p) :
    g.dependencies.countP (fun d => g.nodes[d.target]?.any p) =
      g'.dependencies.countP fun d => g'.nodes[d.target]?.any p := by
  obtain ⟨q, hq⟩ := hp
  have hany : ∀ (g : Graph) (i : Nat), g.nodes[i]?.any p = (g.identityAt i).any q := by
    intro g i
    rw [identityAt]
    cases g.nodes[i]? with
    | none => rfl
    | some n => exact hq n
  have hcount : ∀ g : Graph, g.dependencies.countP (fun d => g.nodes[d.target]?.any p) =
      g.links.countP fun l => l.target.any q := by
    intro g
    rw [links, List.countP_map]
    exact List.countP_congr fun d _ => by simp [hany g d.target, link]
  rw [hcount g, hcount g']
  exact h.countP_eq _

theorem requires_iff_of_perm (h : g.links.Perm g'.links) (p q : Path) :
    g.Requires p q ↔ g'.Requires p q := by
  unfold Requires
  simp only [h.mem_iff]

section Builds

variable {files files' : List Path} {table : Extension.Table} {resolver : Resolver}
  {ps ps' : List (Path × Edge)}

/-- The nodes of a build are its files and what its edges lead to. -/
theorem Built.mem_identities_iff (h : Built files table resolver ps g) (a : NodeIdentity) :
    a ∈ g.identities ↔ (∃ f ∈ files, a = .file f) ∨
      ∃ p ∈ ps, a = (p.2.target files table resolver).identity := by
  obtain ⟨others, hnodes, hothers⟩ := h.nodes
  constructor
  · intro ha
    obtain ⟨n, hn, rfl⟩ := List.mem_map.mp ha
    rw [hnodes] at hn
    rcases List.mem_append.mp hn with hn | hn
    · obtain ⟨f, hf, rfl⟩ := List.mem_map.mp hn
      exact Or.inl ⟨f, hf, rfl⟩
    · obtain ⟨_, p, hp, rfl⟩ := hothers n hn
      exact Or.inr ⟨p, hp, rfl⟩
  · rintro (⟨f, hf, rfl⟩ | ⟨p, hp, rfl⟩)
    · rw [identities, hnodes]
      exact List.mem_map_of_mem (List.mem_append_left _ (List.mem_map_of_mem hf))
    · obtain ⟨d, _, htarget⟩ := h.exists_identityAt_target hp
      obtain ⟨n, hn, hid⟩ := identityAt_eq_some_iff.mp htarget
      rw [← hid]
      exact List.mem_map_of_mem (List.mem_of_getElem? hn)

/-- Builds from the same files by the same edges make the same links. -/
theorem Built.links_perm (h : Built files table resolver ps g)
    (h' : Built files' table resolver ps' g') (hfiles : ∀ f ∈ files, f.Collapsed)
    (hmem : ∀ f, f ∈ files ↔ f ∈ files') (hps : ps.Perm ps') : g.links.Perm g'.links := by
  have hlink : Link.ofEdge files table resolver = Link.ofEdge files' table resolver := by
    funext p
    rw [Link.ofEdge, Link.ofEdge, Edge.target_congr hfiles hmem]
  rw [h.links, h'.links, hlink]
  exact hps.map _

/-- Builds from the same files by the same edges have the same nodes. -/
theorem Built.identities_perm (h : Built files table resolver ps g)
    (h' : Built files' table resolver ps' g') (hfiles : ∀ f ∈ files, f.Collapsed)
    (hmem : ∀ f, f ∈ files ↔ f ∈ files') (hps : ps.Perm ps') :
    g.identities.Perm g'.identities := by
  apply (List.perm_ext_iff_of_nodup h.grown.nodup_identities h'.grown.nodup_identities).mpr
  intro a
  rw [h.mem_identities_iff, h'.mem_identities_iff, Edge.target_congr hfiles hmem]
  simp only [hmem, hps.mem_iff]

end Builds

end Graph

/-- The statistics are read from the extracted files, the links and what the nodes are. -/
theorem Stats.of_perm {xs ys : List Extraction} (h : xs.Perm ys) {g g' : Graph}
    (hcycles : g.cycles = g'.cycles) (hlinks : g.links.Perm g'.links)
    (hnodes : g.identities.Perm g'.identities) (skipped : Nat) :
    Stats.of xs g skipped = Stats.of ys g' skipped := by
  have hedges : (xs.flatMap (·.edges)).Perm (ys.flatMap (·.edges)) := h.flatMap_right _
  have himports : (xs.flatMap (·.imports)).Perm (ys.flatMap (·.imports)) := h.flatMap_right _
  have hexports : (xs.flatMap (·.exports)).Perm (ys.flatMap (·.exports)) := h.flatMap_right _
  have hnames := hexports.flatMap_right (·.form.exportedNames)
  have hresolved : g.resolvedCount = g'.resolvedCount :=
    Graph.countP_targets_eq hlinks Node.byIdentity_isFile
  have hpackages : g.packageCount = g'.packageCount :=
    Graph.countP_nodes_eq hnodes Node.byIdentity_isPackage
  have hassets : g.assetCount = g'.assetCount :=
    Graph.countP_nodes_eq hnodes Node.byIdentity_isAsset
  have hunresolved : g.unresolvedCount = g'.unresolvedCount :=
    Graph.countP_nodes_eq hnodes Node.byIdentity_isUnresolved
  simp only [Stats.of, h.length_eq, himports.length_eq, hexports.length_eq, hnames.length_eq,
    hedges.length_eq, hedges.countP_eq, hresolved, hpackages, hassets, hunresolved, hcycles,
    h.countP_eq]

namespace Graph

/-- The order of the files changes neither the cycles nor the statistics, and of the links and of
what the nodes are it changes no more than the order. -/
theorem ofExtractions_perm {xs ys : List Extraction} (h : xs.Perm ys) (table : Extension.Table)
    (resolver : Resolver) (skipped : Nat) :
    let g := ofExtractions xs table resolver
    let g' := ofExtractions ys table resolver
    g.cycles = g'.cycles ∧ Stats.of xs g skipped = Stats.of ys g' skipped ∧
      g.links.Perm g'.links ∧ g.identities.Perm g'.identities := by
  obtain ⟨files, hfiled, hbuilt⟩ := exists_built xs table resolver
  obtain ⟨files', hfiled', hbuilt'⟩ := exists_built ys table resolver
  have hmem : ∀ f, f ∈ files ↔ f ∈ files' := by
    intro f
    rw [hfiled.firsts.mem_iff, hfiled'.firsts.mem_iff]
    exact (h.map _).mem_iff
  have hedges := Extraction.fileEdges_perm h
  have hlinks := hbuilt.links_perm hbuilt' hfiled.collapsed hmem hedges
  have hnodes := hbuilt.identities_perm hbuilt' hfiled.collapsed hmem hedges
  have hcycles := hbuilt.grown.cycles_congr hbuilt'.grown (requires_iff_of_perm hlinks)
  exact ⟨hcycles, Stats.of_perm h hcycles hlinks hnodes skipped, hlinks, hnodes⟩

/-- A file that imports these and nothing else. -/
def importing (file : Path) (sources : List String) : Extraction :=
  { file
    records := []
    edges := sources.map fun source =>
      { file, specifier := Specifier.normalize source file .standard, kind := .staticImport,
        typeOnly := false, isAsset := false }
    globals := [] }

/-- A file that imports `entry` and a file that is missing. -/
def library : Extraction := importing ⟨"lib/b.ts"⟩ ["../src/a", "../src/gone"]

/-- A file that imports `library` and the same missing file by a shorter name. -/
def entry : Extraction := importing ⟨"src/a.ts"⟩ ["../lib/b", "./gone"]

/-- The files change places and the missing file its label; the rest is as it was. -/
theorem ofExtractions_perm_swapped :
    let g := ofExtractions [entry, library] .standard fun _ _ => .nothing
    let g' := ofExtractions [library, entry] .standard fun _ _ => .nothing
    [entry, library].Perm [library, entry] ∧
      g.nodes = [.file ⟨"src/a.ts"⟩, .file ⟨"lib/b.ts"⟩, .unresolved ⟨"src/gone.ts"⟩ "./gone"] ∧
      g'.nodes =
        [.file ⟨"lib/b.ts"⟩, .file ⟨"src/a.ts"⟩, .unresolved ⟨"src/gone.ts"⟩ "../src/gone"] ∧
      g.cycles = g'.cycles ∧
      Stats.of [entry, library] g 0 = Stats.of [library, entry] g' 0 ∧
      g.links.Perm g'.links ∧ g.identities.Perm g'.identities := by
  have hperm : [entry, library].Perm [library, entry] := List.Perm.swap library entry []
  obtain ⟨hcycles, hstats, hlinks, hnodes⟩ :=
    ofExtractions_perm hperm .standard (fun _ _ => .nothing) 0
  exact ⟨hperm, by decide +kernel, by decide +kernel, hcycles, hstats, hlinks, hnodes⟩

end Graph

end ModuleGraph
