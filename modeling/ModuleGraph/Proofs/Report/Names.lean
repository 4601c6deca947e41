import Mathlib.Data.List.Permutation
import ModuleGraph.Proofs.Analysis
import ModuleGraph.Proofs.Graph.Build
import ModuleGraph.Proofs.Graph.Requires
import ModuleGraph.Report.Cycles

/-!
# The names of files in reports

Main statement: `cycles_named_as_edges_iff`. The report on cycles names a file by its collapsed
path and the report on edges by its path as it was found. Both names are the same when the path
that is analysed goes straight, and no file has the same name in both when it does not.
-/

namespace ModuleGraph

namespace Graph

/-- A file of a cycle is one of the files of which the graph was built, and it has an edge that
is not of types alone. -/
theorem exists_edge_of_mem_cycles {xs : List Extraction} {table : Extension.Table}
    {resolver : Resolver} {c : Cycle} (hc : c ∈ (ofExtractions xs table resolver).cycles)
    {f : Path} (hf : f ∈ c.files) :
    ∃ x ∈ xs, x.file.normal = f ∧ ∃ e ∈ x.edges, e.typeOnly = false := by
  obtain ⟨files, _, hbuilt⟩ := exists_built xs table resolver
  obtain ⟨p, _, first, rest, hfiles, _, hmem⟩ := hbuilt.grown.mem_cycles_iff.mp hc
  have hlisted : f ∈ first :: rest := by
    rw [hfiles] at hf
    rcases List.mem_append.mp hf with hf | hf
    · exact hf
    · rw [List.mem_singleton.mp hf]
      exact List.mem_cons_self
  obtain ⟨q, ⟨l, hl, hsource, _, htype, _⟩, _⟩ :=
    Relation.TransGen.head'_iff.mp ((hmem f).mp hlisted).2
  rw [hbuilt.links] at hl
  obtain ⟨⟨file, e⟩, he, rfl⟩ := List.mem_map.mp hl
  obtain ⟨x, hx, hxe⟩ := List.mem_flatMap.mp he
  obtain ⟨_, he', heq⟩ := List.mem_map.mp hxe
  cases heq
  exact ⟨x, hx, NodeIdentity.file.inj (Option.some.inj hsource), e, he', htype⟩

end Graph

namespace Report

open Analysis (rootOf settingsIn)

variable {root p : Path} {names : List String}

theorem named_of_spelledBelow (h : Path.SpelledBelow root names p) :
    named root p = Text.join '/' names := by
  rw [named, h.below?_eq]
  rfl

/-- A path and its collapsed spelling are named alike from a root that goes straight and from no
other root. -/
theorem named_normal_iff (h : Path.SpelledBelow root names p) :
    named root p.normal = named root p ↔ root.Straight := by
  constructor
  · intro hnamed
    by_contra hroot
    -- the collapsed path does not lie below the root, and so it is named in full
    rw [named_of_spelledBelow h, named, Path.below?_normal_eq_none h.isAbsolute hroot] at hnamed
    have habs : p.normal.isAbsolute = true := (Path.isAbsolute_normal p).trans h.isAbsolute
    have hnot := Path.isAbsolute_join_of_isName h.isName
    rw [← hnamed, Option.getD_none] at hnot
    cases habs.symm.trans hnot
  · intro hroot
    rw [named_of_spelledBelow h, named_of_spelledBelow (h.normal hroot)]

/-- An edge that is not of types alone has a row in every view of the edges. -/
theorem exists_row {files : List Extraction} {x : Extraction} (hx : x ∈ files) {e : Edge}
    (he : e ∈ x.edges) (htype : e.typeOnly = false) (view : EdgeView) :
    ∃ row ∈ EdgeRow.ofFiles root view files, row.file = named root e.file := by
  refine ⟨EdgeRow.ofEdge root view e, List.mem_map_of_mem ?_, rfl⟩
  exact List.mem_filter.mpr ⟨List.mem_flatMap.mpr ⟨x, hx, he⟩, by simp [htype]⟩

/-- The reports on cycles and on edges name every file alike if the path that is analysed goes
straight, and no file if it does not. Each source file is named by its collapsed path as it is
by its own exactly then; and each file of a cycle is the collapsed path of a file that the report
on edges names, too. -/
theorem cycles_named_as_edges_iff {d : Disk} (hd : d.WellFormed) (argument : Path)
    {a : Analysis} (ha : Analysis.ofPath d (argument.absolute d.workingDirectory) = .ok a) :
    (∃ paths, Discovery.sources d (argument.absolute d.workingDirectory) (settingsIn d a.root) =
        .ok paths ∧
      ∀ p ∈ paths, named a.root p.normal = named a.root p ↔
        (argument.absolute d.workingDirectory).Straight) ∧
    ∀ c ∈ (a.graph d).cycles, ∀ f ∈ c.files,
      (∃ x ∈ a.files, x.file.normal = f ∧
        ∀ view, ∃ row ∈ EdgeRow.ofFiles a.root view a.files, row.file = named a.root x.file) ∧
      ∀ x ∈ a.files, x.file.normal = f →
        (named a.root f = named a.root x.file ↔
          (argument.absolute d.workingDirectory).Straight) := by
  have hpath := Path.isAbsolute_absolute hd.isAbsolute argument
  obtain ⟨paths, hpaths, hreads⟩ := Analysis.exists_sources ha
  obtain ⟨_, hself⟩ := Analysis.exists_spelledBelow_rootOf d hpath
  have hnamed : ∀ p ∈ paths, named a.root p.normal = named a.root p ↔
      (argument.absolute d.workingDirectory).Straight := by
    intro p hp
    obtain ⟨names, hspelled⟩ := Analysis.exists_spelledBelow_of_mem_sources hd hpath hpaths hp
    rw [hreads.root, named_normal_iff hspelled, hself.straight_iff]
  refine ⟨⟨paths, hpaths, hnamed⟩, fun c hc f hf => ⟨?_, ?_⟩⟩
  · obtain ⟨x, hx, hfile, e, he, htype⟩ := Graph.exists_edge_of_mem_cycles hc hf
    refine ⟨x, hx, hfile, fun view => ?_⟩
    rw [← hreads.file_eq hx he]
    exact exists_row hx he htype view
  · rintro x hx rfl
    exact hnamed x.file (hreads.mem_paths hx)

/-- A directory with the file `src/a.ts`. -/
def lone (c : Contents) : Disk :=
  ⟨[(["w"], .directory), (["w", "src", "a.ts"], .file c)], ⟨"/w"⟩⟩

/-- A file that imports itself. -/
def selfish : Contents :=
  { bytes := "import './a';".toUTF8
    tree := Source.Tree.ofPreorder?
      [(0, ⟨"program", true, none, 0, 13⟩),
       (1, ⟨"import_statement", true, none, 0, 13⟩),
       (2, ⟨"import", false, none, 0, 6⟩),
       (2, ⟨"string", true, some .source, 7, 12⟩),
       (3, ⟨"'", false, none, 7, 8⟩),
       (3, ⟨"string_fragment", true, none, 8, 11⟩),
       (3, ⟨"'", false, none, 11, 12⟩),
       (2, ⟨";", false, none, 12, 13⟩)] }

theorem wellFormed_lone : (lone selfish).WellFormed := ⟨by decide +kernel, by decide⟩

/-- A path that finds one file of the directory is analysed by reading this file. -/
theorem exists_ofPath_lone {c : Contents} {path p : Path} {names : Place}
    (hdirectory : (lone c).isDirectory path = true)
    (hsettings : (lone c).read? (path.join ⟨Settings.fileName⟩) = none)
    (hentries : Discovery.entries (lone c) path = [names]) (hp : path.descend names = p)
    (hsource : Discovery.isSource .none p = true) (hread : (lone c).read? p = some c)
    (hitems : (c.tree.bind fun tree => (Source.parse p ⟨c.bytes, tree⟩).toOption).isSome) :
    ∃ a, Analysis.ofPath (lone c) path = .ok a ∧ a.root = path ∧ a.files.map (·.file) = [p] := by
  have hfile : (lone c).isFile path = false := Disk.isFile_eq_false_of_isDirectory hdirectory
  have hroot : rootOf (lone c) path = path := by simp [rootOf, hfile]
  have hnone : settingsIn (lone c) path = .none := by
    rw [settingsIn, hsettings]
    rfl
  have hsources : Discovery.sources (lone c) path (settingsIn (lone c) (rootOf (lone c) path)) =
      .ok [p] := by
    rw [hroot, hnone, Discovery.sources, Discovery.found_eq_map_descend, hentries]
    simp [hfile, hdirectory, hp, hsource]
  have hsome : (Analysis.itemsOf? (lone c) p).isSome = true := by
    rw [Analysis.itemsOf?, hread]
    exact hitems
  obtain ⟨a, ha, hreads⟩ := Analysis.exists_ofPath_eq_ok hsources
  refine ⟨a, ha, hreads.root.trans hroot, ?_⟩
  rw [hreads.files]
  simp [hsome]

theorem exists_ofPath_src :
    ∃ a, Analysis.ofPath (lone selfish) ⟨"/w/src"⟩ = .ok a ∧ a.root = ⟨"/w/src"⟩ ∧
      a.files.map (·.file) = [⟨"/w/src/a.ts"⟩] := by
  have hdirectory (c : Contents) : (lone c).isDirectory ⟨"/w/src"⟩ = true := by cbv
  have hsettings (c : Contents) : (lone c).read? ⟨"/w/src/modgraph.toml"⟩ = none := by cbv
  have hread (c : Contents) : (lone c).read? ⟨"/w/src/a.ts"⟩ = some c := by cbv
  have hentries (c : Contents) : Discovery.entries (lone c) ⟨"/w/src"⟩ = [["a.ts"]] :=
    Discovery.entries_eq_singleton ["w", "src"] (.file c) (by cbv) (by cbv)
      rfl rfl (by cbv)
  exact exists_ofPath_lone (hdirectory _) (hsettings _) (hentries _) (by decide +kernel)
    (by decide +kernel) (hread _) (by decide +kernel)

/-- Read from its directory, the file has one name in both reports. -/
theorem cycles_named_as_edges_src :
    (lone selfish).WellFormed ∧
      ∃ a, Analysis.ofPath (lone selfish)
          ((⟨"src"⟩ : Path).absolute (lone selfish).workingDirectory) = .ok a ∧
        ∃ x ∈ a.files, named a.root x.file.normal = named a.root x.file := by
  have hpath : (⟨"src"⟩ : Path).absolute (lone selfish).workingDirectory = ⟨"/w/src"⟩ := by
    change (⟨"src"⟩ : Path).absolute ⟨"/w"⟩ = ⟨"/w/src"⟩
    decide +kernel
  obtain ⟨a, ha, _, hfiles⟩ := exists_ofPath_src
  rw [← hpath] at ha
  obtain ⟨⟨paths, hpaths, hnamed⟩, _⟩ := cycles_named_as_edges_iff wellFormed_lone _ ha
  obtain ⟨paths', hpaths', hreads⟩ := Analysis.exists_sources ha
  cases hpaths.symm.trans hpaths'
  have hmem : ⟨"/w/src/a.ts"⟩ ∈ a.files.map (·.file) := by simp [hfiles]
  obtain ⟨x, hx, _⟩ := List.mem_map.mp hmem
  refine ⟨wellFormed_lone, a, ha, x, hx, (hnamed _ (hreads.mem_paths hx)).mpr ?_⟩
  rw [hpath]
  decide +kernel

/-- Read from a directory below it and a climb, the file is named in full by the report on
cycles only. -/
theorem not_named_alike_after_climb :
    ∃ a, Analysis.ofPath (lone selfish)
        ((⟨"src/.."⟩ : Path).absolute (lone selfish).workingDirectory) = .ok a ∧
      ∃ p ∈ a.files.map (·.file),
        named a.root p = "src/a.ts" ∧ named a.root p.normal = "/w/src/a.ts" := by
  have hpath : (⟨"src/.."⟩ : Path).absolute (lone selfish).workingDirectory = ⟨"/w/src/.."⟩ := by
    change (⟨"src/.."⟩ : Path).absolute ⟨"/w"⟩ = ⟨"/w/src/.."⟩
    decide +kernel
  have hdirectory (c : Contents) : (lone c).isDirectory ⟨"/w/src/.."⟩ = true := by cbv
  have hsettings (c : Contents) : (lone c).read? ⟨"/w/src/../modgraph.toml"⟩ = none := by cbv
  have hread (c : Contents) : (lone c).read? ⟨"/w/src/../src/a.ts"⟩ = some c := by cbv
  have hentries (c : Contents) :
      Discovery.entries (lone c) ⟨"/w/src/.."⟩ = [["src", "a.ts"]] :=
    Discovery.entries_eq_singleton ["w"] (.file c) (by cbv) (by cbv) rfl rfl
      (by cbv)
  obtain ⟨a, ha, hroot, hfiles⟩ := exists_ofPath_lone (p := ⟨"/w/src/../src/a.ts"⟩)
    (hdirectory selfish) (hsettings _) (hentries _) (by decide +kernel) (by decide +kernel)
    (hread _) (by decide +kernel)
  refine ⟨a, by rw [hpath, ha], ⟨"/w/src/../src/a.ts"⟩, by simp [hfiles], ?_⟩
  rw [hroot]
  decide +kernel

end Report

end ModuleGraph
