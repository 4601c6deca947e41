import ModuleGraph.Analysis
import ModuleGraph.Proofs.Discovery.Entries
import ModuleGraph.Proofs.Extraction.WellFormed

/-!
# What an analysis holds

Main statements: `exists_ofPath_eq_ok` and `exists_sources`. Once the source files under a path
are found their analysis cannot fail. It holds one extraction for each of them that can be read
and parsed, in their order, and each of them is spelled as its root and names after it.
-/

namespace ModuleGraph

namespace Analysis

/-- The analysis holds what is extracted from those of the files `paths` that can be read and
parsed. -/
structure Reads (d : Disk) (root : Path) (paths : List Path) (a : Analysis) : Prop where
  root : a.root = root
  files : a.files.map (·.file) = paths.filter fun p => (itemsOf? d p).isSome
  extracted : ∀ x ∈ a.files, ∃ items, itemsOf? d x.file = some items ∧
    Extraction.ofItems x.file items a.table = .ok x

variable {d : Disk} {path p : Path} {paths : List Path} {a : Analysis}

/-- The extraction of a file that is read never fails. -/
theorem extraction_cases (d : Disk) (table : Extension.Table) (p : Path) :
    (itemsOf? d p = none ∧ extraction d table p = .ok none) ∨
      ∃ items x, itemsOf? d p = some items ∧ extraction d table p = .ok (some x) ∧
        x.file = p ∧ Extraction.ofItems p items table = .ok x := by
  unfold extraction
  cases hitems : itemsOf? d p with
  | none => exact Or.inl ⟨rfl, rfl⟩
  | some items =>
      obtain ⟨x, hx, hfile, _⟩ := Extraction.exists_ofItems_eq_ok p items table
      exact Or.inr ⟨items, x, rfl, by simp only [hx], hfile, hx⟩

/-- Extracting some files one after the other gives what the readable ones of them hold. -/
theorem exists_mapM_extraction (d : Disk) (table : Extension.Table) (paths : List Path) :
    ∃ found, paths.mapM (extraction d table) = .ok found ∧
      (found.filterMap id).map (·.file) = paths.filter (fun p => (itemsOf? d p).isSome) ∧
      ∀ x ∈ found.filterMap id, ∃ items, itemsOf? d x.file = some items ∧
        Extraction.ofItems x.file items table = .ok x := by
  induction paths with
  | nil => exact ⟨[], rfl, rfl, nofun⟩
  | cons p rest ih =>
      obtain ⟨found, hfound, hfiles, hextracted⟩ := ih
      rcases extraction_cases d table p with ⟨hitems, hp⟩ | ⟨items, x, hitems, hp, rfl, hx⟩
      · refine ⟨none :: found, ?_, ?_, ?_⟩
        · rw [List.mapM_cons, hp, hfound]
          rfl
        · simpa [hitems] using hfiles
        · simpa using hextracted
      · refine ⟨some x :: found, ?_, ?_, ?_⟩
        · rw [List.mapM_cons, hp, hfound]
          rfl
        · simpa [hitems] using hfiles
        · rw [List.filterMap_cons_some (rfl : id (some x) = some x)]
          intro y hy
          rcases List.mem_cons.mp hy with rfl | hy
          · exact ⟨items, hitems, hx⟩
          · exact hextracted y hy

/-- Once the source files are found the analysis of a path gives a result. -/
theorem exists_ofPath_eq_ok
    (h : Discovery.sources d path (settingsIn d (rootOf d path)) = .ok paths) :
    ∃ a, ofPath d path = .ok a ∧ a.Reads d (rootOf d path) paths := by
  let table := (settingsIn d (rootOf d path)).table
  obtain ⟨found, hfound, hfiles, hextracted⟩ := exists_mapM_extraction d table paths
  let files := found.filterMap id
  refine ⟨⟨rootOf d path, table, files, found.length - files.length⟩, ?_, rfl, hfiles,
    hextracted⟩
  unfold ofPath
  simp only [h]
  rw [hfound]
  rfl

/-- What is analysed are the source files. -/
theorem exists_sources (h : ofPath d path = .ok a) :
    ∃ paths, Discovery.sources d path (settingsIn d a.root) = .ok paths ∧
      a.Reads d (rootOf d path) paths := by
  cases hpaths : Discovery.sources d path (settingsIn d (rootOf d path)) with
  | error fault => simp [ofPath, hpaths] at h
  | ok paths =>
      obtain ⟨b, hb, hreads⟩ := exists_ofPath_eq_ok hpaths
      cases h.symm.trans hb
      exact ⟨paths, by rw [hreads.root, hpaths], hreads⟩

theorem Reads.mem_paths {root : Path} (h : a.Reads d root paths) {x : Extraction}
    (hx : x ∈ a.files) : x.file ∈ paths := by
  have hmem : x.file ∈ a.files.map (·.file) := List.mem_map_of_mem hx
  rw [h.files] at hmem
  exact (List.mem_filter.mp hmem).1

/-- The edges of an analysed file are written in this file. -/
theorem Reads.file_eq {root : Path} (h : a.Reads d root paths) {x : Extraction}
    (hx : x ∈ a.files) {e : Edge} (he : e ∈ x.edges) : e.file = x.file := by
  obtain ⟨items, _, hok⟩ := h.extracted x hx
  obtain ⟨y, hy, _, _, hmerge⟩ := Extraction.exists_ofItems_eq_ok x.file items a.table
  cases hok.symm.trans hy
  exact (hmerge.sound e he).file

/-- A path is spelled as the directory whose settings hold for it, with the name of the file after
it if it leads to a file. -/
theorem exists_spelledBelow_rootOf (d : Disk) (hpath : path.isAbsolute = true) :
    ∃ names, Path.SpelledBelow (rootOf d path) names path := by
  unfold rootOf
  split
  · rename_i hfile
    obtain ⟨init, s, hsegs, hs⟩ := Disk.exists_isName_of_isFile hpath hfile
    exact ⟨[s], Path.spelledBelow_directory hpath hsegs hs⟩
  · exact ⟨[], Path.spelledBelow_descend hpath nofun⟩

/-- Source files are spelled as their root and names after it. -/
theorem exists_spelledBelow_of_mem_sources (hd : d.WellFormed) (hpath : path.isAbsolute = true)
    {settings : Settings} (h : Discovery.sources d path settings = .ok paths) (hp : p ∈ paths) :
    ∃ names, Path.SpelledBelow (rootOf d path) names p := by
  unfold Discovery.sources at h
  split at h
  · split at h
    · cases h
      rw [List.mem_singleton.mp hp]
      exact exists_spelledBelow_rootOf d hpath
    · cases h
  · rename_i hfile
    split at h
    · cases h
      have hfound := (List.mem_filter.mp (List.mem_mergeSort.mp hp)).1
      rw [Discovery.found_eq_map_descend] at hfound
      obtain ⟨names, hnames, rfl⟩ := List.mem_map.mp hfound
      rw [rootOf, if_neg hfile]
      exact ⟨names, Path.spelledBelow_descend hpath (Discovery.isName_of_mem_entries hd hnames)⟩
    · cases h

end Analysis

end ModuleGraph
