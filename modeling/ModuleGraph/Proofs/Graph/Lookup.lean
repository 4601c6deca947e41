import ModuleGraph.Proofs.Extraction.CandidatePaths
import ModuleGraph.Proofs.Graph.Build
import ModuleGraph.Proofs.Path.Directory
import ModuleGraph.Resolution.Resolver

/-!
# Which file a lookup finds

Main statement: `Graph.ofExtractions_candidates`. A specifier that is not found on disk leads to the
first of its candidates that is a file of the project, wherever this file stands in the list and
however its path is spelled there, and to a target that was not found when no candidate is one.

## Implementation notes

The graph finds files by the steps of their collapsed paths, and candidates are never collapsed
by it. Nothing is missed, because candidates are collapsed as they are written.
-/

namespace ModuleGraph

namespace Path

variable {files : List Path}

/-- A collapsed path names itself among collapsed files, or nothing. -/
theorem Collapsed.namedAmong?_eq (hfiles : ∀ f ∈ files, f.Collapsed) {p : Path}
    (hp : p.Collapsed) : namedAmong? files p = if p ∈ files then some p else none := by
  split
  · rename_i hmem
    exact (namedAmong?_eq_some_iff hfiles).mpr ⟨hmem, rfl⟩
  · rename_i hmem
    apply namedAmong?_eq_none_iff.mpr
    intro f hf hsteps
    rw [(hfiles f hf).eq_of_same hp (same_iff.mpr hsteps)] at hf
    exact hmem hf

/-- The first of some collapsed paths that names a file is that file. -/
theorem findSome?_namedAmong? (hfiles : ∀ f ∈ files, f.Collapsed) {ps : List Path}
    (hps : ∀ p ∈ ps, p.Collapsed) :
    ps.findSome? (namedAmong? files) = ps.find? fun p => decide (p ∈ files) := by
  induction ps with
  | nil => rfl
  | cons p rest ih =>
      rw [List.findSome?_cons, List.find?_cons, (hps p List.mem_cons_self).namedAmong?_eq hfiles,
        ih fun q hq => hps q (List.mem_cons_of_mem p hq)]
      by_cases hmem : p ∈ files <;> simp [hmem]

end Path

/-- What is known of the file was read off some items of it. -/
def Extraction.FromItems (x : Extraction) : Prop :=
  ∃ items table, ofItems x.file items table = .ok x

/-- What is known of the file was read off some items of it with this table. -/
def Extraction.ReadWith (table : Extension.Table) (x : Extraction) : Prop :=
  ∃ items, ofItems x.file items table = .ok x

/-- The edges of a file that was read are those of its records, which are those of its items. -/
theorem Extraction.ReadWith.exists_isMerge {table : Extension.Table} {x : Extraction}
    (h : x.ReadWith table) :
    ∃ items, x.records = Record.ofDeclarations x.file table (Declaration.ofItems items) ∧
      Edge.IsMerge x.file table (x.records.filterMap Record.added?) x.edges := by
  obtain ⟨items, hx⟩ := h
  obtain ⟨y, hy, _, hrecords, hmerge⟩ := exists_ofItems_eq_ok x.file items table
  obtain rfl : y = x := Except.ok.inj (hy.symm.trans hx)
  exact ⟨items, hrecords, hmerge⟩

/-- An edge of a file that was read has a specifier that was normalized there, and leads to an
asset if its specifier does. -/
theorem Extraction.ReadWith.normalizedIn {table : Extension.Table} {x : Extraction}
    (h : x.ReadWith table) {e : Edge} (he : e ∈ x.edges) :
    e.file = x.file ∧ e.specifier.NormalizedIn x.file table ∧
      e.isAsset = e.specifier.isAsset table := by
  obtain ⟨_, hrecords, hmerge⟩ := h.exists_isMerge
  have hjoins := hmerge.sound e he
  obtain ⟨c, hc, _, hspecifier⟩ := hjoins.exists_contribution
  rw [hrecords, Record.filterMap_added?_ofItems] at hc
  obtain ⟨u, _, rfl⟩ := List.mem_map.mp hc
  exact ⟨hjoins.file, ⟨u.target, hspecifier⟩, hjoins.isAsset_eq⟩

theorem Extraction.FromItems.exists_readWith {x : Extraction} (h : x.FromItems) :
    ∃ table, x.ReadWith table := by
  obtain ⟨items, table, hx⟩ := h
  exact ⟨table, items, hx⟩

/-- What the items of a file say. -/
def Extraction.read (file : Path) (items : List Item) (table : Extension.Table) : Extraction :=
  (ofItems file items table).toOption.getD default

theorem Extraction.readWith_read (file : Path) (items : List Item) (table : Extension.Table) :
    (read file items table).ReadWith table := by
  obtain ⟨x, hx, rfl, _⟩ := exists_ofItems_eq_ok file items table
  have hread : read x.file items table = x := by
    rw [read, hx]
    rfl
  rw [hread]
  exact ⟨items, hx⟩

/-- What the items of each file say. -/
def Extraction.readAll (files : List (Path × List Item)) (table : Extension.Table) :
    List Extraction :=
  files.map fun f => read f.1 f.2 table

theorem Extraction.readWith_of_mem_readAll {files : List (Path × List Item)}
    {table : Extension.Table} : ∀ x ∈ readAll files table, x.ReadWith table := by
  intro x hx
  obtain ⟨f, _, rfl⟩ := List.mem_map.mp hx
  exact readWith_read f.1 f.2 table

theorem Extraction.fromItems_of_mem_readAll {files : List (Path × List Item)}
    {table : Extension.Table} : ∀ x ∈ readAll files table, x.FromItems := by
  intro x hx
  obtain ⟨items, hread⟩ := readWith_of_mem_readAll x hx
  exact ⟨items, table, hread⟩

/-- The edges of files that were read, each with the file it is written in. -/
theorem Extraction.normalizedIn_of_mem_fileEdges {xs : List Extraction}
    (hxs : ∀ x ∈ xs, x.FromItems) {p : Path × Edge} (hp : p ∈ fileEdges xs) :
    p.2.file = p.1 ∧ ∃ table, p.2.specifier.NormalizedIn p.1 table := by
  obtain ⟨x, hx, hp⟩ := List.mem_flatMap.mp hp
  obtain ⟨e, he, rfl⟩ := List.mem_map.mp hp
  obtain ⟨table, hread⟩ := (hxs x hx).exists_readWith
  obtain ⟨hfile, hs, _⟩ := hread.normalizedIn he
  exact ⟨hfile, table, hs⟩

/-- An import of a default name from each of the sources. -/
def importsOf (sources : List String) : List Item :=
  sources.map fun source =>
    .importing
      { source, typeOnly := false, defaultName := some "x", wholeName := none, entries := [] }

namespace Edge

variable (e : Edge)

theorem request_of_not_isBare (h : e.specifier.isBare = false) (table : Extension.Table) :
    e.request table = .file (Request.candidates e.file e.specifier table) := by
  rw [request, h, if_neg Bool.false_ne_true]

/-- What is not found on disk is looked up among the files. -/
theorem target_of_not_isBare (h : e.specifier.isBare = false) {files : List Path}
    {table : Extension.Table} {resolver : Resolver}
    (hnone : (resolver e.file e.specifier.path).file? = none) :
    e.target files table resolver =
      (Request.file (Request.candidates e.file e.specifier table)).target files
        e.specifier.path := by
  rw [target, hnone, e.request_of_not_isBare h]

end Edge

/-- Nothing is found on disk for a file with a relative path. -/
theorem Resolution.Project.resolve_of_relative (project : Project) {file : Path}
    (h : file.isAbsolute = false) (specifier : String) :
    project.resolve file specifier = .nothing := by
  have hnone : file.parent?.filter Path.isAbsolute = none := by
    apply Option.filter_eq_none_iff.mpr
    intro q hq habs
    rw [Path.isAbsolute_parent? hq, h] at habs
    cases habs
  rw [resolve, hnone]

namespace Graph

/-- The node is the one of the first candidate that is a file of the project, or stands for a
target that was not found if none of them is one. -/
structure IsFirstAmong (g : Graph) (files candidates : List Path) (i : Nat) : Prop where
  file : ∀ path, g.nodes[i]? = some (.file path) ↔
    candidates.find? (fun c => decide (c ∈ files)) = some path
  missing : g.nodes[i]?.any Node.isUnresolved = true ↔ ∀ c ∈ candidates, c ∉ files

variable {files : List Path} {table : Extension.Table} {resolver : Resolver}
  {ps : List (Path × Edge)} {g : Graph}

/-- The dependency of an edge leads where the paths of the files alone decide. -/
theorem forall₂_identityAt_target (xs : List Extraction) (table : Extension.Table)
    (resolver : Resolver) :
    let g := ofExtractions xs table resolver
    List.Forall₂ (fun p d => g.identityAt d.target =
        some (p.2.target (xs.map fun x => x.file.normal) table resolver).identity)
      (Extraction.fileEdges xs) g.dependencies := by
  intro g
  obtain ⟨files, hfiled, hbuilt⟩ := exists_built xs table resolver
  rw [← Edge.target_congr hfiled.collapsed hfiled.firsts.mem_iff]
  exact hbuilt.forall₂_link.imp fun _ _ => congrArg Link.target

/-- Every edge of files that were read was normalized in its file, and its dependency leads where
the paths of the files alone decide. -/
theorem forall₂_target_ofExtractions {xs : List Extraction} (hxs : ∀ x ∈ xs, x.FromItems)
    (table : Extension.Table) (resolver : Resolver) :
    let g := ofExtractions xs table resolver
    List.Forall₂ (fun p d =>
        (p.2.file = p.1 ∧ ∃ t, p.2.specifier.NormalizedIn p.1 t) ∧
          g.identityAt d.target =
            some (p.2.target (xs.map fun x => x.file.normal) table resolver).identity)
      (Extraction.fileEdges xs) g.dependencies := by
  intro g
  apply (List.forall₂_and_left _ _).mpr
  constructor
  · exact fun _ => Extraction.normalizedIn_of_mem_fileEdges hxs
  · exact forall₂_identityAt_target xs table resolver

/-- A lookup among collapsed candidates ends at the first of them that is a file. -/
theorem isFirstAmong_of_identityAt (hfiles : ∀ f ∈ files, f.Collapsed) {candidates : List Path}
    (hcandidates : ∀ c ∈ candidates, c.Collapsed) {specifier : String} {i : Nat}
    (h : g.identityAt i = some ((Request.file candidates).target files specifier).identity) :
    g.IsFirstAmong files candidates i := by
  rw [Request.target, Path.findSome?_namedAmong? hfiles hcandidates] at h
  cases hfirst : candidates.find? fun c => decide (c ∈ files) with
  | some f =>
      rw [hfirst] at h
      have hf : f ∈ files := by simpa using List.find?_some hfirst
      constructor
      · intro path
        rw [← identityAt_file_iff, h, hfirst, Option.some.injEq, Option.some.injEq]
        exact NodeIdentity.file.injEq f path ▸ Iff.rfl
      · rw [any_isUnresolved_iff, h]
        apply iff_of_false
        · rintro ⟨steps, hid⟩
          cases hid
        · intro hnone
          exact hnone f (List.mem_of_find?_eq_some hfirst) hf
  | none =>
      rw [hfirst] at h
      constructor
      · intro path
        rw [← identityAt_file_iff, h, hfirst]
        exact iff_of_false nofun nofun
      · rw [any_isUnresolved_iff, h]
        apply iff_of_true ⟨_, rfl⟩
        intro c hc hmem
        simpa [hmem] using List.find?_eq_none.mp hfirst c hc

/-- Of the edges that are not bare, each is looked up under different collapsed paths; and unless
it is found on disk, as nothing is for a file with a relative path, its dependency leads to the
first of them that is a file of the project, or to a target that was not found if none is. -/
theorem ofExtractions_candidates {xs : List Extraction} (hxs : ∀ x ∈ xs, x.FromItems)
    (htable : table.Grown) (hexts : ∀ ext ∈ table.modules, '/' ∉ ext.toList)
    (resolver : Resolver) :
    let g := ofExtractions xs table resolver
    let files := xs.map fun x => x.file.normal
    List.Forall₂ (fun p d => p.2.specifier.isBare = false →
        ∃ candidates, p.2.request table = .file candidates ∧
          candidates.Nodup ∧ (∀ c ∈ candidates, c.normal = c) ∧
          ((resolver p.1 p.2.specifier.path).file? = none →
            g.IsFirstAmong files candidates d.target))
        (Extraction.fileEdges xs) g.dependencies ∧
      ∀ (project : Resolution.Project) (file : Path) (specifier : String),
        file.isAbsolute = false → (project.resolve file specifier).file? = none := by
  intro g files
  constructor
  · apply (forall₂_target_ofExtractions hxs table resolver).imp
    intro p d ⟨⟨hfile, t, hs⟩, hd⟩ hbare
    rw [← hfile] at hs ⊢
    have hcollapsed := fun c =>
      Request.collapsed_of_mem_candidates hs hbare htable.nodup_modules hexts (c := c)
    refine ⟨Request.candidates p.2.file p.2.specifier table, ?_, ?_, hcollapsed, ?_⟩
    · exact p.2.request_of_not_isBare hbare table
    · exact Request.nodup_candidates hs hbare htable.nodup_modules hexts
    · intro hnone
      rw [p.2.target_of_not_isBare hbare hnone] at hd
      apply isFirstAmong_of_identityAt _ hcollapsed hd
      intro f hf
      obtain ⟨x, _, rfl⟩ := List.mem_map.mp hf
      exact x.file.collapsed_normal
  · intro project file specifier hrel
    rw [project.resolve_of_relative hrel]
    rfl

/-- The extensions `ts` and `tsx`. -/
def typescript : Extension.Table :=
  (Extension.Table.empty.insert "ts" (.module .typescript)).insert "tsx" (.module .typescript)

/-- A module that imports a neighbour and what is not there, and two files the neighbour may be.
Neither of these has a collapsed path, and the one that is tried later is listed first. -/
def neighbours : List Extraction :=
  Extraction.readAll
    [(⟨"src/m.ts"⟩, importsOf ["./b", "./gone"]), (⟨"src/x/../b/index.ts"⟩, []),
      (⟨"./src//b.tsx"⟩, [])]
    typescript

/-- The neighbour is the file `b.tsx` and not the index file of the directory `b`. -/
theorem ofExtractions_candidates_neighbours :
    let resolver : Resolver := fun _ _ => .nothing
    let g := ofExtractions neighbours typescript resolver
    let files := neighbours.map fun x => x.file.normal
    (∀ x ∈ neighbours, x.FromItems) ∧ typescript.Grown ∧
      (∀ ext ∈ typescript.modules, '/' ∉ ext.toList) ∧
      (g.nodes, g.dependencies.map (·.target)) =
        ([.file ⟨"src/m.ts"⟩, .file ⟨"src/b/index.ts"⟩, .file ⟨"src/b.tsx"⟩,
          .unresolved ⟨"src/gone.ts"⟩ "./gone"], [2, 3]) ∧
      List.Forall₂ (fun p d => p.2.specifier.isBare = false →
          ∃ candidates, p.2.request typescript = .file candidates ∧
            candidates.Nodup ∧ (∀ c ∈ candidates, c.normal = c) ∧
            ((resolver p.1 p.2.specifier.path).file? = none →
              g.IsFirstAmong files candidates d.target))
          (Extraction.fileEdges neighbours) g.dependencies := by
  intro resolver g files
  have hxs : ∀ x ∈ neighbours, x.FromItems := Extraction.fromItems_of_mem_readAll
  have htable : typescript.Grown := .insert _ _ (.insert _ _ .empty)
  have hexts : ∀ ext ∈ typescript.modules, '/' ∉ ext.toList := by decide +kernel
  have hgraph : (g.nodes, g.dependencies.map (·.target)) =
      ([.file ⟨"src/m.ts"⟩, .file ⟨"src/b/index.ts"⟩, .file ⟨"src/b.tsx"⟩,
        .unresolved ⟨"src/gone.ts"⟩ "./gone"], [2, 3]) := by
    decide +kernel
  obtain ⟨hfirst, _⟩ := ofExtractions_candidates hxs htable hexts resolver
  exact ⟨hxs, htable, hexts, hgraph, hfirst⟩

end Graph

end ModuleGraph
