import ModuleGraph.Proofs.Edge.Package
import ModuleGraph.Proofs.Graph.Lookup

/-!
# The nodes of packages

Main statement: `Graph.package_target_eq_iff`. A bare specifier that is not found as a file of the
project leads to the node of its package. Two of them lead to one node exactly when they begin with
the same segments, so what is imported of a package makes no difference, and a package within a
scope is never taken for one without.
-/

namespace ModuleGraph

/-- The edge is found on disk as one of the files. -/
def Edge.FindsFile (files : List Path) (resolver : Resolver) (e : Edge) : Prop :=
  ∃ path, (resolver e.file e.specifier.path).file? = some path ∧ path.normal ∈ files

theorem Edge.findsFile_iff {files : List Path} {resolver : Resolver} {e : Edge} :
    e.FindsFile files resolver ↔
      (resolver e.file e.specifier.path).file?.any (fun path => decide (path.normal ∈ files)) := by
  rw [FindsFile]
  cases (resolver e.file e.specifier.path).file? <;> simp

instance (files : List Path) (resolver : Resolver) (e : Edge) :
    Decidable (e.FindsFile files resolver) :=
  decidable_of_iff _ Edge.findsFile_iff.symm

namespace Edge

variable {e : Edge} (h : e.specifier.isBare = true)
include h

theorem request_of_isBare (table : Extension.Table) :
    e.request table =
      .package (Request.packageName e.specifier.path)
        (Request.packageSubpath e.specifier.path) := by
  rw [request, if_pos h]

/-- A bare edge that is not found as a file leads to its package. -/
theorem target_of_isBare {files : List Path} (hfiles : ∀ f ∈ files, f.Collapsed)
    (table : Extension.Table) {resolver : Resolver} (hnone : ¬ e.FindsFile files resolver) :
    e.target files table resolver = .package (Request.packageName e.specifier.path) := by
  have hrequest : (e.request table).target files e.specifier.path =
      .package (Request.packageName e.specifier.path) := by
    rw [request_of_isBare h, Request.target]
  unfold target
  split
  · exact hrequest
  · rename_i path hpath
    have hunnamed : Path.namedAmong? files path.normal = none := by
      apply Path.namedAmong?_eq_none_iff.mpr
      intro f hf hsteps
      apply hnone
      refine ⟨path, hpath, ?_⟩
      rw [← (hfiles f hf).eq_of_same path.collapsed_normal (Path.same_iff.mpr hsteps)]
      exact hf
    rw [hunnamed]
    dsimp only
    rw [if_pos h]
    exact hrequest

end Edge

namespace Graph

theorem identityAt_package_iff {g : Graph} {i : Nat} {name : String} :
    g.identityAt i = some (.package name) ↔ g.nodes[i]? = some (.package name) := by
  rw [identityAt_eq_some_iff]
  constructor
  · rintro ⟨n, hn, hid⟩
    cases n with
    | package other => rw [hn, NodeIdentity.package.inj hid]
    | _ => cases hid
  · intro h
    exact ⟨.package name, h, rfl⟩

/-- The dependency of a bare edge that is not found as a file leads to its package. -/
theorem identityAt_of_isBare (xs : List Extraction) (table : Extension.Table) {resolver : Resolver}
    {p : Path × Edge} {d : Dependency}
    (hpd : (p, d) ∈ (Extraction.fileEdges xs).zip (ofExtractions xs table resolver).dependencies)
    (hbare : p.2.specifier.isBare = true)
    (hnone : ¬ p.2.FindsFile (xs.map fun x => x.file.normal) resolver) :
    (ofExtractions xs table resolver).identityAt d.target =
      some (.package (Request.packageName p.2.specifier.path)) := by
  have hfiles : ∀ f ∈ xs.map fun x => x.file.normal, f.Collapsed := by
    intro f hf
    obtain ⟨x, _, rfl⟩ := List.mem_map.mp hf
    exact x.file.collapsed_normal
  have htarget := (List.forall₂_iff_zip.mp (forall₂_identityAt_target xs table resolver)).2 hpd
  rw [htarget, Edge.target_of_isBare hbare hfiles table hnone]
  rfl

/-- A bare edge is looked up under the name of a package, which its first segments make, and a path
within the package, which together give its specifier back. Bare edges that are not found as files
lead to the nodes of their packages, and two of them to one node exactly when their specifiers begin
with the same segments. Then both of them have a scope or neither has. -/
theorem package_target_eq_iff (xs : List Extraction) (table : Extension.Table)
    (resolver : Resolver) :
    let g := ofExtractions xs table resolver
    let files := xs.map fun x => x.file.normal
    let links := (Extraction.fileEdges xs).zip g.dependencies
    (∀ e : Edge, e.specifier.isBare = true → ∃ name subpath,
      e.request table = .package name subpath ∧
        name = Text.join '/' (Request.leading e.specifier.path) ∧
        Request.PackageSplit name e.specifier.path subpath) ∧
    ∀ p c, (p, c) ∈ links → ∀ q d, (q, d) ∈ links →
      p.2.specifier.isBare = true → q.2.specifier.isBare = true →
      ¬ p.2.FindsFile files resolver → ¬ q.2.FindsFile files resolver →
      g.nodes[c.target]? =
        some (.package (Text.join '/' (Request.leading p.2.specifier.path))) ∧
      (c.target = d.target ↔
        Request.leading p.2.specifier.path = Request.leading q.2.specifier.path) ∧
      (c.target = d.target →
        Text.hasPrefix "@" p.2.specifier.path = Text.hasPrefix "@" q.2.specifier.path) := by
  intro g files links
  refine ⟨?_, ?_⟩
  · intro e hbare
    exact ⟨_, _, Edge.request_of_isBare hbare table, Request.packageName_eq_join _,
      Request.packageSplit _⟩
  · intro p c hpc q d hqd hp hq hpnone hqnone
    obtain ⟨_, _, hbuilt⟩ := exists_built xs table resolver
    have hc := identityAt_of_isBare xs table hpc hp hpnone
    have hd := identityAt_of_isBare xs table hqd hq hqnone
    have hiff : c.target = d.target ↔
        Request.packageName p.2.specifier.path = Request.packageName q.2.specifier.path := by
      rw [hbuilt.grown.number_eq_iff hc hd, NodeIdentity.package.injEq]
    refine ⟨?_, hiff.trans Request.packageName_eq_iff, ?_⟩
    · rw [← Request.packageName_eq_join]
      exact identityAt_package_iff.mp hc
    · intro htarget
      rw [← Request.hasPrefix_packageName, hiff.mp htarget, Request.hasPrefix_packageName]

/-- Two modules that import packages with and without a scope, and one of them a file of the
project under the name of a package. -/
def packaged : List Extraction :=
  Extraction.readAll
    [(⟨"src/m.ts"⟩, importsOf ["kit", "kit/css", "@ui/kit", "@ui/kit/css", "@ui", "@ui/"]),
      (⟨"src/n.ts"⟩, importsOf ["own/m", "kit/"])]
    typescript

/-- The only file that is found on disk under the name of a package. -/
def ownFile : Resolver := fun _ specifier =>
  if specifier = "own/m" then .file ⟨"src/m.ts"⟩ else .nothing

/-- A slash at the end names another package than the scope alone, and one within its own
package. -/
example :
    ((Extraction.fileEdges packaged).zip
        (ofExtractions packaged typescript ownFile).dependencies).map
      (fun l => (l.1.2.specifier.path, l.2.target)) =
        [("kit", 2), ("kit/css", 2), ("@ui/kit", 3), ("@ui/kit/css", 3), ("@ui", 4), ("@ui/", 5),
          ("own/m", 0), ("kit/", 2)] := by
  decide +kernel

/-- An import of a package and one from within it lead to one node. -/
theorem package_target_eq_iff_packaged :
    let links := (Extraction.fileEdges packaged).zip
      (ofExtractions packaged typescript ownFile).dependencies
    let files := packaged.map fun x => x.file.normal
    ∃ p c, (p, c) ∈ links ∧ ∃ q d, (q, d) ∈ links ∧
      (p.2.specifier.isBare = true ∧ q.2.specifier.isBare = true) ∧
      (¬ p.2.FindsFile files ownFile ∧ ¬ q.2.FindsFile files ownFile) ∧
      p.2.specifier.path = "@ui/kit" ∧ q.2.specifier.path = "@ui/kit/css" ∧
      c.target = d.target := by
  intro links files
  have hlinks : ∃ l ∈ links, ∃ m ∈ links,
      (l.1.2.specifier.isBare = true ∧ m.1.2.specifier.isBare = true) ∧
      (¬ l.1.2.FindsFile files ownFile ∧ ¬ m.1.2.FindsFile files ownFile) ∧
      l.1.2.specifier.path = "@ui/kit" ∧ m.1.2.specifier.path = "@ui/kit/css" := by
    decide +kernel
  obtain ⟨⟨p, c⟩, hpc, ⟨q, d⟩, hqd, ⟨hp, hq⟩, ⟨hpnone, hqnone⟩, hpath, hpath'⟩ := hlinks
  obtain ⟨_, htargets⟩ := package_target_eq_iff packaged typescript ownFile
  obtain ⟨_, hiff, _⟩ := htargets p c hpc q d hqd hp hq hpnone hqnone
  have hleading : Request.leading p.2.specifier.path = Request.leading q.2.specifier.path := by
    rw [hpath, hpath']
    decide +kernel
  exact ⟨p, c, hpc, q, d, hqd, ⟨hp, hq⟩, ⟨hpnone, hqnone⟩, hpath, hpath', hiff.mpr hleading⟩

end Graph

end ModuleGraph
