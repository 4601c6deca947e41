import ModuleGraph.Proofs.Extraction.Emission
import ModuleGraph.Proofs.Graph.Lookup
import ModuleGraph.Proofs.Text.Cut

/-!
# The families of assets

Main statement: `Graph.asset_kind_eq`. Whether an edge leads to an asset is read off its specifier,
and the family of a node is read off its path. Both take what follows the last dot of the last name
for the extension, and they differ only where that dot ends the name or has nothing but dots before
it. Everywhere else the edge and the node at the path it leads to are of one family.

## Implementation notes

A canonical spelling and the path to which it leads end in the same name, so the two readings are
compared on one name. A specifier keeps whether its extension is known to the table it was
normalized with; an extension that is not known is none of an asset either.
-/

namespace ModuleGraph

namespace Path

/-- If the name has a dot, something other than dots stands before the last one and something at
all behind it. -/
def PlainDots (name : String) : Prop :=
  ∀ stem ext : String, name = stem ++ "." ++ ext → '.' ∉ ext.toList →
    ext ≠ "" ∧ ∃ c ∈ stem.toList, c ≠ '.'

theorem cutLast_dot_iff {name stem ext : String} :
    Text.cutLast '.' name = some (stem, ext) ↔
      name = stem ++ "." ++ ext ∧ '.' ∉ ext.toList := by
  rw [Text.cutLast_eq_some_iff, ← String.toList_inj]
  simp

theorem plainDots_iff {name : String} :
    PlainDots name ↔
      ∀ cut ∈ Text.cutLast '.' name, cut.2 ≠ "" ∧ ∃ c ∈ cut.1.toList, c ≠ '.' := by
  constructor
  · rintro h ⟨stem, ext⟩ hcut
    obtain ⟨hname, hext⟩ := cutLast_dot_iff.mp hcut
    exact h stem ext hname hext
  · intro h stem ext hname hext
    exact h (stem, ext) (cutLast_dot_iff.mpr ⟨hname, hext⟩)

/-- The dots of a name are plain, found by one cut. -/
def hasPlainDots (name : String) : Bool :=
  (Text.cutLast '.' name).all fun cut => cut.2 != "" && cut.1.toList.any (· != '.')

theorem hasPlainDots_iff {name : String} : hasPlainDots name = true ↔ PlainDots name := by
  rw [plainDots_iff, hasPlainDots]
  cases Text.cutLast '.' name <;> simp

instance (name : String) : Decidable (PlainDots name) := decidable_of_iff _ hasPlainDots_iff

/-- A collapsed path that ends in a name has it for its file name. -/
theorem fileName?_ofBody (absolute : Bool) {ups : Nat} {names : List String} {s : String}
    (hr : (⟨ups, names ++ [s]⟩ : Route).Clean) :
    (ofBody absolute (⟨ups, names ++ [s]⟩ : Route).segments).fileName? = some s := by
  rw [fileName?, hr.components_ofBody]
  simp [Route.steps]

/-- The extension of a path is decided by its steps. -/
theorem extension?_congr {p q : Path} (h : p.components = q.components) :
    p.extension? = q.extension? := by
  rw [extension?, extension?, fileName?, fileName?, h]

end Path

namespace Specifier

/-- On plain dots the extension of a text is the one that its last segment has as a file name. -/
theorem extensionIn_eq_cutExtension {path : String} (h : Path.PlainDots (lastSegment path)) :
    extensionIn path = (Path.cutExtension (lastSegment path)).2 := by
  have hdots := Path.plainDots_iff.mp h
  rw [lastSegment] at hdots ⊢
  rw [extensionIn, Path.cutExtension]
  cases hcut : Text.cutLast '.' ((Text.split '/' path).getLastD "") with
  | none => rfl
  | some cut =>
      obtain ⟨stem, ext⟩ := cut
      obtain ⟨hext, c, hc, hdot⟩ := hdots (stem, ext) hcut
      have hall : stem.toList.all (· == '.') = false := by
        rw [List.all_eq_false]
        exact ⟨c, hc, by simpa using hdot⟩
      have hstem : stem ≠ "" := by
        rintro rfl
        cases hc
      simp [hall, hext, hstem]

variable {file : Path} {s : Specifier} {table : Extension.Table}

/-- Asking the table again whether an extension is known changes no family. -/
theorem NormalizedIn.assetKind?_eq (hs : s.NormalizedIn file table) (hbare : s.isBare = false) :
    s.assetKind? table = (extensionIn s.path).bind table.asset? := by
  obtain ⟨raw, rfl⟩ := hs
  rw [assetKind?, hbare, if_neg Bool.false_ne_true, extension?, hasExtension_normalize]
  cases extensionIn (normalize raw file table).path with
  | none => rfl
  | some ext =>
      rw [Option.any_some, Option.bind_some]
      cases hknown : table.recognizes ext with
      | true => rfl
      | false =>
          have hnone : table.get? ext = none := by
            rw [← Option.not_isSome_iff_eq_none, Bool.not_eq_true]
            exact hknown
          rw [Extension.Table.asset?, hnone]
          rfl

/-- A specifier of a file leads to a collapsed path that ends in its own last segment. -/
theorem NormalizedIn.fileName?_resolve (hs : s.NormalizedIn file table)
    (hbare : s.isBare = false) (hfile : s.isDirectory = false) :
    (file.directory.resolve s.path).Collapsed ∧
      (file.directory.resolve s.path).fileName? = some (lastSegment s.path) := by
  obtain ⟨r, hr, hpath, hdirectory⟩ := hs.exists_render hbare
  have hne : r.names ≠ [] := by
    rw [Ne, ← hdirectory, hfile]
    exact Bool.false_ne_true
  have hlast := hr.getLastD_split_render
  obtain ⟨ups, names, n, rfl⟩ := Route.exists_eq_of_names_ne_nil hne
  have hn : Path.IsName n := hr n (by simp)
  have hinit : (⟨ups, names⟩ : Route).Clean := fun m hm => hr m (List.mem_append_left _ hm)
  obtain ⟨base, hbase, hresolve⟩ : ∃ base : Route, base.Clean ∧
      file.directory.resolve (⟨ups, names⟩ : Route).render =
        Path.ofBody file.directory.isAbsolute base.segments :=
    ⟨_, file.directory.clean_route.follow_split _, Path.resolve_eq _ _⟩
  have hbelow : (⟨base.ups, base.names ++ [n]⟩ : Route).Clean := by
    rw [← Route.step_of_isName base hn]
    exact hbase.step hn.whole
  rw [lastSegment, hpath, hlast, List.getLastD_concat, Path.resolve_render_concat _ hinit hn,
    hresolve, Path.join_ofBody _ hbase hn]
  exact ⟨Path.collapsed_ofBody _ hbelow, Path.fileName?_ofBody _ hbelow⟩

/-- The family of a specifier is the one of the path it leads to. -/
theorem NormalizedIn.assetKind?_eq_extension? (hs : s.NormalizedIn file table)
    (hbare : s.isBare = false) (hfile : s.isDirectory = false)
    (hdots : Path.PlainDots (lastSegment s.path)) :
    s.assetKind? table = (file.directory.resolve s.path).extension?.bind table.asset? := by
  obtain ⟨_, hname⟩ := hs.fileName?_resolve hbare hfile
  rw [hs.assetKind?_eq hbare, extensionIn_eq_cutExtension hdots, Path.extension?, hname,
    Option.bind_some]

end Specifier

namespace Graph

/-- The family of a specifier that leads to a file is the one under which that file is added to a
graph, whatever is there already, as long as the table is the same. In the graph of files that were
read with the table, every edge with this specifier leads to an asset exactly when the asset at its
path has a family, and then it is the one of the specifier. -/
theorem asset_kind_eq {file : Path} {s : Specifier} {table : Extension.Table}
    (hs : s.NormalizedIn file table) (hbare : s.isBare = false) (hfile : s.isDirectory = false)
    (hdots : Path.PlainDots (Specifier.lastSegment s.path)) :
    let target := file.directory.resolve s.path
    (∀ g : Graph, g.number? (.asset target.components) = none →
      (g.addAsset target table).1.nodes = g.nodes ++ [.asset target (s.assetKind? table)]) ∧
    (∀ g : Graph, (∀ n ∈ g.nodes, n.Canonical table) →
      (g.addAsset target table).1.identityAt (g.addAsset target table).2 =
        some (.asset target (s.assetKind? table))) ∧
    ∀ (xs : List Extraction) (resolver : Resolver), (∀ x ∈ xs, x.ReadWith table) →
      ∀ path kind, .asset path kind ∈ (ofExtractions xs table resolver).nodes →
        path.components = target.components →
        kind = s.assetKind? table ∧
          ∀ p ∈ Extraction.fileEdges xs, p.2.specifier = s → p.2.isAsset = kind.isSome := by
  intro target
  have hkind := hs.assetKind?_eq_extension? hbare hfile hdots
  obtain ⟨hcollapsed, _⟩ := hs.fileName?_resolve hbare hfile
  rw [hkind]
  refine ⟨?_, ?_, ?_⟩
  · intro g hnew
    rw [addAsset, add_of_new hnew]
  · intro g hg
    exact identityAt_add hg ⟨hcollapsed, rfl⟩
  · intro xs resolver hxs path kind hnode hpath
    obtain ⟨files, hfiled, hbuilt⟩ := exists_built xs table resolver
    obtain ⟨_, hstored⟩ := hbuilt.canonical hfiled.collapsed _ hnode
    rw [Path.extension?_congr hpath] at hstored
    refine ⟨hstored, ?_⟩
    intro p hp hspecifier
    obtain ⟨x, hx, hp⟩ := List.mem_flatMap.mp hp
    obtain ⟨e, he, rfl⟩ := List.mem_map.mp hp
    obtain ⟨_, _, hasset⟩ := (hxs x hx).normalizedIn he
    rw [hasset, hspecifier, Specifier.isAsset, hkind, hstored]

/-- Pictures of one extension, and modules of another. -/
def pictures : Extension.Table :=
  (Extension.Table.empty.insert "svg" (.asset .image)).insert "ts" (.module .typescript)

/-- A module that imports a hidden picture with several dots in its name. -/
def illustrated : List Extraction :=
  Extraction.readAll [(⟨"src/m.ts"⟩, importsOf ["../src/.icons.v2.svg"])] pictures

/-- The picture is found on disk. -/
def onDisk : Resolver := fun _ _ => .file ⟨"src/./.icons.v2.svg"⟩

theorem nodes_illustrated : (ofExtractions illustrated pictures onDisk).nodes =
    [.file ⟨"src/m.ts"⟩, .asset ⟨"src/.icons.v2.svg"⟩ (some .image)] := by
  decide +kernel

/-- The picture is one for its edge and in the graph. -/
theorem asset_kind_eq_illustrated :
    let s := Specifier.normalize "../src/.icons.v2.svg" ⟨"src/m.ts"⟩ pictures
    s.NormalizedIn ⟨"src/m.ts"⟩ pictures ∧ s.isBare = false ∧ s.isDirectory = false ∧
      Path.PlainDots (Specifier.lastSegment s.path) ∧ (∀ x ∈ illustrated, x.ReadWith pictures) ∧
      (ofExtractions illustrated pictures onDisk).nodes =
        [.file ⟨"src/m.ts"⟩, .asset ⟨"src/.icons.v2.svg"⟩ (some .image)] ∧
      s.assetKind? pictures = some .image ∧
      ∀ p ∈ Extraction.fileEdges illustrated, p.2.specifier = s → p.2.isAsset = true := by
  intro s
  have hs : s.NormalizedIn ⟨"src/m.ts"⟩ pictures := ⟨"../src/.icons.v2.svg", rfl⟩
  have hbare : s.isBare = false := by decide +kernel
  have hfile : s.isDirectory = false := by decide +kernel
  have hdots : Path.PlainDots (Specifier.lastSegment s.path) := by decide +kernel
  have hread : ∀ x ∈ illustrated, x.ReadWith pictures := Extraction.readWith_of_mem_readAll
  have hnode : .asset ⟨"src/.icons.v2.svg"⟩ (some .image) ∈
      (ofExtractions illustrated pictures onDisk).nodes := by
    rw [nodes_illustrated]
    exact List.mem_cons_of_mem _ List.mem_cons_self
  have hpath : (⟨"src/.icons.v2.svg"⟩ : Path).components =
      ((⟨"src/m.ts"⟩ : Path).directory.resolve s.path).components := by decide +kernel
  obtain ⟨_, _, hbuilt⟩ := asset_kind_eq hs hbare hfile hdots
  obtain ⟨hkind, hedges⟩ := hbuilt illustrated onDisk hread _ _ hnode hpath
  exact ⟨hs, hbare, hfile, hdots, hread, nodes_illustrated, hkind.symm, hedges⟩

end Graph

end ModuleGraph
