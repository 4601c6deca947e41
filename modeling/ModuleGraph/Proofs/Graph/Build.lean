import Mathlib.Data.List.Forall2
import ModuleGraph.Proofs.Firsts
import ModuleGraph.Proofs.Graph.Target

/-!
# The graph that is built from files

Main statement: `ofExtractions_exact`. The dependencies of the graph are the edges of the files,
one for one and in order; the nodes are the files first, each once, and then what is not a
file and has a dependency on it.

## Implementation notes

The files are added before any edge is followed, so from then on the parsed files stay the
same and every edge adds the node that they, the table and the resolver decide. The invariant
of the loop says of the edges followed so far which links they have made.
-/

namespace ModuleGraph

/-- The edges of some files with the file in which each of them is written. -/
def Extraction.fileEdges (xs : List Extraction) : List (Path × Edge) :=
  xs.flatMap fun x => x.edges.map (Prod.mk x.file)

/-- The link that an edge of a file makes when `files` are parsed. -/
def Link.ofEdge (files : List Path) (table : Extension.Table) (resolver : Resolver)
    (p : Path × Edge) : Link :=
  ⟨some (.file p.1.normal), some (p.2.target files table resolver).identity, p.2.kind,
    p.2.specifier.path, p.2.typeOnly⟩

namespace Graph

/-- The dependency stands for the edge of a file: it starts at the node of the file, ends at a
node to which the edge may lead, and says what the edge says. -/
structure Carries (g : Graph) (p : Path × Edge) (d : Dependency) : Prop where
  source : g.nodes[d.source]? = some (.file p.1.normal)
  target : ∃ n, g.nodes[d.target]? = some n ∧ p.2.MayReach n
  kind : d.kind = p.2.kind
  specifier : d.specifier = p.2.specifier.path
  typeOnly : d.typeOnly = p.2.typeOnly

/-- The graph of `files` after the edges `ps` were followed: the files come first, every other
node is one that an edge leads to, and the links are those of the edges. -/
structure Built (files : List Path) (table : Extension.Table) (resolver : Resolver)
    (ps : List (Path × Edge)) (g : Graph) : Prop where
  grown : g.Grown
  nodes : ∃ others, g.nodes = files.map .file ++ others ∧
    ∀ n ∈ others, n.isFile = false ∧ ∃ p ∈ ps, n = p.2.target files table resolver
  links : g.links = ps.map (Link.ofEdge files table resolver)

/-- The graph of these files alone. -/
def ofFiles (files : List Path) : Graph := ⟨files.map .file, []⟩

/-- Files are added at the end unless they are there. -/
theorem addFile_ofFiles {files : List Path} (hfiles : ∀ f ∈ files, f.Collapsed) (path : Path) :
    ((ofFiles files).addFile path).1 =
      ofFiles (if path.normal ∈ files then files else files ++ [path.normal]) := by
  have hknown : (Node.file path.normal).key ∈ (ofFiles files).keys ↔ path.normal ∈ files := by
    constructor
    · intro h
      obtain ⟨n, hn, hkey⟩ := List.mem_map.mp h
      obtain ⟨f, hf, rfl⟩ := List.mem_map.mp hn
      have hsame : f.same path.normal = true := Path.same_iff.mpr (NodeKey.file.inj hkey)
      rw [← (hfiles f hf).eq_of_same path.collapsed_normal hsame]
      exact hf
    · intro h
      exact List.mem_map_of_mem (List.mem_map_of_mem h)
  split
  · rename_i hmem
    obtain ⟨i, hi⟩ := exists_number?_of_mem (hknown.mpr hmem)
    rw [addFile, add_of_known hi]
  · rename_i hmem
    rw [addFile, add_of_new (number?_eq_none_iff.mpr fun h => hmem (hknown.mp h)), ofFiles,
      ofFiles, List.map_append]
    rfl

/-- Adding the files `paths` one after the other leaves `files`: each of them once, in the order
in which they are first added. -/
structure Filed (paths files : List Path) : Prop where
  collapsed : ∀ f ∈ files, f.Collapsed
  firsts : IsFirsts paths files
  grown : (ofFiles files).Grown

theorem filed_nil : Filed [] [] := ⟨by simp, .nil, .empty⟩

theorem Filed.addFile {paths files : List Path} (h : Filed paths files) (path : Path) :
    ∃ files', Filed (paths ++ [path.normal]) files' ∧
      ((ofFiles files).addFile path).1 = ofFiles files' := by
  have hgrown : ((ofFiles files).addFile path).1.Grown := .addFile path h.grown
  have hadd := addFile_ofFiles h.collapsed path
  rw [hadd] at hgrown
  refine ⟨_, ⟨?_, ?_, hgrown⟩, hadd⟩
  · intro f hf
    split at hf
    · exact h.collapsed f hf
    · rcases List.mem_append.mp hf with hf | hf
      · exact h.collapsed f hf
      · rw [List.mem_singleton.mp hf]
        exact path.collapsed_normal
  · split
    · exact h.firsts.append_of_mem ‹_›
    · exact h.firsts.append_of_not_mem ‹_›

theorem Filed.foldl_addFile {paths files : List Path} (h : Filed paths files)
    (xs : List Extraction) :
    ∃ files', Filed (paths ++ xs.map fun x => x.file.normal) files' ∧
      xs.foldl (fun g x => (g.addFile x.file).1) (ofFiles files) = ofFiles files' := by
  induction xs generalizing paths files with
  | nil => exact ⟨files, by simpa using h, rfl⟩
  | cons x rest ih =>
      obtain ⟨files', h', hadd⟩ := h.addFile x.file
      rw [List.foldl_cons, hadd, List.map_cons, List.append_cons]
      exact ih h'

variable {files : List Path} {table : Extension.Table} {resolver : Resolver}
  {ps : List (Path × Edge)} {g : Graph}

theorem Grown.add_canonical (h : g.Grown) {n : Node} (hn : n.Canonical table) :
    (g.add n).1.Grown := by
  cases n with
  | file path =>
      have hpath : path.normal = path := hn
      have hadd : (g.addFile path).1.Grown := .addFile path h
      rwa [Graph.addFile, hpath] at hadd
  | package name => exact .addPackage name h
  | asset path kind =>
      rw [hn.2]
      exact .addAsset path table h
  | unresolved key specifier => exact .addUnresolved key specifier h

/-- Following an edge adds the node it leads to and a dependency on it. -/
theorem Parses.addEdge_eq (h : g.Parses files) (source : Nat) (e : Edge) :
    addEdge table resolver source g e =
      (g.add (e.target files table resolver)).1.connect
        { source, target := (g.add (e.target files table resolver)).2, kind := e.kind,
          specifier := e.specifier.path, typeOnly := e.typeOnly } := by
  rw [addEdge, h.addTarget_eq_add]

namespace Built

theorem canonical (h : Built files table resolver ps g) (hfiles : ∀ f ∈ files, f.Collapsed) :
    ∀ n ∈ g.nodes, n.Canonical table := by
  obtain ⟨others, hnodes, hothers⟩ := h.nodes
  intro n hn
  rw [hnodes] at hn
  rcases List.mem_append.mp hn with hn | hn
  · obtain ⟨f, hf, rfl⟩ := List.mem_map.mp hn
    exact hfiles f hf
  · obtain ⟨_, p, _, rfl⟩ := hothers n hn
    exact Edge.canonical_target hfiles

theorem parses (h : Built files table resolver ps g) : g.Parses files := by
  obtain ⟨others, hnodes, hothers⟩ := h.nodes
  intro steps
  rw [keys, hnodes, List.mem_map]
  constructor
  · rintro ⟨n, hn, hkey⟩
    cases n with
    | file path =>
        refine ⟨path, ?_, NodeKey.file.inj hkey⟩
        rcases List.mem_append.mp hn with hn | hn
        · obtain ⟨f, hf, hpath⟩ := List.mem_map.mp hn
          rwa [← Node.file.inj hpath]
        · cases (hothers _ hn).1
    | _ => cases hkey
  · rintro ⟨f, hf, rfl⟩
    exact ⟨.file f, List.mem_append_left _ (List.mem_map_of_mem hf), rfl⟩

/-- A node that is new is no parsed file, since these are there. -/
theorem isFile_target_of_new (h : Built files table resolver ps g) {e : Edge}
    (hnew : (e.target files table resolver).key ∉ g.keys) :
    (e.target files table resolver).isFile = false := by
  cases ht : e.target files table resolver with
  | file path =>
      rw [ht] at hnew
      exact absurd ((h.parses _).mpr ⟨path, Edge.mem_of_target_eq_file ht, rfl⟩) hnew
  | _ => rfl

/-- The node to which one more edge leads is there or comes last. -/
theorem nodes_add (h : Built files table resolver ps g) (file : Path) (e : Edge) :
    ∃ others, (g.add (e.target files table resolver)).1.nodes = files.map .file ++ others ∧
      ∀ n ∈ others, n.isFile = false ∧
        ∃ p ∈ ps ++ [(file, e)], n = p.2.target files table resolver := by
  obtain ⟨others, hnodes, hothers⟩ := h.nodes
  have hold : ∀ n ∈ others, n.isFile = false ∧
      ∃ p ∈ ps ++ [(file, e)], n = p.2.target files table resolver := by
    intro n hn
    obtain ⟨hfile, p, hp, heq⟩ := hothers n hn
    exact ⟨hfile, p, List.mem_append_left _ hp, heq⟩
  rcases add_cases g (e.target files table resolver) with hadd | ⟨hnew, hadd⟩
  · rw [hadd]
    exact ⟨others, hnodes, hold⟩
  · rw [hadd]
    refine ⟨others ++ [e.target files table resolver], ?_, ?_⟩
    · rw [← List.append_assoc, ← hnodes]
    · intro n hn
      rcases List.mem_append.mp hn with hn | hn
      · exact hold n hn
      · rw [List.mem_singleton.mp hn]
        exact ⟨h.isFile_target_of_new hnew, (file, e),
          List.mem_append_right _ (List.mem_singleton_self _), rfl⟩

/-- Following one more edge makes its link and adds no more than the node it leads to. -/
theorem addEdge (h : Built files table resolver ps g) (hfiles : ∀ f ∈ files, f.Collapsed)
    {file : Path} {source : Nat} (hsource : g.identityAt source = some (.file file.normal))
    (e : Edge) :
    Built files table resolver (ps ++ [(file, e)]) (Graph.addEdge table resolver source g e) := by
  have hcanonical : (e.target files table resolver).Canonical table :=
    Edge.canonical_target hfiles
  have htarget := identityAt_add (h.canonical hfiles) hcanonical
  have hprefix := nodes_prefix_add g (e.target files table resolver)
  have hsource' := identityAt_of_isPrefix hprefix hsource
  rw [h.parses.addEdge_eq]
  constructor
  · exact .connect (h.grown.add_canonical hcanonical) (lt_length_of_identityAt hsource')
      (lt_length_of_identityAt htarget)
  · exact h.nodes_add file e
  · rw [links_connect, h.grown.links_of_isPrefix hprefix (dependencies_add _ _), h.links,
      List.map_append, List.map_singleton, Graph.link, hsource', htarget]
    rfl

/-- Following the edges of a file makes their links in order. -/
theorem addEdges (h : Built files table resolver ps g) (hfiles : ∀ f ∈ files, f.Collapsed)
    {file : Path} {source : Nat} (hsource : g.identityAt source = some (.file file.normal))
    (es : List Edge) :
    Built files table resolver (ps ++ es.map (Prod.mk file))
      (es.foldl (Graph.addEdge table resolver source) g) := by
  induction es generalizing ps g with
  | nil => simpa using h
  | cons e rest ih =>
      have hkept : (Graph.addEdge table resolver source g e).identityAt source =
          some (.file file.normal) := by
        rw [h.parses.addEdge_eq]
        exact identityAt_of_isPrefix (nodes_prefix_add g _) hsource
      rw [List.foldl_cons, List.map_cons, List.append_cons]
      exact ih (h.addEdge hfiles hsource e) hkept

/-- A file that was added before keeps its node, from which its links start. -/
theorem addExtraction (h : Built files table resolver ps g) (hfiles : ∀ f ∈ files, f.Collapsed)
    {x : Extraction} (hx : x.file.normal ∈ files) :
    Built files table resolver (ps ++ x.edges.map (Prod.mk x.file))
      (Graph.addExtraction table resolver g x) := by
  have hcanonical : (Node.file x.file.normal).Canonical table := x.file.collapsed_normal
  obtain ⟨i, hi⟩ := exists_number?_of_mem ((h.parses _).mpr ⟨x.file.normal, hx, rfl⟩)
  have hadd : g.addFile x.file = (g, i) := add_of_known hi
  rw [Graph.addExtraction, hadd]
  exact h.addEdges hfiles (identityAt_of_number? (h.canonical hfiles) hcanonical hi) x.edges

theorem foldl_addExtraction (h : Built files table resolver ps g)
    (hfiles : ∀ f ∈ files, f.Collapsed) {xs : List Extraction}
    (hxs : ∀ x ∈ xs, x.file.normal ∈ files) :
    Built files table resolver (ps ++ Extraction.fileEdges xs)
      (xs.foldl (Graph.addExtraction table resolver) g) := by
  induction xs generalizing ps g with
  | nil => simpa [Extraction.fileEdges] using h
  | cons x rest ih =>
      have hstep := h.addExtraction hfiles (hxs x List.mem_cons_self)
      rw [List.foldl_cons, Extraction.fileEdges, List.flatMap_cons, ← List.append_assoc]
      exact ih hstep fun y hy => hxs y (List.mem_cons_of_mem x hy)

/-- The dependencies make the links of the edges, one for one and in order. -/
theorem forall₂_link (h : Built files table resolver ps g) :
    List.Forall₂ (fun p d => g.link d = Link.ofEdge files table resolver p) ps g.dependencies := by
  have hlinks := h.links.symm
  rw [Graph.links, ← List.forall₂_eq_eq_eq, List.forall₂_map_left_iff,
    List.forall₂_map_right_iff] at hlinks
  exact hlinks.imp fun _ _ => Eq.symm

/-- The dependencies stand for the edges, one for one and in order. -/
theorem carries (h : Built files table resolver ps g) :
    List.Forall₂ g.Carries ps g.dependencies := by
  apply h.forall₂_link.imp
  intro p d hpd
  obtain ⟨hsource, htarget, hkind, hspecifier, htype⟩ := Link.mk.inj hpd
  obtain ⟨n, hn, hid⟩ := identityAt_eq_some_iff.mp htarget
  refine ⟨identityAt_file_iff.mp hsource, ⟨n, hn, ?_⟩, hkind, hspecifier, htype⟩
  exact (Edge.mayReach_target files table resolver p.2).of_identity_eq hid.symm

/-- What an edge leads to is found at the end of a dependency. -/
theorem exists_identityAt_target (h : Built files table resolver ps g) {p : Path × Edge}
    (hp : p ∈ ps) :
    ∃ d ∈ g.dependencies,
      g.identityAt d.target = some (p.2.target files table resolver).identity := by
  have hlink : Link.ofEdge files table resolver p ∈ g.links := by
    rw [h.links]
    exact List.mem_map_of_mem hp
  obtain ⟨d, hd, hpd⟩ := List.mem_map.mp hlink
  exact ⟨d, hd, congrArg Link.target hpd⟩

/-- What comes behind the files is no file, and an edge leads to it. -/
theorem exists_target_of_le (h : Built files table resolver ps g) {i : Nat} {n : Node}
    (hi : files.length ≤ i) (hn : g.nodes[i]? = some n) :
    n.isFile = false ∧ ∃ p ∈ ps, n = p.2.target files table resolver := by
  obtain ⟨others, hnodes, hothers⟩ := h.nodes
  rw [hnodes, List.getElem?_append_right (by simpa using hi)] at hn
  exact hothers n (List.mem_of_getElem? hn)

/-- Every node that is not a file has a dependency on it. -/
theorem exists_dependency (h : Built files table resolver ps g) {i : Nat}
    (hi : files.length ≤ i) (hlt : i < g.nodes.length) :
    ∃ d ∈ g.dependencies, d.target = i := by
  obtain ⟨n, hn⟩ : ∃ n, g.nodes[i]? = some n := ⟨_, List.getElem?_eq_getElem hlt⟩
  have hnode : g.identityAt i = some n.identity := identityAt_eq_some_iff.mpr ⟨n, hn, rfl⟩
  obtain ⟨_, p, hp, rfl⟩ := h.exists_target_of_le hi hn
  obtain ⟨d, hd, htarget⟩ := h.exists_identityAt_target hp
  exact ⟨d, hd, h.grown.eq_of_identityAt_eq htarget hnode⟩

end Built

/-- The build adds the files and then follows their edges. -/
theorem exists_built (xs : List Extraction) (table : Extension.Table) (resolver : Resolver) :
    ∃ files, Filed (xs.map fun x => x.file.normal) files ∧
      Built files table resolver (Extraction.fileEdges xs) (ofExtractions xs table resolver) := by
  obtain ⟨files, hfiled, hfold⟩ := filed_nil.foldl_addFile xs
  have hstart : Built files table resolver [] (ofFiles files) :=
    ⟨hfiled.grown, ⟨[], (List.append_nil _).symm, fun n hn => absurd hn List.not_mem_nil⟩, rfl⟩
  have hxs : ∀ x ∈ xs, x.file.normal ∈ files := fun x hx =>
    (hfiled.firsts.mem_iff _).mpr (List.mem_map_of_mem hx)
  have hbuilt := hstart.foldl_addExtraction hfiled.collapsed hxs
  rw [← hfold] at hbuilt
  exact ⟨files, hfiled, hbuilt⟩

/-- The dependencies of the graph are the edges of the files, one for one and in order. Its nodes
are first the files, each once in the order in which they first occur, and then others, none
of which is a file and each of which has a dependency on it. -/
theorem ofExtractions_exact (xs : List Extraction) (table : Extension.Table)
    (resolver : Resolver) :
    let g := ofExtractions xs table resolver
    List.Forall₂ g.Carries (Extraction.fileEdges xs) g.dependencies ∧
      ∃ files others, g.nodes = files.map .file ++ others ∧
        IsFirsts (xs.map fun x => x.file.normal) files ∧
        (∀ n ∈ others, n.isFile = false) ∧
        ∀ i, files.length ≤ i → i < g.nodes.length → ∃ d ∈ g.dependencies, d.target = i := by
  obtain ⟨files, hfiled, hbuilt⟩ := exists_built xs table resolver
  obtain ⟨others, hnodes, hothers⟩ := hbuilt.nodes
  refine ⟨hbuilt.carries, files, others, hnodes, hfiled.firsts, ?_, ?_⟩
  · intro n hn
    exact (hothers n hn).1
  · intro i hi hlt
    exact hbuilt.exists_dependency hi hlt

end Graph

end ModuleGraph
