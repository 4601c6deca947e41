import ModuleGraph.Graph.Build
import ModuleGraph.Proofs.Graph.Identity

/-!
# Where edges lead

Main statement: `addTarget_eq_add`. The node an edge leads to is decided by the parsed files of
the project, by the table and by the resolver. The rest of the graph that is there already has
no part in it, so following an edge is the addition of that one node.

## Implementation notes

The parsed files are given as a list of collapsed paths. A path that names one of them may be
spelled otherwise, and the node is the one of the path in the list.
-/

namespace ModuleGraph

/-- The parsed file that a path names. -/
def Path.namedAmong? (files : List Path) (p : Path) : Option Path := files.find? (·.same p)

/-- The node that a lookup leads to when `files` are parsed and nothing is known of the disk. -/
def Request.target (files : List Path) (specifier : String) : Request → Node
  | .package name _ => .package name
  | .file candidates =>
    match candidates.findSome? (Path.namedAmong? files) with
    | some f => .file f
    | none => .unresolved (candidates.head?.getD .empty) specifier

/-- The node that an edge leads to when `files` are parsed. -/
def Edge.target (files : List Path) (table : Extension.Table) (resolver : Resolver)
    (e : Edge) : Node :=
  match (resolver e.file e.specifier.path).file? with
  | none => (e.request table).target files e.specifier.path
  | some path =>
    match Path.namedAmong? files path.normal with
    | some f => .file f
    | none =>
      if e.specifier.isBare then (e.request table).target files e.specifier.path
      else .asset path.normal (path.normal.extension?.bind table.asset?)

/-- An edge of this kind may lead to such a node: a bare one to files and packages, and every
other one to all but packages. -/
def Edge.MayReach (e : Edge) (n : Node) : Prop :=
  if e.specifier.isBare then n.isFile = true ∨ n.isPackage = true
  else n.isFile = true ∨ n.isAsset = true ∨ n.isUnresolved = true

/-- Whether an edge may lead to a node is decided by what the node is. -/
theorem Edge.MayReach.of_identity_eq {e : Edge} {m n : Node} (h : e.MayReach m)
    (hid : m.identity = n.identity) : e.MayReach n := by
  cases m <;> cases n <;> first | exact h | cases hid

namespace Path

variable {files : List Path} {p : Path}

theorem namedAmong?_eq_none_iff :
    namedAmong? files p = none ↔ ∀ f ∈ files, f.components ≠ p.components := by
  simp [namedAmong?, List.find?_eq_none, same_iff]

theorem exists_of_namedAmong? {f : Path} (h : namedAmong? files p = some f) :
    f ∈ files ∧ f.components = p.components := by
  have hsame : f.same p = true := by simpa using List.find?_some h
  exact ⟨List.mem_of_find?_eq_some h, same_iff.mp hsame⟩

/-- Collapsed files are named by their steps, in whatever order they are listed. -/
theorem namedAmong?_eq_some_iff (hfiles : ∀ f ∈ files, f.Collapsed) {f : Path} :
    namedAmong? files p = some f ↔ f ∈ files ∧ f.components = p.components := by
  constructor
  · exact exists_of_namedAmong?
  · rintro ⟨hf, hsteps⟩
    cases h : namedAmong? files p with
    | none => exact absurd hsteps (namedAmong?_eq_none_iff.mp h f hf)
    | some f' =>
        obtain ⟨hf', hsteps'⟩ := exists_of_namedAmong? h
        have hsame : f'.same f = true := same_iff.mpr (hsteps'.trans hsteps.symm)
        rw [(hfiles f' hf').eq_of_same (hfiles f hf) hsame]

/-- What a path names depends only on which files there are. -/
theorem namedAmong?_congr {files' : List Path} (hfiles : ∀ f ∈ files, f.Collapsed)
    (hmem : ∀ f, f ∈ files ↔ f ∈ files') : namedAmong? files = namedAmong? files' := by
  have hfiles' : ∀ f ∈ files', f.Collapsed := fun f hf => hfiles f ((hmem f).mpr hf)
  funext p
  apply Option.ext
  intro f
  rw [namedAmong?_eq_some_iff hfiles, namedAmong?_eq_some_iff hfiles', hmem]

end Path

namespace Edge

variable (files : List Path) (table : Extension.Table) (resolver : Resolver) (e : Edge)

/-- A lookup leads to a parsed file, to the package of a bare edge, or to nothing. -/
theorem target_request_cases :
    (∃ f ∈ files, (e.request table).target files e.specifier.path = .file f) ∨
      (e.specifier.isBare = true ∧
        ∃ name, (e.request table).target files e.specifier.path = .package name) ∨
      (e.specifier.isBare = false ∧
        ∃ key, (e.request table).target files e.specifier.path =
          .unresolved key e.specifier.path) := by
  unfold request
  split
  · rename_i hbare
    exact Or.inr (Or.inl ⟨hbare, _, rfl⟩)
  · rename_i hbare
    unfold Request.target
    dsimp only
    split
    · rename_i f hf
      obtain ⟨c, _, hc⟩ := List.exists_of_findSome?_eq_some hf
      exact Or.inl ⟨f, (Path.exists_of_namedAmong? hc).1, rfl⟩
    · exact Or.inr (Or.inr ⟨Bool.eq_false_iff.mpr hbare, _, rfl⟩)

/-- An edge leads to a parsed file, to the package of a bare edge, or to a file that is not
parsed or to nothing if it is not bare. -/
theorem target_cases :
    (∃ f ∈ files, e.target files table resolver = .file f) ∨
      (e.specifier.isBare = true ∧
        ∃ name, e.target files table resolver = .package name) ∨
      (e.specifier.isBare = false ∧ ∃ p : Path, e.target files table resolver =
        .asset p.normal (p.normal.extension?.bind table.asset?)) ∨
      (e.specifier.isBare = false ∧
        ∃ key, e.target files table resolver = .unresolved key e.specifier.path) := by
  have hrequest := target_request_cases files table e
  unfold target
  split
  · exact hrequest.imp_right (Or.imp_right Or.inr)
  · rename_i path _
    split
    · rename_i f hf
      exact Or.inl ⟨f, (Path.exists_of_namedAmong? hf).1, rfl⟩
    · split
      · exact hrequest.imp_right (Or.imp_right Or.inr)
      · rename_i hbare
        exact Or.inr (Or.inr (Or.inl ⟨Bool.eq_false_iff.mpr hbare, path, rfl⟩))

/-- An edge leads to a node of a kind that it may lead to. -/
theorem mayReach_target : e.MayReach (e.target files table resolver) := by
  unfold MayReach
  rcases target_cases files table resolver e with
    ⟨f, _, h⟩ | ⟨hbare, name, h⟩ | ⟨hbare, p, h⟩ | ⟨hbare, key, h⟩
  · rw [h]
    split <;> exact Or.inl rfl
  · rw [h, if_pos hbare]
    exact Or.inr rfl
  · rw [h, hbare]
    exact Or.inr (Or.inl rfl)
  · rw [h, hbare]
    exact Or.inr (Or.inr rfl)

variable {files table resolver e}

theorem canonical_target (hfiles : ∀ f ∈ files, f.Collapsed) :
    (e.target files table resolver).Canonical table := by
  rcases target_cases files table resolver e with
    ⟨f, hf, h⟩ | ⟨_, name, h⟩ | ⟨_, p, h⟩ | ⟨_, key, h⟩
  · rw [h]
    exact hfiles f hf
  · rw [h]
    exact trivial
  · rw [h]
    exact ⟨p.collapsed_normal, rfl⟩
  · rw [h]
    exact trivial

/-- The parsed file to which an edge leads is among the given ones. -/
theorem mem_of_target_eq_file {path : Path} (h : e.target files table resolver = .file path) :
    path ∈ files := by
  rcases target_cases files table resolver e with
    ⟨f, hf, h'⟩ | ⟨_, name, h'⟩ | ⟨_, p, h'⟩ | ⟨_, key, h'⟩
  · rw [h] at h'
    rw [Node.file.inj h']
    exact hf
  all_goals
    rw [h] at h'
    cases h'

/-- Where an edge leads depends only on which files there are. -/
theorem target_congr {files' : List Path} (hfiles : ∀ f ∈ files, f.Collapsed)
    (hmem : ∀ f, f ∈ files ↔ f ∈ files') :
    target files table resolver = target files' table resolver := by
  have hnamed := Path.namedAmong?_congr hfiles hmem
  funext e
  unfold target Request.target
  rw [hnamed]

end Edge

namespace Graph

variable {g : Graph} {files : List Path}

/-- The parsed files of the graph are these. -/
def Parses (g : Graph) (files : List Path) : Prop :=
  ∀ steps, NodeKey.file steps ∈ g.keys ↔ ∃ f ∈ files, f.components = steps

theorem Parses.fileNumber?_eq_none (h : g.Parses files) {p : Path}
    (hp : p.namedAmong? files = none) : g.fileNumber? p = none := by
  apply number?_eq_none_iff.mpr
  intro hmem
  obtain ⟨f, hf, hsteps⟩ := (h p.components).mp hmem
  exact Path.namedAmong?_eq_none_iff.mp hp f hf hsteps

/-- A path that names a parsed file has the number under which that file would be added. -/
theorem Parses.exists_fileNumber? (h : g.Parses files) {p f : Path}
    (hp : Path.namedAmong? files p = some f) :
    ∃ i, g.fileNumber? p = some i ∧ g.add (.file f) = (g, i) := by
  obtain ⟨hf, hsteps⟩ := Path.exists_of_namedAmong? hp
  obtain ⟨i, hi⟩ := exists_number?_of_mem ((h f.components).mpr ⟨f, hf, rfl⟩)
  refine ⟨i, ?_, add_of_known hi⟩
  rw [fileNumber?, ← hsteps]
  exact hi

/-- The first candidate that is parsed is found in the graph. -/
theorem Parses.findSome?_fileNumber? (h : g.Parses files) (candidates : List Path) :
    match candidates.findSome? (Path.namedAmong? files) with
    | some f => ∃ i, candidates.findSome? g.fileNumber? = some i ∧ g.add (.file f) = (g, i)
    | none => candidates.findSome? g.fileNumber? = none := by
  induction candidates with
  | nil => rfl
  | cons c rest ih =>
      rw [List.findSome?_cons, List.findSome?_cons]
      cases hc : Path.namedAmong? files c with
      | some f =>
          obtain ⟨i, hi, hadd⟩ := h.exists_fileNumber? hc
          exact ⟨i, by rw [hi], hadd⟩
      | none =>
          rw [h.fileNumber?_eq_none hc]
          exact ih

theorem Parses.addRequest_eq_add (h : g.Parses files) (r : Request) (specifier : String) :
    g.addRequest r specifier = g.add (r.target files specifier) := by
  cases r with
  | package name subpath => rfl
  | file candidates =>
      have hfound := h.findSome?_fileNumber? candidates
      unfold addRequest Request.target
      dsimp only
      cases hc : candidates.findSome? (Path.namedAmong? files) with
      | some f =>
          rw [hc] at hfound
          obtain ⟨i, hi, hadd⟩ := hfound
          rw [hi]
          exact hadd.symm
      | none =>
          rw [hc] at hfound
          rw [hfound]
          rfl

/-- Following an edge adds the node it leads to, whatever else is in the graph. -/
theorem Parses.addTarget_eq_add (h : g.Parses files) (e : Edge) (table : Extension.Table)
    (resolver : Resolver) :
    g.addTarget e table resolver = g.add (e.target files table resolver) := by
  unfold addTarget Edge.target
  cases (resolver e.file e.specifier.path).file? with
  | none => exact h.addRequest_eq_add _ _
  | some path =>
      dsimp only
      cases hp : Path.namedAmong? files path.normal with
      | some f =>
          obtain ⟨i, hi, hadd⟩ := h.exists_fileNumber? hp
          rw [hi]
          exact hadd.symm
      | none =>
          rw [h.fileNumber?_eq_none hp]
          dsimp only
          split
          · exact h.addRequest_eq_add _ _
          · rfl

end Graph

end ModuleGraph
