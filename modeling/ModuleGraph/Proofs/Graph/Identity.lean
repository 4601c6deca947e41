import ModuleGraph.Proofs.Graph.Growth
import ModuleGraph.Proofs.Path.Normal

/-!
# What nodes and dependencies are apart from their numbers

A node is told from all others by its key. Apart from its number and from the label of a target
that was not found, the key also decides everything else about it, as long as paths are
collapsed and one table says which files are assets. A dependency is then a link between two
nodes that are known by what they are. Main statements: `identityAt_add`, a node that is
added is found under the number that is given for it, and `links_of_isPrefix`, further nodes
change no link.
-/

namespace ModuleGraph

/-- What a node is, whatever its number: a target that was not found is known by its steps
only, since the first edge that leads to it decides its label. -/
inductive NodeIdentity
  | file (path : Path)
  | package (name : String)
  | asset (path : Path) (kind : Option AssetKind)
  | unresolved (steps : List Component)
deriving DecidableEq, Repr

/-- What a node is, whatever its number. -/
def Node.identity : Node → NodeIdentity
  | .file path => .file path
  | .package name => .package name
  | .asset path kind => .asset path kind
  | .unresolved key _ => .unresolved key.components

/-- The node is spelled as additions spell it: its path is collapsed, and the table says which
family a file that is not parsed belongs to. -/
def Node.Canonical (table : Extension.Table) : Node → Prop
  | .file path => path.Collapsed
  | .package _ => True
  | .asset path kind => path.Collapsed ∧ kind = path.extension?.bind table.asset?
  | .unresolved .. => True

namespace Node

variable {m n : Node}

theorem key_eq_of_identity_eq (h : m.identity = n.identity) : m.key = n.key := by
  cases m <;> cases n <;> simp_all [identity, key]

/-- Nodes that are spelled by the same rules are told apart by their keys. -/
theorem Canonical.identity_eq {table : Extension.Table} (hm : m.Canonical table)
    (hn : n.Canonical table) (h : m.key = n.key) : m.identity = n.identity := by
  cases m with
  | file p =>
      cases n with
      | file q =>
          have hpq : p = q := hm.eq_of_same hn (Path.same_iff.mpr (NodeKey.file.inj h))
          rw [hpq]
      | _ => cases h
  | package name =>
      cases n with
      | package name' => exact congrArg NodeIdentity.package (NodeKey.package.inj h)
      | _ => cases h
  | asset p kind =>
      cases n with
      | asset q kind' =>
          have hpq : p = q := hm.1.eq_of_same hn.1 (Path.same_iff.mpr (NodeKey.asset.inj h))
          subst hpq
          rw [hm.2, hn.2]
      | _ => cases h
  | unresolved p label =>
      cases n with
      | unresolved q label' => exact congrArg NodeIdentity.unresolved (NodeKey.unresolved.inj h)
      | _ => cases h

end Node

/-- A dependency between nodes that are known by what they are. An end that is no node of the
graph is none. -/
structure Link where
  source : Option NodeIdentity
  target : Option NodeIdentity
  kind : EdgeKind
  specifier : String
  typeOnly : Bool
deriving DecidableEq, Repr

namespace Graph

/-- What the node with that number is. -/
def identityAt (g : Graph) (i : Nat) : Option NodeIdentity := g.nodes[i]?.map Node.identity

/-- What all nodes are, in the order of their numbers. -/
def identities (g : Graph) : List NodeIdentity := g.nodes.map Node.identity

/-- The link of a dependency. -/
def link (g : Graph) (d : Dependency) : Link :=
  ⟨g.identityAt d.source, g.identityAt d.target, d.kind, d.specifier, d.typeOnly⟩

/-- The links of all dependencies, in the order of their addition. -/
def links (g : Graph) : List Link := g.dependencies.map g.link

variable {g : Graph}

theorem identityAt_eq_some_iff {i : Nat} {a : NodeIdentity} :
    g.identityAt i = some a ↔ ∃ n, g.nodes[i]? = some n ∧ n.identity = a :=
  Option.map_eq_some_iff

theorem identityAt_file_iff {i : Nat} {path : Path} :
    g.identityAt i = some (.file path) ↔ g.nodes[i]? = some (.file path) := by
  rw [identityAt_eq_some_iff]
  constructor
  · rintro ⟨n, hn, hid⟩
    cases n with
    | file q => rw [hn, NodeIdentity.file.inj hid]
    | _ => cases hid
  · intro h
    exact ⟨.file path, h, rfl⟩

theorem any_isUnresolved_iff {i : Nat} :
    g.nodes[i]?.any Node.isUnresolved = true ↔
      ∃ steps, g.identityAt i = some (.unresolved steps) := by
  rw [identityAt]
  cases g.nodes[i]? with
  | none => simp
  | some n => cases n <;> simp [Node.isUnresolved, Node.identity]

theorem lt_length_of_identityAt {i : Nat} {a : NodeIdentity} (h : g.identityAt i = some a) :
    i < g.nodes.length := by
  obtain ⟨n, hn, _⟩ := identityAt_eq_some_iff.mp h
  exact (List.getElem?_eq_some_iff.mp hn).1

/-- The number that is found for the key of a canonical node is the one of such a node. -/
theorem identityAt_of_number? {table : Extension.Table} (hg : ∀ m ∈ g.nodes, m.Canonical table)
    {n : Node} (hn : n.Canonical table) {i : Nat} (h : g.number? n.key = some i) :
    g.identityAt i = some n.identity := by
  obtain ⟨m, hm, hkey⟩ := exists_of_number? h
  have hmem : m ∈ g.nodes := List.mem_of_getElem? hm
  exact identityAt_eq_some_iff.mpr ⟨m, hm, (hg m hmem).identity_eq hn hkey⟩

/-- A node that is added is found under the number that is given for it. -/
theorem identityAt_add {table : Extension.Table} (hg : ∀ m ∈ g.nodes, m.Canonical table)
    {n : Node} (hn : n.Canonical table) :
    (g.add n).1.identityAt (g.add n).2 = some n.identity := by
  cases h : g.number? n.key with
  | some i =>
      rw [add_of_known h]
      exact identityAt_of_number? hg hn h
  | none =>
      rw [add_of_new h]
      simp [identityAt]

variable {g' : Graph}

theorem identityAt_eq_of_isPrefix (h : g.nodes <+: g'.nodes) {i : Nat}
    (hi : i < g.nodes.length) : g'.identityAt i = g.identityAt i := by
  obtain ⟨more, hmore⟩ := h
  rw [identityAt, identityAt, ← hmore, List.getElem?_append_left hi]

theorem identityAt_of_isPrefix (h : g.nodes <+: g'.nodes) {i : Nat} {a : NodeIdentity}
    (hi : g.identityAt i = some a) : g'.identityAt i = some a :=
  (identityAt_eq_of_isPrefix h (lt_length_of_identityAt hi)).trans hi

/-- Further nodes change no link. -/
theorem Grown.links_of_isPrefix (h : g.Grown) (hnodes : g.nodes <+: g'.nodes)
    (hdeps : g'.dependencies = g.dependencies) : g'.links = g.links := by
  rw [links, links, hdeps]
  apply List.map_congr_left
  intro d hd
  obtain ⟨hsource, htarget⟩ := h.closed d hd
  rw [link, link, identityAt_eq_of_isPrefix hnodes hsource,
    identityAt_eq_of_isPrefix hnodes htarget]

theorem links_connect (g : Graph) (d : Dependency) :
    (g.connect d).links = g.links ++ [g.link d] :=
  List.map_append

/-- No two nodes are the same. -/
theorem Grown.nodup_identities (h : g.Grown) : g.identities.Nodup := by
  have hkeys : g.nodes.Pairwise fun m n => m.key ≠ n.key := List.pairwise_map.mp h.nodup_keys
  apply List.pairwise_map.mpr
  apply hkeys.imp
  intro m n hne hid
  exact hne (Node.key_eq_of_identity_eq hid)

/-- Numbers under which the same is found are the same. -/
theorem Grown.eq_of_identityAt_eq (h : g.Grown) {i j : Nat} {a : NodeIdentity}
    (hi : g.identityAt i = some a) (hj : g.identityAt j = some a) : i = j := by
  obtain ⟨m, hm, rfl⟩ := identityAt_eq_some_iff.mp hi
  obtain ⟨n, hn, hid⟩ := identityAt_eq_some_iff.mp hj
  exact h.eq_of_key_eq hm hn (Node.key_eq_of_identity_eq hid.symm)

/-- Nodes have the same number exactly when they are the same. -/
theorem Grown.number_eq_iff (h : g.Grown) {i j : Nat} {a b : NodeIdentity}
    (hi : g.identityAt i = some a) (hj : g.identityAt j = some b) : i = j ↔ a = b := by
  constructor
  · rintro rfl
    exact Option.some.inj (hi.symm.trans hj)
  · rintro rfl
    exact h.eq_of_identityAt_eq hi hj

end Graph

end ModuleGraph
