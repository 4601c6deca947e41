import ModuleGraph.Graph.Indexed
import ModuleGraph.Proofs.Graph.Growth
import ModuleGraph.Proofs.Path.Normal

/-!
# The tables of an indexed graph

Main statement: `IndexedGraph.ofChanges_exact`. Whatever changes made a graph, its four tables
number its nodes: every node has one entry, in the table of its family and under its own key.
So the tables say what a search of the nodes says, their sizes are the counts of the families,
and an addition under a key that was entered once changes nothing.

## Implementation notes

The invariant is `WellIndexed`. It compares the tables with the search `Graph.number?` at every
key, so what is known about a graph without tables carries over, and one lemma about an entry
under a new key serves all four tables.
-/

namespace ModuleGraph

/-- The node has the family of the key and what the key says. A parsed file is spelled in its
collapsed form, which its steps determine. -/
def NodeKey.Describes : NodeKey → Node → Prop
  | .file steps, n => ∃ path, n = .file path ∧ path.Collapsed ∧ path.components = steps
  | .package name, n => n = .package name
  | .asset steps, n => ∃ path kind, n = .asset path kind ∧ path.components = steps
  | .unresolved steps, n => ∃ path label, n = .unresolved path label ∧ path.components = steps

/-- A node fits its own key. -/
theorem Node.describes_key {n : Node} (h : ∀ path, n = .file path → path.Collapsed) :
    n.key.Describes n := by
  cases n with
  | file path => exact ⟨path, rfl, h path rfl, rfl⟩
  | package name => exact rfl
  | asset path kind => exact ⟨path, kind, rfl, rfl⟩
  | unresolved path label => exact ⟨path, label, rfl, rfl⟩

/-- Every node belongs to one of the four families. -/
theorem Node.one_family (n : Node) :
    (if n.isFile then 1 else 0) + (if n.isPackage then 1 else 0) + (if n.isAsset then 1 else 0) +
      (if n.isUnresolved then 1 else 0) = 1 := by
  cases n <;> rfl

namespace Addition

/-- An addition makes a node of its own key. -/
@[simp]
theorem key_node (a : Addition) : a.node.key = a.key := by
  cases a <;> rfl

/-- Two spellings of a file share a key when they collapse to the same path. -/
theorem key_file_eq_iff (p q : Path) : (file p).key = (file q).key ↔ p.normal = q.normal := by
  constructor
  · intro h
    exact (Path.collapsed_normal p).eq_of_same (Path.collapsed_normal q)
      (Path.same_iff.mpr (NodeKey.file.inj h))
  · intro h
    rw [key, key, h]

theorem collapsed_of_node_eq {a : Addition} {path : Path} (h : a.node = .file path) :
    path.Collapsed := by
  cases a with
  | file written =>
      rw [← Node.file.inj h]
      exact Path.collapsed_normal written
  | _ => cases h

end Addition

namespace Graph

variable {g : Graph}

theorem perform_eq_add (g : Graph) (a : Addition) : g.perform a = g.add a.node := by
  cases a <;> rfl

/-- A node of a new key is found at the end, and all others where they were. -/
theorem number?_append {n : Node} (h : g.number? n.key = none) (key : NodeKey) :
    Graph.number? { g with nodes := g.nodes ++ [n] } key =
      if n.key = key then some g.nodes.length else g.number? key := by
  have hcut : Graph.number? { g with nodes := g.nodes ++ [n] } key =
      (g.number? key).or (if n.key = key then some g.nodes.length else none) := by
    by_cases hkey : n.key = key <;> simp [number?, List.findIdx?_append, hkey]
  rw [hcut]
  by_cases hkey : n.key = key
  · rw [← hkey, h, Option.none_or]
  · rw [if_neg hkey, if_neg hkey, Option.or_none]

/-- The counts of the four families add up to the number of nodes. -/
theorem counts_eq_length (g : Graph) :
    g.fileCount + g.packageCount + g.assetCount + g.unresolvedCount = g.nodes.length := by
  unfold fileCount packageCount assetCount unresolvedCount
  induction g.nodes with
  | nil => rfl
  | cons n rest ih =>
      have hone := n.one_family
      simp only [List.countP_cons, List.length_cons]
      omega

end Graph

namespace IndexedGraph

variable {x : IndexedGraph}

/-- An entry is found under its own key and changes no other. -/
theorem number?_enter (x : IndexedGraph) (i : Nat) (key other : NodeKey) :
    (x.enter i key).number? other = if key = other then some i else x.number? other := by
  cases key <;> cases other <;> simp [enter, number?, Std.HashMap.getElem?_insert]

theorem number?_append (x : IndexedGraph) (n : Node) (key : NodeKey) :
    (x.append n).number? key = x.number? key := by
  cases key <;> rfl

theorem graph_enter (x : IndexedGraph) (i : Nat) (key : NodeKey) :
    (x.enter i key).graph = x.graph := by
  cases key <;> rfl

theorem add_of_entered {a : Addition} {i : Nat} (h : x.number? a.key = some i) :
    x.add a = (x, i) := by
  rw [add, h]

theorem add_of_absent {a : Addition} (h : x.number? a.key = none) :
    x.add a = ((x.append a.node).enter x.graph.nodes.length a.key, x.graph.nodes.length) := by
  rw [add, h]

/-- The tables number the nodes. -/
structure WellIndexed (x : IndexedGraph) : Prop where
  number : ∀ key, x.number? key = x.graph.number? key
  nodup : x.graph.keys.Nodup
  collapsed : ∀ path, .file path ∈ x.graph.nodes → path.Collapsed
  files : x.files.size = x.graph.fileCount
  packages : x.packages.size = x.graph.packageCount
  assets : x.assets.size = x.graph.assetCount
  unresolved : x.unresolved.size = x.graph.unresolvedCount

theorem wellIndexed_empty : WellIndexed empty where
  number key := by cases key <;> simp [empty, number?, Graph.empty, Graph.number?]
  nodup := List.nodup_nil
  collapsed path h := absurd h List.not_mem_nil
  files := Std.HashMap.size_empty
  packages := Std.HashMap.size_empty
  assets := Std.HashMap.size_empty
  unresolved := Std.HashMap.size_empty

/-- An entry under a new key makes a table larger by one. -/
theorem size_insert_of_absent {α : Type} [BEq α] [LawfulBEq α] [Hashable α]
    {table : Std.HashMap α Nat} {k : α} {i : Nat} (h : table[k]? = none) :
    (table.insert k i).size = table.size + 1 := by
  have hmem : k ∉ table := by
    intro hmem
    rw [Std.HashMap.mem_iff_isSome_getElem?, h] at hmem
    cases hmem
  rw [Std.HashMap.size_insert, if_neg hmem]

theorem graph_add_of_absent {a : Addition} (h : x.number? a.key = none) :
    (x.add a).1.graph = { x.graph with nodes := x.graph.nodes ++ [a.node] } := by
  rw [add_of_absent h, graph_enter]
  rfl

theorem number?_add_of_absent {a : Addition} (h : x.number? a.key = none) (key : NodeKey) :
    (x.add a).1.number? key =
      if a.key = key then some x.graph.nodes.length else x.number? key := by
  rw [add_of_absent h, number?_enter, number?_append]

/-- An addition under a new key makes the table of its family larger by one. -/
theorem sizes_add_of_absent {a : Addition} (h : x.number? a.key = none) :
    (x.add a).1.files.size = x.files.size + (if a.node.isFile then 1 else 0) ∧
      (x.add a).1.packages.size = x.packages.size + (if a.node.isPackage then 1 else 0) ∧
      (x.add a).1.assets.size = x.assets.size + (if a.node.isAsset then 1 else 0) ∧
      (x.add a).1.unresolved.size =
        x.unresolved.size + (if a.node.isUnresolved then 1 else 0) := by
  rw [add_of_absent h]
  cases a with
  | file path => exact ⟨size_insert_of_absent h, rfl, rfl, rfl⟩
  | package name => exact ⟨rfl, size_insert_of_absent h, rfl, rfl⟩
  | asset path table => exact ⟨rfl, rfl, size_insert_of_absent h, rfl⟩
  | unresolved path specifier => exact ⟨rfl, rfl, rfl, size_insert_of_absent h⟩

namespace WellIndexed

/-- The tables and the search agree about every addition. -/
theorem graph_add (hx : x.WellIndexed) (a : Addition) :
    (x.add a).1.graph = (x.graph.perform a).1 ∧ (x.add a).2 = (x.graph.perform a).2 := by
  have hnumber := hx.number a.node.key
  rw [Addition.key_node] at hnumber
  rw [Graph.perform_eq_add]
  cases h : x.number? a.key with
  | some i =>
      rw [add_of_entered h, Graph.add_of_known (i := i) (by rw [a.key_node, ← hnumber, h])]
      exact ⟨rfl, rfl⟩
  | none =>
      rw [Graph.add_of_new (by rw [a.key_node, ← hnumber, h])]
      exact ⟨graph_add_of_absent h, by rw [add_of_absent h]⟩

theorem add (hx : x.WellIndexed) (a : Addition) : (x.add a).1.WellIndexed := by
  cases h : x.number? a.key with
  | some i =>
      rw [add_of_entered h]
      exact hx
  | none =>
      have hnew : x.graph.number? a.node.key = none := by
        rw [a.key_node, ← hx.number, h]
      have hgraph := graph_add_of_absent h
      obtain ⟨hfiles, hpackages, hassets, hunresolved⟩ := sizes_add_of_absent h
      constructor
      · intro key
        rw [number?_add_of_absent h, hgraph, Graph.number?_append hnew, a.key_node, hx.number]
      · rw [(hx.graph_add a).1, Graph.perform_eq_add]
        exact Graph.nodup_keys_add _ hx.nodup
      · intro path hpath
        rw [hgraph] at hpath
        rcases List.mem_append.mp hpath with hpath | hpath
        · exact hx.collapsed path hpath
        · exact a.collapsed_of_node_eq (List.mem_singleton.mp hpath).symm
      · rw [hfiles, hx.files, hgraph, Graph.fileCount, Graph.fileCount, List.countP_append,
          List.countP_singleton]
      · rw [hpackages, hx.packages, hgraph, Graph.packageCount, Graph.packageCount,
          List.countP_append, List.countP_singleton]
      · rw [hassets, hx.assets, hgraph, Graph.assetCount, Graph.assetCount, List.countP_append,
          List.countP_singleton]
      · rw [hunresolved, hx.unresolved, hgraph, Graph.unresolvedCount, Graph.unresolvedCount,
          List.countP_append, List.countP_singleton]

theorem connect (hx : x.WellIndexed) (d : Dependency) :
    WellIndexed { x with graph := x.graph.connect d } where
  number key := by
    have h := hx.number key
    cases key <;> exact h
  nodup := hx.nodup
  collapsed := hx.collapsed
  files := hx.files
  packages := hx.packages
  assets := hx.assets
  unresolved := hx.unresolved

theorem change (hx : x.WellIndexed) (c : Change) :
    (x.change c).WellIndexed ∧ (x.change c).graph = x.graph.change c := by
  cases c with
  | add a => exact ⟨hx.add a, (hx.graph_add a).1⟩
  | connect d => exact ⟨hx.connect d, rfl⟩

/-- Changes keep the tables right, and make the graph that they make without tables. -/
theorem foldl_change (hx : x.WellIndexed) (changes : List Change) :
    (changes.foldl IndexedGraph.change x).WellIndexed ∧
      (changes.foldl IndexedGraph.change x).graph = changes.foldl Graph.change x.graph := by
  induction changes generalizing x with
  | nil => exact ⟨hx, rfl⟩
  | cons c rest ih =>
      obtain ⟨hc, hgraph⟩ := hx.change c
      rw [List.foldl_cons, List.foldl_cons, ← hgraph]
      exact ih hc

/-- Every entry is the number of a node that the key describes. -/
theorem exists_node (hx : x.WellIndexed) {key : NodeKey} {i : Nat} (h : x.number? key = some i) :
    ∃ n, x.graph.nodes[i]? = some n ∧ n.key = key ∧ key.Describes n := by
  rw [hx.number] at h
  obtain ⟨n, hn, rfl⟩ := Graph.exists_of_number? h
  refine ⟨n, hn, rfl, n.describes_key ?_⟩
  rintro path rfl
  exact hx.collapsed path (List.mem_of_getElem? hn)

/-- No two keys have the same number, not even in different tables. -/
theorem key_unique (hx : x.WellIndexed) {k l : NodeKey} {i : Nat} (hk : x.number? k = some i)
    (hl : x.number? l = some i) : k = l := by
  obtain ⟨m, hm, rfl, _⟩ := hx.exists_node hk
  obtain ⟨n, hn, rfl, _⟩ := hx.exists_node hl
  rw [Option.some.inj (hm.symm.trans hn)]

/-- The numbers in the tables are the numbers of the nodes, each in one entry. -/
theorem lt_length_iff (hx : x.WellIndexed) {i : Nat} :
    i < x.graph.nodes.length ↔ ∃! key, x.number? key = some i := by
  constructor
  · intro hi
    have hnode := List.getElem?_eq_getElem hi
    have hmem : x.graph.nodes[i].key ∈ x.graph.keys :=
      List.mem_map_of_mem (List.getElem_mem hi)
    obtain ⟨j, hj⟩ := Graph.exists_number?_of_mem hmem
    obtain ⟨n, hn, hkey⟩ := Graph.exists_of_number? hj
    have hij : i = j := Graph.eq_of_key_eq_of_nodup hx.nodup hnode hn hkey.symm
    rw [← hx.number, ← hij] at hj
    exact ⟨_, hj, fun other hother => hx.key_unique hother hj⟩
  · rintro ⟨key, hkey, _⟩
    obtain ⟨n, hn, _⟩ := hx.exists_node hkey
    exact (List.getElem?_eq_some_iff.mp hn).1

/-- There are as many entries as nodes. -/
theorem sizes_eq_length (hx : x.WellIndexed) :
    x.files.size + x.packages.size + x.assets.size + x.unresolved.size =
      x.graph.nodes.length := by
  rw [hx.files, hx.packages, hx.assets, hx.unresolved, Graph.counts_eq_length]

end WellIndexed

/-- What is added is found under its key. -/
theorem number?_add_self (x : IndexedGraph) (a : Addition) :
    (x.add a).1.number? a.key = some (x.add a).2 := by
  cases h : x.number? a.key with
  | some i => rw [add_of_entered h, h]
  | none => rw [number?_add_of_absent h, if_pos rfl, add_of_absent h]

/-- No change takes an entry away or gives it another number. -/
theorem number?_change {key : NodeKey} {i : Nat} (h : x.number? key = some i) (c : Change) :
    (x.change c).number? key = some i := by
  cases c with
  | add a =>
      cases ha : x.number? a.key with
      | some j => rw [change, add_of_entered ha, h]
      | none =>
          have hne : a.key ≠ key := by
            rintro rfl
            rw [h] at ha
            cases ha
          rw [change, number?_add_of_absent ha, if_neg hne, h]
  | connect d => cases key <;> exact h

theorem number?_foldl_change {key : NodeKey} {i : Nat} (h : x.number? key = some i)
    (changes : List Change) : (changes.foldl change x).number? key = some i := by
  induction changes generalizing x with
  | nil => exact h
  | cons c rest ih => exact ih (number?_change h c)

/-- No two keys of the table have the same number. -/
def Distinct {α : Type} [BEq α] [Hashable α] (table : Std.HashMap α Nat) : Prop :=
  ∀ (k l : α) (i : Nat), table[k]? = some i → table[l]? = some i → k = l

/-- A table that is looked up for one sort of key has no number twice. -/
theorem WellIndexed.distinct {α : Type} [BEq α] [Hashable α] (hx : x.WellIndexed)
    {table : Std.HashMap α Nat} {key : α → NodeKey} (hkey : ∀ k l, key k = key l → k = l)
    (htable : ∀ k, x.number? (key k) = table[k]?) : Distinct table := by
  intro k l i hk hl
  rw [← htable] at hk hl
  exact hkey k l (hx.key_unique hk hl)

/-- Whatever changes made the graph, it is the one they make without tables. No table has one
number for two keys, and every number in it is that of a node which the key describes. Every
node has one entry in one table, so the sizes of the tables are the counts of the families and
add up to the number of nodes. An addition under a new key puts its node at the end, enters it
and changes nothing else; an addition under a key that was entered at any time before changes
nothing and gives the number of that time. Files share a key when their collapsed paths are
the same. -/
theorem ofChanges_exact (changes : List Change) :
    let x := ofChanges changes
    (x.graph = Graph.ofChanges changes ∧ (∀ key, x.number? key = x.graph.number? key) ∧
        ∀ a, (x.add a).2 = (x.graph.perform a).2) ∧
      (Distinct x.files ∧ Distinct x.packages ∧ Distinct x.assets ∧ Distinct x.unresolved) ∧
      (∀ key i, x.number? key = some i →
        ∃ n, x.graph.nodes[i]? = some n ∧ key.Describes n) ∧
      (∀ i, i < x.graph.nodes.length ↔ ∃! key, x.number? key = some i) ∧
      (x.files.size + x.packages.size + x.assets.size + x.unresolved.size =
          x.graph.nodes.length ∧
        x.files.size = x.graph.fileCount ∧ x.packages.size = x.graph.packageCount ∧
        x.assets.size = x.graph.assetCount ∧ x.unresolved.size = x.graph.unresolvedCount) ∧
      (∀ a, x.number? a.key = none →
        (x.add a).2 = x.graph.nodes.length ∧
          (x.add a).1.graph = { x.graph with nodes := x.graph.nodes ++ [a.node] } ∧
          ∀ key, (x.add a).1.number? key =
            if a.key = key then some x.graph.nodes.length else x.number? key) ∧
      (∀ a i, x.number? a.key = some i → x.add a = (x, i)) ∧
      (∀ (a b : Addition) (later : List Change), b.key = a.key →
        let y := later.foldl change (x.add a).1
        y.add b = (y, (x.add a).2)) ∧
      ∀ p q : Path, (Addition.file p).key = (Addition.file q).key ↔ p.normal = q.normal := by
  intro x
  obtain ⟨hx, hgraph⟩ : x.WellIndexed ∧ x.graph = Graph.ofChanges changes :=
    wellIndexed_empty.foldl_change changes
  refine ⟨⟨hgraph, hx.number, fun a => (hx.graph_add a).2⟩, ?_, ?_, fun i => hx.lt_length_iff,
    ⟨hx.sizes_eq_length, hx.files, hx.packages, hx.assets, hx.unresolved⟩, ?_,
    fun a i h => add_of_entered h, ?_, Addition.key_file_eq_iff⟩
  · exact ⟨hx.distinct (fun _ _ => NodeKey.file.inj) fun _ => rfl,
      hx.distinct (fun _ _ => NodeKey.package.inj) fun _ => rfl,
      hx.distinct (fun _ _ => NodeKey.asset.inj) fun _ => rfl,
      hx.distinct (fun _ _ => NodeKey.unresolved.inj) fun _ => rfl⟩
  · intro key i h
    obtain ⟨n, hn, _, hdescribes⟩ := hx.exists_node h
    exact ⟨n, hn, hdescribes⟩
  · intro a h
    exact ⟨by rw [add_of_absent h], graph_add_of_absent h, number?_add_of_absent h⟩
  · intro a b later hkey y
    apply add_of_entered
    rw [hkey]
    exact number?_foldl_change (number?_add_self x a) later

end IndexedGraph

end ModuleGraph
