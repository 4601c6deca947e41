import Mathlib.Data.List.Nodup
import ModuleGraph.Graph.Basic

/-!
# Graphs that grow

A graph starts without nodes and grows by one addition at a time: a parsed file, a package, a
file that is not parsed, a target that was not found, or a dependency between nodes that are
there. Main statements: `Grown.nodup_keys`, no two nodes of such a graph have the same key, and
`Grown.closed`, every dependency stands between two of its nodes.

## Implementation notes

All four additions of nodes are `Graph.add`, so one lemma about it covers them.
-/

namespace ModuleGraph.Graph

/-- The graphs that additions make out of the empty one. -/
inductive Grown : Graph → Prop
  | empty : Grown empty
  | addFile {g : Graph} (path : Path) : Grown g → Grown (g.addFile path).1
  | addPackage {g : Graph} (name : String) : Grown g → Grown (g.addPackage name).1
  | addAsset {g : Graph} (path : Path) (table : Extension.Table) :
      Grown g → Grown (g.addAsset path table).1
  | addUnresolved {g : Graph} (key : Path) (specifier : String) :
      Grown g → Grown (g.addUnresolved key specifier).1
  | connect {g : Graph} {d : Dependency} : Grown g → d.source < g.nodes.length →
      d.target < g.nodes.length → Grown (g.connect d)

/-- The keys of the nodes, in the order of their numbers. -/
def keys (g : Graph) : List NodeKey := g.nodes.map Node.key

theorem number?_eq_none_iff {g : Graph} {key : NodeKey} :
    g.number? key = none ↔ key ∉ g.keys := by
  simp [number?, keys, List.findIdx?_eq_none_iff]

/-- The number that is found for a key is the one of a node with that key. -/
theorem exists_of_number? {g : Graph} {key : NodeKey} {i : Nat} (h : g.number? key = some i) :
    ∃ n, g.nodes[i]? = some n ∧ n.key = key := by
  obtain ⟨hi, hkey, _⟩ := List.findIdx?_eq_some_iff_getElem.mp h
  exact ⟨g.nodes[i], List.getElem?_eq_getElem hi, by simpa using hkey⟩

theorem exists_number?_of_mem {g : Graph} {key : NodeKey} (h : key ∈ g.keys) :
    ∃ i, g.number? key = some i := by
  cases hi : g.number? key with
  | some i => exact ⟨i, rfl⟩
  | none => exact absurd h (number?_eq_none_iff.mp hi)

/-- An addition leaves the graph as it is or puts one node of a new key at the end. -/
theorem add_cases (g : Graph) (n : Node) :
    (g.add n).1 = g ∨
      n.key ∉ g.keys ∧ (g.add n).1 = { g with nodes := g.nodes ++ [n] } := by
  cases h : g.number? n.key with
  | some i => exact Or.inl (by rw [add_of_known h])
  | none => exact Or.inr ⟨number?_eq_none_iff.mp h, by rw [add_of_new h]⟩

/-- An addition leaves the numbers of all nodes as they are. -/
theorem nodes_prefix_add (g : Graph) (n : Node) : g.nodes <+: (g.add n).1.nodes := by
  rcases add_cases g n with h | ⟨_, h⟩
  · exact ⟨[], by rw [h, List.append_nil]⟩
  · exact ⟨[n], by rw [h]⟩

theorem dependencies_add (g : Graph) (n : Node) :
    (g.add n).1.dependencies = g.dependencies := by
  rcases add_cases g n with h | ⟨_, h⟩ <;> rw [h]

theorem nodup_keys_add {g : Graph} (n : Node) (h : g.keys.Nodup) :
    (g.add n).1.keys.Nodup := by
  rcases add_cases g n with he | ⟨hnew, he⟩
  · rw [he]
    exact h
  · rw [he]
    have hk : Graph.keys { g with nodes := g.nodes ++ [n] } = g.keys.concat n.key := by
      simp [keys]
    rw [hk]
    exact h.concat hnew

/-- No two nodes have the same key. -/
theorem Grown.nodup_keys {g : Graph} (h : g.Grown) : g.keys.Nodup := by
  induction h with
  | empty => exact List.nodup_nil
  | addFile path _ ih => exact nodup_keys_add _ ih
  | addPackage name _ ih => exact nodup_keys_add _ ih
  | addAsset path table _ ih => exact nodup_keys_add _ ih
  | addUnresolved key specifier _ ih => exact nodup_keys_add _ ih
  | connect _ _ _ ih => exact ih

/-- When no two nodes have the same key, nodes of the same key are the same node. -/
theorem eq_of_key_eq_of_nodup {g : Graph} (h : g.keys.Nodup) {i j : Nat} {m n : Node}
    (hi : g.nodes[i]? = some m) (hj : g.nodes[j]? = some n) (hk : m.key = n.key) : i = j := by
  have hki : g.keys[i]? = some m.key := by simp [keys, hi]
  have hkj : g.keys[j]? = some m.key := by simp [keys, hj, hk]
  have hlt : i < g.keys.length := (List.getElem?_eq_some_iff.mp hki).1
  exact (List.getElem?_inj hlt h).mp (hki.trans hkj.symm)

/-- Nodes of the same key are the same node. -/
theorem Grown.eq_of_key_eq {g : Graph} (h : g.Grown) {i j : Nat} {m n : Node}
    (hi : g.nodes[i]? = some m) (hj : g.nodes[j]? = some n) (hk : m.key = n.key) : i = j :=
  eq_of_key_eq_of_nodup h.nodup_keys hi hj hk

/-- The ends of every dependency are nodes of the graph. -/
def Closed (g : Graph) : Prop :=
  ∀ d ∈ g.dependencies, d.source < g.nodes.length ∧ d.target < g.nodes.length

theorem Closed.add {g : Graph} (h : g.Closed) (n : Node) : (g.add n).1.Closed := by
  intro d hd
  rw [dependencies_add] at hd
  have hle := (nodes_prefix_add g n).length_le
  obtain ⟨hsource, htarget⟩ := h d hd
  exact ⟨Nat.lt_of_lt_of_le hsource hle, Nat.lt_of_lt_of_le htarget hle⟩

theorem Grown.closed {g : Graph} (h : g.Grown) : g.Closed := by
  induction h with
  | empty => exact fun d hd => absurd hd List.not_mem_nil
  | addFile path _ ih => exact ih.add _
  | addPackage name _ ih => exact ih.add _
  | addAsset path table _ ih => exact ih.add _
  | addUnresolved key specifier _ ih => exact ih.add _
  | connect _ hsource htarget ih =>
      intro d hd
      rcases List.mem_append.mp hd with hd | hd
      · exact ih d hd
      · rw [List.mem_singleton.mp hd]
        exact ⟨hsource, htarget⟩

end ModuleGraph.Graph
