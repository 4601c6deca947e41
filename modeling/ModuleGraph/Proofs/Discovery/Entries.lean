import ModuleGraph.Discovery
import ModuleGraph.Proofs.Disk

/-!
# What is found below a directory

Main statement: `found_eq_map_descend`. What is found below a directory are the paths to which
the names of its entries lead down, and the directory itself if it is a link.
-/

namespace ModuleGraph

namespace Discovery

/-- The names that lead from the directory to the entries found there; no names lead to the
directory itself, which is one of them if it is a link. -/
def entries (d : Disk) (root : Path) : List Place :=
  let place := (d.locate root).getD []
  (if d.isLink root then [[]] else []) ++
    ((d.below place).filter fun e => !e.2.isDirectory && isFound d place e.1).map (·.1)

variable {d : Disk} {root : Path} {names : Place}

/-- Something below a place has names of its own there. -/
theorem exists_of_mem_below {place : Place} {e : Place × Entry} (h : e ∈ d.below place) :
    e.1 ≠ [] ∧ ∃ f ∈ d.entries, e.1 = f.1.drop place.length := by
  obtain ⟨f, hf, he⟩ := List.mem_filterMap.mp h
  split at he
  · rename_i hbelow
    cases he
    simp only [Bool.and_eq_true, List.isPrefixOf_iff_prefix, bne_iff_ne] at hbelow
    obtain ⟨⟨rest, hrest⟩, hne⟩ := hbelow
    refine ⟨fun hnil => hne ?_, f, hf, rfl⟩
    change f.1.drop place.length = [] at hnil
    rw [← hrest, List.drop_left] at hnil
    rw [← hrest, hnil, List.append_nil]
  · cases he

/-- What is found is what the names of the entries lead to. -/
theorem found_eq_map_descend (d : Disk) (root : Path) :
    found d root = (entries d root).map root.descend := by
  unfold found entries
  extract_lets place files
  have hlink : (if d.isLink root then [[]] else []).map root.descend =
      if d.isLink root then [root] else [] := by
    split <;> rfl
  have hfiles : (files.map (·.1)).map root.descend =
      files.map fun e => root.join ⟨Text.join '/' e.1⟩ := by
    rw [List.map_map]
    refine List.map_congr_left fun e he => if_neg ?_
    exact (exists_of_mem_below (List.mem_filter.mp he).1).1
  rw [List.map_append, hlink, hfiles]

theorem isName_of_mem_entries (hd : d.WellFormed) (h : names ∈ entries d root) :
    ∀ s ∈ names, Path.IsName s := by
  rcases List.mem_append.mp h with h | h
  · split at h
    · cases List.mem_singleton.mp h
      exact nofun
    · cases h
  · obtain ⟨e, he, rfl⟩ := List.mem_map.mp h
    obtain ⟨_, f, hf, heq⟩ := exists_of_mem_below (List.mem_filter.mp he).1
    intro s hs
    rw [heq] at hs
    exact hd.isName f hf s (List.mem_of_mem_drop hs)

/-- A directory with one file below it that is found has this one entry. -/
theorem entries_eq_singleton (place : Place) (e : Entry) (hlocate : d.locate root = some place)
    (hlink : d.isLink root = false) (hbelow : d.below place = [(names, e)])
    (hentry : e.isDirectory = false) (hfound : isFound d place names = true) :
    entries d root = [names] := by
  simp [entries, hlocate, hlink, hbelow, hentry, hfound]

end Discovery

end ModuleGraph
