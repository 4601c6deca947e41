import ModuleGraph.Edge.Request
import ModuleGraph.Specifier.Normalize

/-!
# Specifiers that are alike

Main statement: `alike_normalize`. The canonical path of a specifier shows whether the
specifier is bare, and the path and the table decide the rest, so specifiers with the same
canonical path may differ only in whether they name the file's own directory by a dot. All that
is asked of a specifier later on has one answer for specifiers that are alike.
-/

namespace ModuleGraph

namespace Text

theorem hasPrefix_append (lead rest : String) : hasPrefix lead (lead ++ rest) = true := by
  simp [hasPrefix]

end Text

/-- A text that begins with `./` or `../` is relative. -/
theorem Anchor.of_eq_relative {raw : String}
    (h : Text.hasPrefix "./" raw = true ∨ Text.hasPrefix "../" raw = true) :
    Anchor.of raw = .relative := by
  have hdot : raw ≠ "." := by
    rintro rfl
    revert h
    decide
  rw [of, if_neg hdot, if_pos]
  rcases h with h | h <;> simp [h]

/-- A canonical spelling is never bare. -/
theorem Route.anchor_render (r : Route) : Anchor.of r.render = .relative := by
  apply Anchor.of_eq_relative
  unfold render
  cases r.ups with
  | zero => exact Or.inl (Text.hasPrefix_append _ _)
  | succ k =>
      rw [if_neg (Nat.succ_ne_zero k), List.replicate_succ, String.join_cons,
        String.append_assoc]
      exact Or.inr (Text.hasPrefix_append _ _)

/-- Specifiers that differ at most in whether they name the file's own directory by a dot. -/
structure Specifier.Alike (s t : Specifier) : Prop where
  path : s.path = t.path
  isBare : s.isBare = t.isBare
  hasExtension : s.hasExtension = t.hasExtension

namespace Specifier

theorem isBare_normalize (raw : String) (file : Path) (table : Extension.Table) :
    (normalize raw file table).isBare =
      decide (Anchor.of (normalize raw file table).path = .bare) := by
  by_cases h : Anchor.of raw = .bare
  · simp [isBare, normalize, normalizeFrom, h]
  · simp [isBare, normalize, normalizeFrom, h, Route.anchor_render]

theorem hasExtension_normalize (raw : String) (file : Path) (table : Extension.Table) :
    (normalize raw file table).hasExtension =
      (extensionIn (normalize raw file table).path).any table.recognizes := by
  simp only [normalize, normalizeFrom]

/-- Specifiers with the same canonical path are alike. -/
theorem alike_normalize {x y : String} {file : Path} {table : Extension.Table}
    (h : (normalize x file table).path = (normalize y file table).path) :
    (normalize x file table).Alike (normalize y file table) where
  path := h
  isBare := by rw [isBare_normalize, isBare_normalize, h]
  hasExtension := by rw [hasExtension_normalize, hasExtension_normalize, h]

namespace Alike

variable {s t : Specifier}

theorem isDirectory_eq (h : s.Alike t) : s.isDirectory = t.isDirectory := by
  rw [isDirectory, isDirectory, h.isBare, h.path]

theorem extension?_eq (h : s.Alike t) : s.extension? = t.extension? := by
  rw [extension?, extension?, h.hasExtension, h.path]

theorem isAsset_eq (h : s.Alike t) (table : Extension.Table) :
    s.isAsset table = t.isAsset table := by
  rw [isAsset, isAsset, assetKind?, assetKind?, h.isBare, h.extension?_eq]

theorem emitted_eq (h : s.Alike t) (ext : String) : s.emitted ext = t.emitted ext := by
  simp only [emitted, h.isBare, h.hasExtension, h.isDirectory_eq, h.path]

theorem candidates_eq (h : s.Alike t) (file : Path) (table : Extension.Table) :
    Request.candidates file s table = Request.candidates file t table := by
  simp only [Request.candidates, h.hasExtension, h.isDirectory_eq, h.path]

end Alike

end Specifier

/-- Edges of one file with specifiers that are alike are looked up alike. -/
theorem Edge.request_eq_of_alike {e f : Edge} (hfile : e.file = f.file)
    (h : e.specifier.Alike f.specifier) (table : Extension.Table) :
    e.request table = f.request table := by
  rw [request, request, h.isBare, h.path, hfile, h.candidates_eq]

end ModuleGraph
