import ModuleGraph.Proofs.Extraction.Interchange
import ModuleGraph.Proofs.Specifier.Directory

/-!
# Where the target of a name is looked up

Main statement: `Extraction.ofItems_candidates`. A relative specifier that ends in a name without a
known extension leads to a path, and the file may lie at that path with any extension of a
module, or else be the index file of a directory there. The edge of the specifier lists both
in this order, unless the path is the directory of the importing file or encloses it: then the
canonical spelling has lost the name, and only the index files are listed.
-/

namespace ModuleGraph

namespace Request

/-- The target with the extension of each kind of module. -/
def fileCandidates (target : Path) (table : Extension.Table) : List Path :=
  table.modules.map (withSuffix target)

/-- The index file of each kind of module in the target. -/
def indexCandidates (target : Path) (table : Extension.Table) : List Path :=
  table.modules.map (withSuffix (target.join ⟨"index"⟩))

theorem fileCandidates_eq_nil_iff (target : Path) {table : Extension.Table} :
    fileCandidates target table = [] ↔ table.modules = [] :=
  List.map_eq_nil_iff

/-- The candidates of a specifier that ends in a name without a known extension. -/
theorem candidates_normalize_of_named {raw : String} (hraw : Anchor.of raw ≠ .bare)
    (h : Specifier.EndsInName raw) {table : Extension.Table}
    (hext : (Specifier.extensionIn raw).any table.recognizes = false) (file : Path) :
    candidates file (Specifier.normalize raw file table) table =
      (if (file.directory.resolve raw).Encloses file.directory.normal then []
        else fileCandidates (file.directory.resolve raw) table) ++
      indexCandidates (file.directory.resolve raw) table := by
  have htarget : file.directory.resolve (Specifier.normalize raw file table).path =
      file.directory.resolve raw := by
    rw [Specifier.path_normalize_of_anchored hraw, Specifier.resolve_render_routeFrom]
  have hnone := Specifier.hasExtension_normalize_of_named hraw h file hext
  have hdirectory := Specifier.isDirectory_normalize_iff hraw h file table
  generalize Specifier.normalize raw file table = s at htarget hnone hdirectory ⊢
  rw [candidates, htarget, hnone, if_neg Bool.false_ne_true]
  by_cases hencloses : (file.directory.resolve raw).Encloses file.directory.normal
  · rw [if_pos hencloses, if_pos (hdirectory.mpr hencloses)]
    rfl
  · rw [if_neg hencloses, if_neg fun hdir => hencloses (hdirectory.mp hdir)]
    rfl

end Request

/-- The edge that a use of an anchored target makes is looked up among files. -/
theorem Edge.request_ofContribution_of_anchored {u : Use} (h : Anchor.of u.target ≠ .bare)
    (file : Path) (table : Extension.Table) :
    (ofContribution file table (u.contribution file table)).request table =
      .file (Request.candidates file (Specifier.normalize u.target file table) table) := by
  have hbare : (Specifier.normalize u.target file table).isBare = false := by
    simp [Specifier.isBare, h]
  rw [request, ofContribution, Use.contribution]
  dsimp only
  rw [hbare, if_neg Bool.false_ne_true]

namespace Extraction

open Request (fileCandidates indexCandidates)

/-- The edge of a relative specifier that ends in a name without a known extension lists the
index files of its target, and before them the target with each extension unless the target
encloses the directory of the file; so the target with each extension is listed exactly when
the target does not, or when no extension is one of modules. -/
theorem ofItems_candidates (file : Path) (items : List Item) (table : Extension.Table) :
    ∃ x, ofItems file items table = .ok x ∧
      ∀ u ∈ items.flatMap Item.uses, Anchor.of u.target = .relative →
        Specifier.EndsInName u.target →
        (Specifier.extensionIn u.target).any table.recognizes = false →
        let target := file.directory.resolve u.target
        ∃ e ∈ x.edges, (∀ f ∈ x.edges, f.key = u.key file table ↔ f = e) ∧
          e.request table = .file ((if target.Encloses file.directory.normal then []
            else fileCandidates target table) ++ indexCandidates target table) ∧
          (e.request table = .file (fileCandidates target table ++ indexCandidates target table) ↔
            table.modules = [] ∨ ¬ target.Encloses file.directory.normal) := by
  obtain ⟨x, hx, _, hrecords, hmerge⟩ := exists_ofItems_eq_ok file items table
  rw [hrecords, Record.filterMap_added?_ofItems] at hmerge
  refine ⟨x, hx, ?_⟩
  intro u hu hanchor hname hext target
  have hraw : Anchor.of u.target ≠ .bare := by
    rw [hanchor]
    exact Anchor.noConfusion
  obtain ⟨e, he, hunique, hsame⟩ := hmerge.exists_interchangeable
    (Use.alike_of_key_eq file table _) (List.mem_map_of_mem hu)
  have hrequest : e.request table = .file ((if target.Encloses file.directory.normal then []
      else fileCandidates target table) ++ indexCandidates target table) := by
    rw [hsame.request, Edge.request_ofContribution_of_anchored hraw,
      Request.candidates_normalize_of_named hraw hname hext]
  refine ⟨e, he, hunique, hrequest, ?_⟩
  rw [hrequest, Request.file.injEq, List.append_left_inj,
    ← Request.fileCandidates_eq_nil_iff target]
  by_cases hencloses : target.Encloses file.directory.normal
  · rw [if_pos hencloses, or_iff_left (not_not_intro hencloses)]
    exact eq_comm
  · rw [if_neg hencloses]
    exact iff_of_true rfl (Or.inr hencloses)

/-- `../a` in a file of the directory `a`. -/
def backIntoDirectory : Item :=
  .importing
    { source := "../a", typeOnly := false, defaultName := some "x", wholeName := none,
      entries := [] }

/-- The file `a.ts` is not looked for: `a/index.ts` is, as it would be for `.`. -/
theorem not_lists_file_of_own_directory :
    ¬ ∀ (file : Path) (items : List Item) (table : Extension.Table),
      ∃ x, ofItems file items table = .ok x ∧
        ∀ u ∈ items.flatMap Item.uses, Anchor.of u.target = .relative →
          Specifier.EndsInName u.target →
          (Specifier.extensionIn u.target).any table.recognizes = false →
          let target := file.directory.resolve u.target
          ∃ e ∈ x.edges, e.key = u.key file table ∧
            e.request table =
              .file (fileCandidates target table ++ indexCandidates target table) := by
  intro h
  let file : Path := ⟨"a/index.ts"⟩
  let table : Extension.Table := ⟨[("ts", .module .typescript)]⟩
  obtain ⟨x, hx, hall⟩ := h file [backIntoDirectory] table
  have hrequests : (ofItems file [backIntoDirectory] table).toOption.map
      (·.edges.map (·.request table)) = some [.file [⟨"a/index.ts"⟩]] := by
    decide +kernel
  rw [hx] at hrequests
  have hedges : x.edges.map (·.request table) = [.file [⟨"a/index.ts"⟩]] :=
    Option.some.inj hrequests
  have huse : ⟨"../a", .staticImport, false⟩ ∈ [backIntoDirectory].flatMap Item.uses := by
    decide +kernel
  obtain ⟨e, he, _, hrequest⟩ := hall _ huse (by decide) ⟨by decide, by decide, by decide⟩
    (by decide)
  have hmem := List.mem_map_of_mem (f := (·.request table)) he
  rw [hedges, List.mem_singleton, hrequest] at hmem
  have hne : Request.file
        (fileCandidates (file.directory.resolve "../a") table ++
          indexCandidates (file.directory.resolve "../a") table) ≠
      .file [⟨"a/index.ts"⟩] := by
    decide +kernel
  exact hne hmem

end Extraction

end ModuleGraph
