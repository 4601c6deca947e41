import ModuleGraph.Proofs.Declaration.Found
import ModuleGraph.Proofs.Extraction.WellFormed

/-!
# Uses that are erased with the types

Main statement: `Extraction.typeOnly_iff_erased`. What the items of a module use is read off
the items themselves: an import, an export with a source, or a call of `import()` uses a target
in one of six ways, and some of the uses vanish when the types are erased. The edges of the
module are one for each target and way, and an edge is type-only when all its uses are erased.

## Implementation notes

Uses take two steps to the edges. The declarations of an item have the item's uses, and the
records of the declarations add one contribution for each use, so what is known of merged
contributions is known of uses.
-/

namespace ModuleGraph

/-- A target as it is written, the way in which it is used, and whether the use is erased. -/
structure Use where
  target : String
  kind : EdgeKind
  erased : Bool
deriving DecidableEq, Repr

/-- A call of `import()` is never erased. -/
def Use.ofCall (target : String) : Use := ⟨target, .dynamicImport, false⟩

/-- What tells uses of one file apart: the target in canonical spelling and the kind. -/
def Use.key (file : Path) (table : Extension.Table) (u : Use) : String × EdgeKind :=
  ((Specifier.normalize u.target file table).path, u.kind)

/-- What the use adds to the edges of its file. -/
def Use.contribution (file : Path) (table : Extension.Table) (u : Use) : Contribution :=
  ⟨Specifier.normalize u.target file table, u.kind, u.erased⟩

/-- The import has no names at all. -/
def ImportItem.bindsNothing (item : ImportItem) : Bool :=
  item.defaultName.isNone && item.wholeName.isNone && item.entries.isEmpty

/-- The import is marked as one of types, or it has entries only and each of them is. -/
def ImportItem.isErased (item : ImportItem) : Bool :=
  item.typeOnly ||
    item.defaultName.isNone && item.wholeName.isNone &&
      !item.entries.isEmpty && item.entries.all (·.typeOnly)

/-- The use that an import is. -/
def ImportItem.use (item : ImportItem) : Use :=
  ⟨item.source, if item.bindsNothing then .sideEffect else .staticImport, item.isErased⟩

/-- The use that an export with a source is. A list is erased when it is marked as one of
types, or has entries and each of them is. -/
def ExportItem.use? : ExportItem → Option Use
  | .all source none typeOnly => some ⟨source, .reexportAll, typeOnly⟩
  | .all source (some _) typeOnly => some ⟨source, .reexportNamespace, typeOnly⟩
  | .named (some source) entries typeOnly =>
    some ⟨source, .reexportNamed, typeOnly || !entries.isEmpty && entries.all (·.typeOnly)⟩
  | .named none _ _ => none
  | .declaration .. => none

/-- The use that an item itself is. -/
def Item.use? : Item → Option Use
  | .importing item => some item.use
  | .exporting item => item.use?
  | .statement _ => none

/-- The uses of an item: its own, and the calls of `import()` anywhere in it. -/
def Item.uses (item : Item) : List Use :=
  item.use?.toList ++ (Declaration.targets item.findings).map .ofCall

/-- The use that a declaration is. -/
def Declaration.use? : Declaration → Option Use
  | .importing d =>
    some ⟨d.source,
      if d.dynamic then .dynamicImport else if d.bindings.isNothing then .sideEffect
      else .staticImport, d.typeOnly⟩
  | .exporting ⟨some source, .all, typeOnly⟩ => some ⟨source, .reexportAll, typeOnly⟩
  | .exporting ⟨some source, .whole _, typeOnly⟩ => some ⟨source, .reexportNamespace, typeOnly⟩
  | .exporting ⟨some source, .entries list, typeOnly⟩ =>
    some ⟨source, .reexportNamed, typeOnly || !list.isEmpty && list.all (·.typeOnly)⟩
  | .exporting _ => none

namespace Bindings

/-- Nothing is bound when there is no name. -/
theorem isNothing_ofNames (item : ImportItem) :
    (ofNames item.defaultName item.wholeName item.marked).isNothing = item.bindsNothing := by
  obtain ⟨source, typeOnly, defaultName, wholeName, entries⟩ := item
  cases defaultName <;> cases wholeName <;> cases entries <;> rfl

/-- All bindings are of types when there are entries only and all of them are. -/
theorem allTypes_ofNames (item : ImportItem) :
    (item.typeOnly || (ofNames item.defaultName item.wholeName item.marked).allTypes) =
      item.isErased := by
  obtain ⟨source, typeOnly, defaultName, wholeName, entries⟩ := item
  cases typeOnly with
  | true => rfl
  | false =>
      cases defaultName <;> cases wholeName <;> cases entries <;>
        simp [ofNames, ImportItem.marked, ImportItem.isErased, allTypes]

end Bindings

namespace Declaration

theorem use?_ofImport (item : ImportItem) : (ofImport item).use? = some item.use := by
  simp only [ofImport, use?, Bindings.isNothing_ofNames, Bindings.allTypes_ofNames]
  rfl

theorem use?_ofExport (item : ExportItem) : (ofExport item).use? = item.use? := by
  cases item with
  | all source asName typeOnly => cases asName <;> rfl
  | named source entries typeOnly => cases source <;> rfl
  | declaration names typeOnly body => rfl

theorem filterMap_use?_ofStatements (body : List Statement) :
    (ofStatements body).filterMap use? =
      (targets (Statement.findingsOfList body)).map .ofCall := by
  have hcall : use? ∘ ofCall = some ∘ Use.ofCall := rfl
  rw [ofStatements, Search.run_statements, List.filterMap_map, hcall, ← List.filterMap_map,
    List.filterMap_some]

/-- The declarations of an item have its uses. -/
theorem filterMap_use?_ofItem (item : Item) : (ofItem item).filterMap use? = item.uses := by
  cases item with
  | importing item =>
      rw [ofItem, List.filterMap_cons, use?_ofImport]
      rfl
  | exporting item =>
      have hown : ∀ ds, (ofExport item :: ds).filterMap use? =
          item.use?.toList ++ ds.filterMap use? := by
        intro ds
        rw [← use?_ofExport]
        cases h : (ofExport item).use? <;> simp [h]
      cases item with
      | all source asName typeOnly => exact hown []
      | named source entries typeOnly => exact hown []
      | declaration names typeOnly body =>
          exact (hown _).trans (congrArg (_ ++ ·) (filterMap_use?_ofStatements body))
  | statement s => exact filterMap_use?_ofStatements [s]

/-- The declarations of a module have the uses of its items. -/
theorem filterMap_use?_ofItems (items : List Item) :
    (ofItems items).filterMap use? = items.flatMap Item.uses := by
  rw [ofItems, List.filterMap_flatMap]
  apply List.flatMap_congr
  intro item _
  exact filterMap_use?_ofItem item

end Declaration

namespace Record

variable (file : Path) (table : Extension.Table)

/-- Whether all entries of a list are marked, a mark on the list counting for each of them. -/
theorem all_typeOnly_ofEntry (typeOnly targeted : Bool) (imports : List ImportRecord)
    (list : List ExportEntry) :
    (typeOnly || !(list.map (ExportBinding.ofEntry typeOnly targeted imports)).isEmpty &&
        (list.map (ExportBinding.ofEntry typeOnly targeted imports)).all (·.typeOnly)) =
      (typeOnly || !list.isEmpty && list.all (·.typeOnly)) := by
  cases typeOnly with
  | true => rfl
  | false => simp [ExportBinding.ofEntry, Function.comp_def]

/-- A record adds what the use of its declaration adds. -/
theorem added?_ofDeclaration (imports : List ImportRecord) (d : Declaration) :
    (ofDeclaration file table imports d).added? =
      d.use?.map (Use.contribution file table) := by
  cases d with
  | importing d =>
      obtain ⟨source, bindings, dynamic, typeOnly⟩ := d
      cases dynamic <;> rfl
  | exporting d =>
      obtain ⟨source, shape, typeOnly⟩ := d
      cases shape with
      | entries list =>
          cases source with
          | none =>
              unfold ofDeclaration ExportRecord.ofDeclaration
              dsimp only
              split <;> rfl
          | some source =>
              cases list with
              | nil =>
                  have herased : (typeOnly || !([] : List ExportEntry).isEmpty &&
                      ([] : List ExportEntry).all (·.typeOnly)) = typeOnly :=
                    Bool.or_false typeOnly
                  simp only [Declaration.use?, herased]
                  rfl
              | cons entry rest =>
                  rw [Declaration.use?, ← all_typeOnly_ofEntry typeOnly true imports]
                  rfl
      | _ => cases source <;> rfl

/-- The records of a module add one contribution for each use of its items, in order. -/
theorem filterMap_added?_ofItems (items : List Item) :
    (ofDeclarations file table (Declaration.ofItems items)).filterMap added? =
      (items.flatMap Item.uses).map (Use.contribution file table) := by
  rw [← Declaration.filterMap_use?_ofItems, List.map_filterMap, ofDeclarations,
    List.filterMap_map]
  apply List.filterMap_congr
  intro d _
  exact added?_ofDeclaration file table _ d

end Record

namespace Extraction

/-- The edges of a module stand for its uses, one for each target and kind, in the order in
which these are first used, and an edge is type-only exactly when all its uses are erased. -/
theorem typeOnly_iff_erased (file : Path) (items : List Item) (table : Extension.Table) :
    ∃ x, ofItems file items table = .ok x ∧
      IsFirsts ((items.flatMap Item.uses).map (Use.key file table)) (x.edges.map Edge.key) ∧
      ∀ e ∈ x.edges, (e.typeOnly = true ↔
        ∀ u ∈ items.flatMap Item.uses, u.key file table = e.key → u.erased = true) := by
  obtain ⟨x, hx, _, hrecords, hmerge⟩ := exists_ofItems_eq_ok file items table
  rw [hrecords, Record.filterMap_added?_ofItems] at hmerge
  refine ⟨x, hx, ?_, ?_⟩
  · have hkeys := hmerge.keys
    rw [List.map_map] at hkeys
    exact hkeys
  · intro e he
    have htype := (hmerge.sound e he).typeOnly
    rw [List.forall_mem_map] at htype
    exact htype

end Extraction

end ModuleGraph
