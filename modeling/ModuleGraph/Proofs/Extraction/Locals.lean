import ModuleGraph.Proofs.Extraction.Origins

/-!
# The names of imports

Main statement: `Extraction.ofItems_locals`. The record of an import introduces the written names,
in their order and each for what it stands for. The name of an entry is one of a type when the
declaration is marked or the entry itself is. A default name and a name for the whole module are
never marked, so the marks agree with what is written unless a type import has such a name.

## Implementation notes

Entries beside a name for the whole module are not kept, so such imports are left out.
-/

namespace ModuleGraph

/-- The names that an import writes, each with what it stands for in the imported module. Those that
stand for its default or for all of it are names of types if `typeOnly` holds, and the others if
their entry or the whole import is marked. -/
def ImportItem.bindings (item : ImportItem) (typeOnly : Bool) : List LocalBinding :=
  item.defaultName.toList.map (⟨·, .byDefault, typeOnly⟩) ++
    item.wholeName.toList.map (⟨·, .whole, typeOnly⟩) ++
    item.entries.map fun e => ⟨e.localName, .named e.imported, item.typeOnly || e.typeOnly⟩

/-- The record introduces the names that the import writes, and marks them as the import does unless
that is a type import with a name that is not an entry's. -/
structure ImportRecord.Introduces (item : ImportItem) (r : ImportRecord) : Prop where
  raw : r.raw = item.source
  locals : r.locals = item.bindings false
  marked_iff : r.locals = item.bindings item.typeOnly ↔
    item.typeOnly = false ∨ item.defaultName = none ∧ item.wholeName = none

namespace ImportItem

/-- Whether the names that are no entries are marked shows unless there are none. -/
theorem bindings_inj (item : ImportItem) {a b : Bool} :
    item.bindings a = item.bindings b ↔
      a = b ∨ item.defaultName = none ∧ item.wholeName = none := by
  obtain ⟨source, typeOnly, defaultName, wholeName, entries⟩ := item
  cases defaultName <;> cases wholeName <;> simp [bindings]

/-- The declaration of an import introduces its names. -/
theorem locals_toDeclaration {item : ImportItem} (h : item.wholeName = none ∨ item.entries = []) :
    item.toDeclaration.bindings.locals = item.bindings false := by
  obtain ⟨source, typeOnly, defaultName, wholeName, entries⟩ := item
  cases defaultName <;> cases wholeName <;> cases entries <;>
    simp_all [toDeclaration, Bindings.ofNames, Bindings.locals, bindings, marked,
      LocalBinding.ofEntry]

/-- The record of an import introduces its names. -/
theorem introduces_ofDeclaration (file : Path) (table : Extension.Table) {item : ImportItem}
    (h : item.wholeName = none ∨ item.entries = []) :
    (ImportRecord.ofDeclaration file table item.toDeclaration).Introduces item := by
  have hlocals : (ImportRecord.ofDeclaration file table item.toDeclaration).locals =
      item.bindings false :=
    locals_toDeclaration h
  refine ⟨rfl, hlocals, ?_⟩
  rw [hlocals, bindings_inj, eq_comm]

end ImportItem

namespace Extraction

variable (file : Path) (items : List Item) (table : Extension.Table)

/-- The static imports among the records are those of the import items, one for one and in order. -/
theorem filterMap_static_ofDeclarations (imports : List ImportRecord) :
    (((Declaration.ofItems items).map (Record.ofDeclaration file table imports)).filterMap
        (·.import?)).filter (!·.dynamic) =
      (Item.imports items).map fun item => .ofDeclaration file table item.toDeclaration := by
  rw [List.filter_filterMap, List.filterMap_map, Declaration.filterMap_ofItems fun _ => rfl,
    Item.imports, List.map_filterMap]
  apply List.filterMap_congr
  intro item _
  cases item with
  | importing item => rfl
  | exporting item => rw [Declaration.ofItem?, Declaration.ofExport_eq]; rfl
  | statement s => rfl

/-- The static imports of a module introduce the names that its import items write. -/
theorem ofItems_locals :
    ∃ x, ofItems file items table = .ok x ∧
      List.Forall₂
        (fun item r => item.wholeName = none ∨ item.entries = [] → ImportRecord.Introduces item r)
        (Item.imports items) (x.imports.filter (!·.dynamic)) := by
  obtain ⟨x, hx, _, hrecords, _⟩ := exists_ofItems_eq_ok file items table
  refine ⟨x, hx, ?_⟩
  rw [imports, hrecords, Record.ofDeclarations, filterMap_static_ofDeclarations]
  apply List.forall₂_map_right_iff.mpr
  apply List.forall₂_same.mpr
  intro item _ h
  exact ImportItem.introduces_ofDeclaration file table h

/-- A type import of the default. -/
def typeImport : ImportItem :=
  { source := "./d", typeOnly := true, defaultName := some "D", wholeName := none, entries := [] }

/-- The default name of a type import is not marked as one of a type. -/
theorem not_marked_default_of_type :
    ¬ ∀ (file : Path) (items : List Item) (table : Extension.Table),
      ∃ x, ofItems file items table = .ok x ∧
        List.Forall₂
          (fun item r => item.wholeName = none ∨ item.entries = [] →
            r.locals = item.bindings item.typeOnly)
          (Item.imports items) (x.imports.filter (!·.dynamic)) := by
  intro h
  obtain ⟨x, hx, hmarked⟩ := h ⟨"m.ts"⟩ [.importing typeImport] .empty
  have hlocals : (x.imports.filter (!·.dynamic)).map (·.locals) = [[⟨"D", .byDefault, false⟩]] := by
    refine eq_of_toOption_map (fun x => (x.imports.filter (!·.dynamic)).map (·.locals)) hx ?_
    decide +kernel
  obtain ⟨r, _, hr, _, himports⟩ := List.forall₂_cons_left_iff.mp hmarked
  rw [himports, List.map_cons, hr (.inl rfl)] at hlocals
  cases hlocals

end Extraction

end ModuleGraph
