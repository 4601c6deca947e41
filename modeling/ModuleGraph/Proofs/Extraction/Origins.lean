import ModuleGraph.Proofs.Declaration.Preorder
import ModuleGraph.Proofs.Extraction.WellFormed

/-!
# The origins of exported names

Main statement: `Extraction.ofItems_origins`. The entries of an export list keep their names and
their order. Without a source an entry has an origin exactly when an import item of the module
introduces its local name, wherever that item stands, and the first such item decides the origin.
An entry of a list with a source has none.

## Implementation notes

Origins are looked up among the records of all imports. Records of `import()` calls introduce no
name, so the lookup is one in the import items of the module, in their order.
-/

namespace ModuleGraph

/-- The item as a static import. -/
def Item.import? : Item → Option ImportItem
  | .importing item => some item
  | _ => none

/-- The item as an export. -/
def Item.export? : Item → Option ExportItem
  | .exporting item => some item
  | _ => none

/-- The static imports of a module, in order. -/
def Item.imports (items : List Item) : List ImportItem := items.filterMap Item.import?

/-- The exports of a module, in order. -/
def Item.exports (items : List Item) : List ExportItem := items.filterMap Item.export?

/-- The names that an import introduces, each with what it stands for in the imported module: the
default name, and then either the name of the whole module or the entries of the list. -/
def ImportItem.names (item : ImportItem) : List (String × ImportedName) :=
  item.defaultName.toList.map (·, .byDefault) ++
    match item.wholeName with
    | some name => [(name, .whole)]
    | none => item.entries.map fun e => (e.localName, .named e.imported)

/-- The import introduces `name` in its file. A name for the whole module leaves no room for
entries, so beside one they introduce nothing. -/
def ImportItem.Introduces (item : ImportItem) (name : String) : Prop :=
  item.defaultName = some name ∨ item.wholeName = some name ∨
    item.wholeName = none ∧ ∃ e ∈ item.entries, e.localName = name

/-- The declaration of an import. -/
def ImportItem.toDeclaration (item : ImportItem) : ImportDeclaration :=
  let bindings := Bindings.ofNames item.defaultName item.wholeName item.marked
  { source := item.source, bindings, dynamic := false,
    typeOnly := item.typeOnly || bindings.allTypes }

/-- The declaration of an export. -/
def ExportItem.toDeclaration : ExportItem → ExportDeclaration
  | .all source asName typeOnly => ⟨some source, asName.elim .all .whole, typeOnly⟩
  | .named source entries typeOnly => ⟨source, .entries entries, typeOnly⟩
  | .declaration names typeOnly _ => ⟨none, .declared names, typeOnly⟩

/-- The entries of an export record. -/
def ExportForm.bindings : ExportForm → List ExportBinding
  | .entries list => list
  | _ => []

/-- The origin of `name` in a file with these imports: the first of them that introduces the name
gives the target, and how it introduces the name gives what the name stands for there. -/
def Origin.IsFirst (file : Path) (table : Extension.Table) (imports : List ImportItem)
    (name : String) (o : Origin) : Prop :=
  ∃ before item after, imports = before ++ item :: after ∧
    (∀ i ∈ before, ¬ i.Introduces name) ∧
    o.specifier = Specifier.normalize item.source file table ∧
    item.names.find? (·.1 = name) = some (name, o.imported)

/-- The binding is that of an entry in a list with this source, in a file with these imports. -/
structure ExportBinding.StandsFor (file : Path) (table : Extension.Table)
    (imports : List ImportItem) (source : Option String) (e : ExportEntry)
    (b : ExportBinding) : Prop where
  localName : b.localName = e.localName
  exported : b.exported = e.exported
  isSome_origin : b.origin.isSome = true ↔
    source = none ∧ ∃ item ∈ imports, item.Introduces e.localName
  origin : ∀ o, b.origin = some o ↔
    source = none ∧ Origin.IsFirst file table imports e.localName o

/-- The bindings of an export record are those of the entries of the item, one for one and in
order. An item that is no list has none. -/
def ExportRecord.Lists (file : Path) (table : Extension.Table) (imports : List ImportItem) :
    ExportItem → ExportRecord → Prop
  | .named source entries _, r =>
    List.Forall₂ (ExportBinding.StandsFor file table imports source) entries r.form.bindings
  | _, r => r.form.bindings = []

theorem Declaration.ofExport_eq (item : ExportItem) :
    ofExport item = .exporting item.toDeclaration := by
  cases item <;> rfl

/-- What is read off declarations and not off calls of `import()` is read off the declarations
that the items themselves are. -/
theorem Declaration.filterMap_ofItems {α : Type} {f : Declaration → Option α}
    (hcall : ∀ target, f (ofCall target) = none) (items : List Item) :
    (ofItems items).filterMap f = items.filterMap fun item => (ofItem? item).bind f := by
  induction items with
  | nil => rfl
  | cons item rest ih =>
      have hcalls : ∀ targets : List String, (targets.map ofCall).filterMap f = [] := by
        intro targets
        rw [List.filterMap_map, List.filterMap_eq_nil_iff]
        exact fun target _ => hcall target
      rw [ofItems, List.flatMap_cons, List.filterMap_append, ofItem_eq, List.filterMap_append,
        hcalls, List.append_nil]
      rw [ofItems] at ih
      rw [ih]
      cases h : ofItem? item with
      | none => simp [h]
      | some d => cases hd : f d <;> simp [h, hd]

/-- The names that the bindings of an import introduce. -/
theorem ImportItem.map_locals_toDeclaration (item : ImportItem) :
    item.toDeclaration.bindings.locals.map (fun b => (b.localName, b.imported)) = item.names := by
  obtain ⟨source, typeOnly, defaultName, wholeName, entries⟩ := item
  cases defaultName <;> cases wholeName <;> cases entries <;>
    simp [toDeclaration, Bindings.ofNames, Bindings.locals, names, marked, LocalBinding.ofEntry]

theorem ImportItem.introduces_iff {item : ImportItem} {name : String} :
    item.Introduces name ↔ ∃ p ∈ item.names, p.1 = name := by
  obtain ⟨source, typeOnly, defaultName, wholeName, entries⟩ := item
  cases defaultName <;> cases wholeName <;> simp [Introduces, names]

theorem ImportItem.find?_names_eq_none_iff {item : ImportItem} {name : String} :
    item.names.find? (·.1 = name) = none ↔ ¬ item.Introduces name := by
  simp only [introduces_iff, List.find?_eq_none, decide_eq_true_eq, not_exists, not_and]

namespace Origin

variable (file : Path) (table : Extension.Table) (name : String)

/-- The origin that one import gives. -/
def ofImport? (item : ImportItem) : Option Origin :=
  (item.names.find? (·.1 = name)).map fun p => ⟨Specifier.normalize item.source file table, p.2⟩

/-- The origin that the record of one declaration gives. -/
def ofDeclaration? (d : Declaration) : Option Origin :=
  d.import?.bind fun d =>
    ((ImportRecord.ofDeclaration file table d).locals.find? (·.localName = name)).map fun b =>
      ⟨Specifier.normalize d.source file table, b.imported⟩

theorem find_ofDeclarations (ds : List Declaration) :
    find name (ImportRecord.ofDeclarations file table ds) =
      ds.findSome? (ofDeclaration? file table name) := by
  induction ds with
  | nil => rfl
  | cons d rest ih =>
      cases d with
      | exporting d => exact ih
      | importing d =>
          rw [List.findSome?_cons, ← ih]
          rfl

/-- The record of an import gives what the import itself gives. -/
theorem ofDeclaration?_ofImport (item : ImportItem) :
    ofDeclaration? file table name (.ofImport item) = ofImport? file table name item := by
  have hfind : item.names.find? (·.1 = name) =
      (item.toDeclaration.bindings.locals.find? (·.localName = name)).map
        fun b => (b.localName, b.imported) := by
    rw [← item.map_locals_toDeclaration, List.find?_map]
    rfl
  rw [ofImport?, hfind, Option.map_map]
  rfl

/-- Among the records of a module an origin is looked up as among its import items. -/
theorem find_ofItems (items : List Item) :
    find name (ImportRecord.ofDeclarations file table (Declaration.ofItems items)) =
      (Item.imports items).findSome? (ofImport? file table name) := by
  have horigins : (Declaration.ofItems items).filterMap (ofDeclaration? file table name) =
      (Item.imports items).filterMap (ofImport? file table name) := by
    rw [Declaration.filterMap_ofItems fun _ => rfl, Item.imports, List.filterMap_filterMap]
    apply List.filterMap_congr
    intro item _
    cases item with
    | importing item => exact ofDeclaration?_ofImport file table name item
    | exporting item => rw [Declaration.ofItem?, Declaration.ofExport_eq]; rfl
    | statement s => rfl
  rw [find_ofDeclarations, ← List.head?_filterMap, horigins, List.head?_filterMap]

variable {file table name}

theorem ofImport?_eq_none_iff {item : ImportItem} :
    ofImport? file table name item = none ↔ ¬ item.Introduces name := by
  rw [ofImport?, Option.map_eq_none_iff, ImportItem.find?_names_eq_none_iff]

theorem ofImport?_eq_some_iff {item : ImportItem} {o : Origin} :
    ofImport? file table name item = some o ↔
      o.specifier = Specifier.normalize item.source file table ∧
        item.names.find? (·.1 = name) = some (name, o.imported) := by
  rw [ofImport?, Option.map_eq_some_iff]
  constructor
  · rintro ⟨p, hp, rfl⟩
    have hname : p.1 = name := by simpa using List.find?_some hp
    exact ⟨rfl, hp.trans (by rw [← hname])⟩
  · rintro ⟨hspecifier, hfind⟩
    refine ⟨_, hfind, ?_⟩
    rw [← hspecifier]

/-- What is looked up among import items is the origin that the first of them gives. -/
theorem findSome?_ofImport?_eq_some_iff {imports : List ImportItem} {o : Origin} :
    imports.findSome? (ofImport? file table name) = some o ↔
      IsFirst file table imports name o := by
  rw [List.findSome?_eq_some_iff]
  constructor
  · rintro ⟨before, item, after, heq, hitem, hbefore⟩
    obtain ⟨hspecifier, hfind⟩ := ofImport?_eq_some_iff.mp hitem
    exact ⟨before, item, after, heq, fun i hi => ofImport?_eq_none_iff.mp (hbefore i hi),
      hspecifier, hfind⟩
  · rintro ⟨before, item, after, heq, hbefore, hitem⟩
    exact ⟨before, item, after, heq, ofImport?_eq_some_iff.mpr hitem,
      fun i hi => ofImport?_eq_none_iff.mpr (hbefore i hi)⟩

/-- Something is looked up when one of the import items introduces the name. -/
theorem isSome_findSome?_ofImport? {imports : List ImportItem} :
    (imports.findSome? (ofImport? file table name)).isSome = true ↔
      ∃ item ∈ imports, item.Introduces name := by
  rw [List.isSome_findSome?, List.any_eq_true]
  simp only [Option.isSome_iff_ne_none, ne_eq, ofImport?_eq_none_iff, not_not]

end Origin

variable (file : Path) (table : Extension.Table) (items : List Item)

/-- The binding of an entry, in a module with these items. -/
theorem ExportBinding.standsFor_ofEntry (typeOnly : Bool) (source : Option String)
    (e : ExportEntry) :
    StandsFor file table (Item.imports items) source e
      (ofEntry typeOnly source.isSome
        (ImportRecord.ofDeclarations file table (Declaration.ofItems items)) e) := by
  refine ⟨rfl, rfl, ?_, fun o => ?_⟩
  · cases source with
    | some target => simp [ofEntry]
    | none =>
        simp only [ofEntry, Option.isSome_none, Bool.false_eq_true, if_false, true_and]
        rw [Origin.find_ofItems, Origin.isSome_findSome?_ofImport?]
  · cases source with
    | some target => simp [ofEntry]
    | none =>
        simp only [ofEntry, Option.isSome_none, Bool.false_eq_true, if_false, true_and]
        rw [Origin.find_ofItems, Origin.findSome?_ofImport?_eq_some_iff]

/-- The record of an export item lists its entries. -/
theorem ExportRecord.lists_ofDeclaration (item : ExportItem) :
    Lists file table (Item.imports items) item
      (.ofDeclaration item.toDeclaration
        (item.toDeclaration.source.map (Specifier.normalize · file table))
        (ImportRecord.ofDeclarations file table (Declaration.ofItems items))) := by
  cases item with
  | all source asName typeOnly => cases asName <;> rfl
  | declaration names typeOnly body => rfl
  | named source entries typeOnly =>
      unfold Lists ExportItem.toDeclaration ofDeclaration
      dsimp only
      split
      · rename_i hempty
        rw [Bool.and_eq_true, List.isEmpty_iff] at hempty
        rw [hempty.1]
        exact .nil
      · rw [Option.isSome_map]
        apply List.forall₂_map_right_iff.mpr
        apply List.forall₂_same.mpr
        intro e _
        exact ExportBinding.standsFor_ofEntry file table items typeOnly source e

namespace Extraction

/-- The exports among the records are those of the export items, one for one and in order. -/
theorem filterMap_export?_ofDeclarations (imports : List ImportRecord) :
    ((Declaration.ofItems items).map (Record.ofDeclaration file table imports)).filterMap
        (·.export?) =
      (Item.exports items).map fun item => .ofDeclaration item.toDeclaration
        (item.toDeclaration.source.map (Specifier.normalize · file table)) imports := by
  rw [List.filterMap_map, Declaration.filterMap_ofItems fun _ => rfl, Item.exports,
    List.map_filterMap]
  apply List.filterMap_congr
  intro item _
  cases item with
  | importing item => rfl
  | exporting item => rw [Declaration.ofItem?, Declaration.ofExport_eq]; rfl
  | statement s => rfl

/-- The exports of a module list the entries of its export items. An entry of a list without a
source has the origin that the first import item introducing its local name gives, and none when
there is no such item; an entry of a list with a source has none. -/
theorem ofItems_origins :
    ∃ x, ofItems file items table = .ok x ∧
      List.Forall₂ (ExportRecord.Lists file table (Item.imports items)) (Item.exports items)
        x.exports := by
  obtain ⟨x, hx, _, hrecords, _⟩ := exists_ofItems_eq_ok file items table
  refine ⟨x, hx, ?_⟩
  have hexports : x.exports = (Item.exports items).map fun item => .ofDeclaration item.toDeclaration
      (item.toDeclaration.source.map (Specifier.normalize · file table))
      (ImportRecord.ofDeclarations file table (Declaration.ofItems items)) := by
    rw [exports, hrecords]
    exact filterMap_export?_ofDeclarations file table items _
  rw [hexports]
  apply List.forall₂_map_right_iff.mpr
  apply List.forall₂_same.mpr
  intro item _
  exact ExportRecord.lists_ofDeclaration file table items item

/-- An import that writes entries beside a name for the whole module, and an export of an entry. -/
def besideWhole : List Item :=
  [.importing
    { source := "./m", typeOnly := false, defaultName := none, wholeName := some "ns",
      entries := [⟨"a", "n", false⟩] },
   .exporting (.named none [⟨"n", "n", false⟩] false)]

/-- The entry has no origin, although an import writes its name. -/
theorem not_origin_of_written_beside_whole :
    ¬ ∀ (file : Path) (items : List Item) (table : Extension.Table),
      ∃ x, ofItems file items table = .ok x ∧
        ∀ entries typeOnly, .named none entries typeOnly ∈ Item.exports items →
          ∀ e ∈ entries,
            (∃ item ∈ Item.imports items, item.defaultName = some e.localName ∨
              item.wholeName = some e.localName ∨
              ∃ i ∈ item.entries, i.localName = e.localName) →
            ∃ r ∈ x.exports, ∃ b ∈ r.form.bindings,
              b.localName = e.localName ∧ b.origin.isSome = true := by
  intro h
  obtain ⟨x, hx, hall⟩ := h ⟨"m.ts"⟩ besideWhole .empty
  have hforms : x.exports.map (·.form) = [.entries [⟨"n", "n", false, none⟩]] := by
    refine eq_of_toOption_map (·.exports.map (·.form)) hx ?_
    decide +kernel
  obtain ⟨r, hr, b, hb, _, horigin⟩ := hall [⟨"n", "n", false⟩] false List.mem_cons_self
    ⟨"n", "n", false⟩ List.mem_cons_self
    ⟨_, List.mem_cons_self, Or.inr (Or.inr ⟨_, List.mem_cons_self, rfl⟩)⟩
  have hmem := List.mem_map_of_mem (f := (·.form)) hr
  rw [hforms, List.mem_singleton] at hmem
  rw [hmem, ExportForm.bindings, List.mem_singleton] at hb
  rw [hb] at horigin
  cases horigin

end Extraction

end ModuleGraph
