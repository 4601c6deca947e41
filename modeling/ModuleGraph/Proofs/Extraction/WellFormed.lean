import Mathlib.Data.List.Forall2
import ModuleGraph.Extraction
import ModuleGraph.Proofs.Edge.Merge

/-!
# Well-formed records

Main statement: `Extraction.ofItems_wellFormed`. What is extracted from the items of a module
is never a fault. Its records stand one to one for the declarations of the items, each with
the target of its own declaration, and every record has a form that can be written down.

## Implementation notes

Items are turned into declarations of possible forms only, and this is the invariant that the
records keep. An impossible record needs an impossible declaration, so no record has a fault.
-/

namespace ModuleGraph

/-- The import can be written down: a dynamic one binds nothing and is needed at run time. -/
def ImportDeclaration.WellFormed (d : ImportDeclaration) : Prop :=
  d.dynamic = true → d.bindings = .nothing ∧ d.typeOnly = false

/-- The export can be written down: a star has a source and a declaration has none. -/
def ExportDeclaration.WellFormed (d : ExportDeclaration) : Prop :=
  match d.shape with
  | .all => d.source ≠ none
  | .whole _ => d.source ≠ none
  | .entries _ => True
  | .declared _ => d.source = none

/-- The declaration can be written down. -/
def Declaration.WellFormed : Declaration → Prop
  | .importing d => d.WellFormed
  | .exporting d => d.WellFormed

/-- The record of an import that can be written down. -/
structure ImportRecord.WellFormed (r : ImportRecord) : Prop where
  /-- It is made for its side effects exactly when it is static and binds nothing. -/
  sideEffectOnly_iff : r.sideEffectOnly = true ↔ r.dynamic = false ∧ r.bindings = .nothing
  dynamic : r.dynamic = true →
    r.bindings = .nothing ∧ r.sideEffectOnly = false ∧ r.typeOnly = false

/-- The record of an export that can be written down: stars and empty lists have a target,
declarations have none, and a list with a target has entries, none of which has an origin. -/
def ExportRecord.WellFormed (r : ExportRecord) : Prop :=
  match r.form with
  | .all => r.specifier ≠ none
  | .whole _ => r.specifier ≠ none
  | .nothing => r.specifier ≠ none
  | .entries list => r.specifier ≠ none → list ≠ [] ∧ ∀ b ∈ list, b.origin = none
  | .declared _ => r.specifier = none

/-- The record can be written down. -/
def Record.WellFormed : Record → Prop
  | .importing r => r.WellFormed
  | .exporting r => r.WellFormed

/-- The record is the one of the declaration: an import for an import and an export for an
export, with the target that the declaration itself names. -/
def Record.StandsFor (file : Path) (table : Extension.Table) : Declaration → Record → Prop
  | .importing d, .importing r =>
    r.raw = d.source ∧ r.specifier = Specifier.normalize d.source file table ∧
      r.bindings = d.bindings ∧ r.dynamic = d.dynamic ∧ r.typeOnly = d.typeOnly
  | .exporting d, .exporting r =>
    r.specifier = d.source.map fun s => Specifier.normalize s file table
  | _, _ => False

/-- The records of the imports among some declarations. -/
def ImportRecord.ofDeclarations (file : Path) (table : Extension.Table)
    (ds : List Declaration) : List ImportRecord :=
  (ds.filterMap (·.import?)).map (.ofDeclaration file table)

/-- The records of declarations when import records are dealt out in turn: each import takes
the next pending one, and an import for which none is left is passed over. -/
def Record.deal (exporting : ExportDeclaration → ExportRecord) :
    List Declaration → List ImportRecord → List Record
  | [], _ => []
  | .exporting d :: ds, pending => .exporting (exporting d) :: deal exporting ds pending
  | .importing _ :: ds, r :: pending => .importing r :: deal exporting ds pending
  | .importing _ :: ds, [] => deal exporting ds []

/-- The records of declarations, where all imports are made first and then dealt out. -/
def Record.dealt (file : Path) (table : Extension.Table) (ds : List Declaration) :
    List Record :=
  let imports := ImportRecord.ofDeclarations file table ds
  deal (fun d => .ofDeclaration d (d.source.map (Specifier.normalize · file table)) imports)
    ds imports

namespace Declaration

theorem wellFormed_ofImport (item : ImportItem) : (ofImport item).WellFormed := by
  intro hdynamic
  cases hdynamic

theorem wellFormed_ofExport (item : ExportItem) : (ofExport item).WellFormed := by
  cases item with
  | all source asName typeOnly => cases asName <;> exact Option.some_ne_none source
  | named source entries typeOnly => exact trivial
  | declaration names typeOnly body => exact rfl

theorem wellFormed_of_mem_ofStatements {body : List Statement} {d : Declaration}
    (h : d ∈ ofStatements body) : d.WellFormed := by
  obtain ⟨target, _, rfl⟩ := List.mem_map.mp h
  intro _
  exact ⟨rfl, rfl⟩

/-- Only declarations that can be written down are made of an item. -/
theorem wellFormed_of_mem_ofItem {item : Item} {d : Declaration} (h : d ∈ ofItem item) :
    d.WellFormed := by
  cases item with
  | importing item =>
      rw [List.mem_singleton.mp h]
      exact wellFormed_ofImport item
  | exporting item =>
      rcases List.mem_cons.mp h with rfl | hbody
      · exact wellFormed_ofExport item
      · cases item with
        | declaration names typeOnly body => exact wellFormed_of_mem_ofStatements hbody
        | all source asName typeOnly => cases hbody
        | named source entries typeOnly => cases hbody
  | statement s => exact wellFormed_of_mem_ofStatements h

theorem wellFormed_of_mem_ofItems {items : List Item} {d : Declaration}
    (h : d ∈ ofItems items) : d.WellFormed := by
  obtain ⟨item, _, hd⟩ := List.mem_flatMap.mp h
  exact wellFormed_of_mem_ofItem hd

end Declaration

theorem Bindings.isNothing_iff {b : Bindings} : b.isNothing = true ↔ b = .nothing := by
  cases b <;> simp [isNothing]

theorem ImportRecord.wellFormed_ofDeclaration {d : ImportDeclaration} (h : d.WellFormed)
    (file : Path) (table : Extension.Table) :
    (ImportRecord.ofDeclaration file table d).WellFormed where
  sideEffectOnly_iff := by simp [ofDeclaration, Bindings.isNothing_iff]
  dynamic := by
    intro hdynamic
    obtain ⟨hbindings, htype⟩ := h hdynamic
    have hdynamic' : d.dynamic = true := hdynamic
    exact ⟨hbindings, by simp [ofDeclaration, hdynamic'], htype⟩

theorem ExportRecord.wellFormed_ofDeclaration {d : ExportDeclaration} (h : d.WellFormed)
    {specifier : Option Specifier} (hspecifier : specifier = none ↔ d.source = none)
    (imports : List ImportRecord) : (ofDeclaration d specifier imports).WellFormed := by
  obtain ⟨source, shape, typeOnly⟩ := d
  cases shape with
  | all => exact fun hnone => h (hspecifier.mp hnone)
  | whole asName => exact fun hnone => h (hspecifier.mp hnone)
  | declared names => exact hspecifier.mpr h
  | entries list =>
      unfold ofDeclaration
      dsimp only
      split
      · rename_i hempty
        rw [Bool.and_eq_true, Option.isSome_iff_ne_none] at hempty
        exact hempty.2
      · rename_i hlist
        intro hsome
        have htarget : specifier.isSome = true := Option.isSome_iff_ne_none.mpr hsome
        constructor
        · intro hnil
          rw [List.map_eq_nil_iff] at hnil
          exact hlist (by simp [hnil, htarget])
        · intro b hb
          obtain ⟨entry, _, rfl⟩ := List.mem_map.mp hb
          simp [ExportBinding.ofEntry, htarget]

namespace Record

/-- A record that can be written down has no fault. -/
theorem fault?_eq_none {r : Record} (h : r.WellFormed) : r.fault? = none := by
  cases r with
  | importing r => rfl
  | exporting r =>
      obtain ⟨specifier, form, typeOnly⟩ := r
      cases form with
      | entries list => cases specifier <;> rfl
      | declared names =>
          have hnone : specifier = none := h
          subst hnone
          rfl
      | _ =>
          obtain ⟨s, rfl⟩ := Option.ne_none_iff_exists'.mp h
          rfl

variable (file : Path) (table : Extension.Table)

theorem wellFormed_ofDeclaration {d : Declaration} (h : d.WellFormed)
    (imports : List ImportRecord) : (ofDeclaration file table imports d).WellFormed := by
  cases d with
  | importing d => exact ImportRecord.wellFormed_ofDeclaration h file table
  | exporting d => exact ExportRecord.wellFormed_ofDeclaration h Option.map_eq_none_iff imports

theorem standsFor_ofDeclaration (imports : List ImportRecord) (d : Declaration) :
    StandsFor file table d (ofDeclaration file table imports d) := by
  cases d with
  | importing d => exact ⟨rfl, rfl, rfl, rfl, rfl⟩
  | exporting d =>
      obtain ⟨source, shape, typeOnly⟩ := d
      cases shape with
      | entries list =>
          unfold ofDeclaration ExportRecord.ofDeclaration
          dsimp only
          split <;> exact rfl
      | _ => exact rfl

/-- Each import takes its own record when the records are dealt out in turn. -/
theorem deal_ofDeclarations (imports : List ImportRecord) (ds : List Declaration) :
    deal (fun d => .ofDeclaration d (d.source.map (Specifier.normalize · file table)) imports)
        ds (ImportRecord.ofDeclarations file table ds) =
      ds.map (ofDeclaration file table imports) := by
  induction ds with
  | nil => rfl
  | cons d rest ih =>
      cases d with
      | importing d => exact congrArg (List.cons _) ih
      | exporting d => exact congrArg (List.cons _) ih

theorem dealt_eq (ds : List Declaration) :
    dealt file table ds = ofDeclarations file table ds :=
  deal_ofDeclarations file table (ImportRecord.ofDeclarations file table ds) ds

theorem wellFormed_of_mem_ofDeclarations {ds : List Declaration}
    (h : ∀ d ∈ ds, d.WellFormed) {r : Record} (hr : r ∈ ofDeclarations file table ds) :
    r.WellFormed := by
  obtain ⟨d, hd, rfl⟩ := List.mem_map.mp hr
  exact wellFormed_ofDeclaration file table (h d hd) _

theorem forall₂_ofDeclarations (ds : List Declaration) :
    List.Forall₂ (StandsFor file table) ds (ofDeclarations file table ds) := by
  unfold ofDeclarations
  rw [List.forall₂_map_right_iff]
  apply List.forall₂_same.mpr
  intro d _
  exact standsFor_ofDeclaration file table _ d

end Record

namespace Extraction

variable (file : Path) (items : List Item) (table : Extension.Table)

/-- The records of a module. -/
theorem wellFormed_of_mem_records {r : Record}
    (h : r ∈ Record.ofDeclarations file table (Declaration.ofItems items)) : r.WellFormed :=
  Record.wellFormed_of_mem_ofDeclarations file table
    (fun _ => Declaration.wellFormed_of_mem_ofItems) h

/-- Extraction gives the records of the declarations and their merged edges. -/
theorem exists_ofItems_eq_ok :
    ∃ x, ofItems file items table = .ok x ∧ x.file = file ∧
      x.records = Record.ofDeclarations file table (Declaration.ofItems items) ∧
      Edge.IsMerge file table (x.records.filterMap Record.added?) x.edges := by
  have hnone : ∀ r ∈ Record.ofDeclarations file table (Declaration.ofItems items),
      r.fault? = none :=
    fun r hr => Record.fault?_eq_none (wellFormed_of_mem_records file items table hr)
  cases hedges : Edge.ofRecords file
      (Record.ofDeclarations file table (Declaration.ofItems items)) table with
  | error fault =>
      obtain ⟨before, r, after, hsplit, _, hr⟩ := Edge.ofRecords_eq_error_iff.mp hedges
      have hmem : r ∈ Record.ofDeclarations file table (Declaration.ofItems items) := by
        rw [hsplit]
        exact List.mem_append_right _ List.mem_cons_self
      rw [hnone r hmem] at hr
      cases hr
  | ok es =>
      have hmerge := (Edge.ofRecords_eq_ok_iff.mp hedges).2
      have hok : ofItems file items table = .ok
          { file, records := Record.ofDeclarations file table (Declaration.ofItems items),
            edges := es, globals := Global.ofItems items } := by
        unfold ofItems
        dsimp only
        rw [hedges]
        rfl
      exact ⟨_, hok, rfl, rfl, hmerge⟩

/-- What is read off an extraction is read off the one that was made. -/
theorem eq_of_toOption_map {file : Path} {items : List Item} {table : Extension.Table}
    {α : Type} (f : Extraction → α) {a : α} {x : Extraction}
    (hx : ofItems file items table = .ok x)
    (h : (ofItems file items table).toOption.map f = some a) : f x = a := by
  rw [hx] at h
  exact Option.some.inj h

/-- Extraction never fails. Its records stand one to one for the declarations of the items,
also when the import records are dealt out in turn, and each of them is well formed. -/
theorem ofItems_wellFormed :
    ∃ x, ofItems file items table = .ok x ∧
      List.Forall₂ (Record.StandsFor file table) (Declaration.ofItems items) x.records ∧
      x.records = Record.dealt file table (Declaration.ofItems items) ∧
      ∀ r ∈ x.records, r.WellFormed := by
  obtain ⟨x, hx, _, hrecords, _⟩ := exists_ofItems_eq_ok file items table
  refine ⟨x, hx, ?_, ?_, ?_⟩
  · rw [hrecords]
    exact Record.forall₂_ofDeclarations file table _
  · rw [hrecords, Record.dealt_eq]
  · intro r hr
    rw [hrecords] at hr
    exact wellFormed_of_mem_records file items table hr

end Extraction

end ModuleGraph
