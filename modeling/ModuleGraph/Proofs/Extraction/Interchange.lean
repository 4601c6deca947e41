import ModuleGraph.Proofs.Extraction.Erasure
import ModuleGraph.Proofs.Specifier.Alike

/-!
# Records that share an edge

Main statement: `Extraction.ofItems_interchangeable`. An edge keeps the specifier of the first of
its records and stands for all of them. Nothing is lost by that: a record alone would make an
edge with the same lookup, the same asset flag, the same extension and the same emitted text.

## Implementation notes

Every specifier in the records of a file was normalized in that file with one table, also those
of the origins of exported names, and so was the target of every use. So it is enough that such
specifiers are alike when their paths are the same.
-/

namespace ModuleGraph

/-- The origins of the names that an export list offers. -/
def ExportForm.origins : ExportForm → List Origin
  | .entries list => list.filterMap (·.origin)
  | _ => []

/-- The specifiers in a record: the one of its target, and those of origins. -/
def Record.specifiers : Record → List Specifier
  | .importing r => [r.specifier]
  | .exporting r => r.specifier.toList ++ r.form.origins.map (·.specifier)

/-- The specifiers in the records of a file. -/
def Extraction.specifiers (x : Extraction) : List Specifier := x.records.flatMap Record.specifiers

/-- Whichever of two edges is kept, the same is looked up and emitted for it. -/
structure Edge.Interchangeable (e f : Edge) : Prop where
  request : ∀ table, e.request table = f.request table
  isAsset : e.isAsset = f.isAsset
  extension : e.specifier.extension? = f.specifier.extension?
  emitted : ∀ ext, e.specifier.emitted ext = f.specifier.emitted ext

/-- The specifier was normalized in `file`. -/
def Specifier.NormalizedIn (file : Path) (table : Extension.Table) (s : Specifier) : Prop :=
  ∃ raw, s = normalize raw file table

/-- Specifiers that were normalized in one file are alike when their paths are the same. -/
theorem Specifier.NormalizedIn.alike {file : Path} {table : Extension.Table} {s t : Specifier}
    (hs : s.NormalizedIn file table) (ht : t.NormalizedIn file table) (h : s.path = t.path) :
    s.Alike t := by
  obtain ⟨x, rfl⟩ := hs
  obtain ⟨y, rfl⟩ := ht
  exact alike_normalize h

/-- An origin has the specifier of one of the imports. -/
theorem Origin.exists_of_find {localName : String} {imports : List ImportRecord} {o : Origin}
    (h : find localName imports = some o) : ∃ r ∈ imports, o.specifier = r.specifier := by
  obtain ⟨r, hr, ho⟩ := List.exists_of_findSome?_eq_some h
  obtain ⟨b, _, rfl⟩ := Option.map_eq_some_iff.mp ho
  exact ⟨r, hr, rfl⟩

theorem ExportBinding.exists_of_origin {typeOnly targeted : Bool} {imports : List ImportRecord}
    {e : ExportEntry} {o : Origin} (h : (ofEntry typeOnly targeted imports e).origin = some o) :
    ∃ r ∈ imports, o.specifier = r.specifier := by
  unfold ofEntry at h
  dsimp only at h
  split at h
  · cases h
  · exact Origin.exists_of_find h

/-- The origins in a record of an export are those of the given imports. -/
theorem ExportRecord.exists_of_mem_origins {d : ExportDeclaration} {target : Option Specifier}
    {imports : List ImportRecord} {o : Origin}
    (h : o ∈ (ofDeclaration d target imports).form.origins) :
    ∃ r ∈ imports, o.specifier = r.specifier := by
  obtain ⟨source, shape, typeOnly⟩ := d
  cases shape with
  | entries list =>
      unfold ofDeclaration at h
      dsimp only at h
      split at h
      · cases h
      · obtain ⟨b, hb, ho⟩ := List.mem_filterMap.mp h
        obtain ⟨e, _, rfl⟩ := List.mem_map.mp hb
        exact ExportBinding.exists_of_origin ho
  | _ => cases h

theorem ExportRecord.specifier_ofDeclaration (d : ExportDeclaration)
    (target : Option Specifier) (imports : List ImportRecord) :
    (ofDeclaration d target imports).specifier = target := by
  obtain ⟨source, shape, typeOnly⟩ := d
  cases shape with
  | entries list =>
      unfold ofDeclaration
      dsimp only
      split <;> rfl
  | _ => rfl

namespace Record

variable {file : Path} {table : Extension.Table}

/-- Every specifier in a record was normalized in the file of the record. -/
theorem normalizedIn_of_mem_specifiers {ds : List Declaration} {r : Record}
    (hr : r ∈ ofDeclarations file table ds) {s : Specifier} (hs : s ∈ r.specifiers) :
    s.NormalizedIn file table := by
  obtain ⟨d, _, rfl⟩ := List.mem_map.mp hr
  cases d with
  | importing d => exact ⟨d.source, List.mem_singleton.mp hs⟩
  | exporting d =>
      rcases List.mem_append.mp hs with hs | hs
      · rw [ExportRecord.specifier_ofDeclaration, Option.mem_toList] at hs
        obtain ⟨raw, _, rfl⟩ := Option.map_eq_some_iff.mp hs
        exact ⟨raw, rfl⟩
      · obtain ⟨o, ho, rfl⟩ := List.mem_map.mp hs
        obtain ⟨i, hi, hspec⟩ := ExportRecord.exists_of_mem_origins ho
        obtain ⟨id, _, rfl⟩ := List.mem_map.mp hi
        exact ⟨id.source, hspec⟩

/-- A record that adds something makes one edge alone. -/
theorem ofRecords_singleton {r : Record} {c : Contribution}
    (h : r.contribution = .ok (some c)) :
    Edge.ofRecords file [r] table = .ok [Edge.ofContribution file table c] := by
  simp only [Edge.ofRecords, Contribution.ofRecords, h]
  rfl

theorem added?_of_contribution {r : Record} {c : Contribution}
    (h : r.contribution = .ok (some c)) : r.added? = some c := by
  rw [contribution_eq] at h
  cases hfault : r.fault? with
  | some fault => rw [hfault] at h; cases h
  | none =>
      rw [hfault] at h
      exact Except.ok.inj h

end Record

/-- The uses of one file with the same key have targets that are alike. -/
theorem Use.alike_of_key_eq (file : Path) (table : Extension.Table) (us : List Use) :
    ∀ c ∈ us.map (contribution file table), ∀ d ∈ us.map (contribution file table),
      c.key = d.key → c.specifier.Alike d.specifier := by
  intro c hc d hd hkey
  obtain ⟨u, _, rfl⟩ := List.mem_map.mp hc
  obtain ⟨v, _, rfl⟩ := List.mem_map.mp hd
  exact Specifier.alike_normalize (congrArg Prod.fst hkey)

namespace Edge

/-- Edges of one file are interchangeable when their specifiers are alike and the table says
whether they are assets. -/
theorem interchangeable_of_alike (table : Extension.Table) {e f : Edge} (hfile : e.file = f.file)
    (he : e.isAsset = e.specifier.isAsset table) (hf : f.isAsset = f.specifier.isAsset table)
    (h : e.specifier.Alike f.specifier) : e.Interchangeable f where
  request := request_eq_of_alike hfile h
  isAsset := by rw [he, hf, h.isAsset_eq]
  extension := h.extension?_eq
  emitted := h.emitted_eq

variable {file : Path} {table : Extension.Table}

/-- The edge that stands for a contribution is interchangeable with the one it would make
alone, if the contributions of a key have specifiers that are alike. -/
theorem IsMerge.exists_interchangeable {cs : List Contribution} {es : List Edge}
    (hmerge : IsMerge file table cs es)
    (halike : ∀ c ∈ cs, ∀ d ∈ cs, c.key = d.key → c.specifier.Alike d.specifier)
    {c : Contribution} (hc : c ∈ cs) :
    ∃ e ∈ es, (∀ f ∈ es, f.key = c.key ↔ f = e) ∧
      e.Interchangeable (ofContribution file table c) := by
  have hkey : c.key ∈ es.map key := (hmerge.keys.mem_iff _).mpr (List.mem_map_of_mem hc)
  obtain ⟨e, he, hkey⟩ := List.mem_map.mp hkey
  have hjoins := hmerge.sound e he
  obtain ⟨first, hfirst, hfirstKey, hspec⟩ := hjoins.exists_contribution
  refine ⟨e, he, ?_, ?_⟩
  · intro f hf
    constructor
    · intro h
      exact (hmerge.sound f hf).eq_of_key_eq hjoins (h.trans hkey.symm)
    · rintro rfl
      exact hkey
  · apply interchangeable_of_alike table hjoins.file hjoins.isAsset_eq rfl
    rw [hspec]
    exact halike first hfirst c hc (hfirstKey.trans hkey)

end Edge

namespace Extraction

/-- The specifiers in the records of a file that have the same path are bare, directories and
with an extension together. The edge that stands for a record is the only one of its target
and kind, and it is interchangeable with the edge that the record makes alone. -/
theorem ofItems_interchangeable (file : Path) (items : List Item) (table : Extension.Table) :
    ∃ x, ofItems file items table = .ok x ∧
      (∀ s ∈ x.specifiers, ∀ t ∈ x.specifiers, s.path = t.path →
        s.isBare = t.isBare ∧ s.isDirectory = t.isDirectory ∧
          s.hasExtension = t.hasExtension) ∧
      ∀ r ∈ x.records, ∀ c, r.contribution = .ok (some c) →
        ∃ alone, Edge.ofRecords file [r] table = .ok [alone] ∧
          ∃ e ∈ x.edges, (∀ f ∈ x.edges, f.key = alone.key ↔ f = e) ∧
            e.Interchangeable alone := by
  obtain ⟨x, hx, _, hrecords, hmerge⟩ := exists_ofItems_eq_ok file items table
  have hnormal : ∀ r ∈ x.records, ∀ s ∈ r.specifiers, s.NormalizedIn file table := by
    intro r hr s hs
    rw [hrecords] at hr
    exact Record.normalizedIn_of_mem_specifiers hr hs
  have halike : ∀ c ∈ x.records.filterMap Record.added?,
      ∀ d ∈ x.records.filterMap Record.added?, c.key = d.key →
        c.specifier.Alike d.specifier := by
    rw [hrecords, Record.filterMap_added?_ofItems]
    exact Use.alike_of_key_eq file table _
  refine ⟨x, hx, ?_, ?_⟩
  · intro s hs t ht hpath
    obtain ⟨r, hr, hs⟩ := List.mem_flatMap.mp hs
    obtain ⟨q, hq, ht⟩ := List.mem_flatMap.mp ht
    have h := (hnormal r hr s hs).alike (hnormal q hq t ht) hpath
    exact ⟨h.isBare, h.isDirectory_eq, h.hasExtension⟩
  · intro r hr c hc
    have hmem : c ∈ x.records.filterMap Record.added? :=
      List.mem_filterMap.mpr ⟨r, hr, Record.added?_of_contribution hc⟩
    exact ⟨Edge.ofContribution file table c, Record.ofRecords_singleton hc,
      hmerge.exists_interchangeable halike hmem⟩

end Extraction

end ModuleGraph
