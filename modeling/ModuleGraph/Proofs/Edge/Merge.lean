import ModuleGraph.Edge.Basic
import ModuleGraph.Proofs.Firsts

/-!
# Merged edges

Main statement: `ofRecords_exact`. The edges of a file are one for each pair of a target and a
kind that its records add, in the order in which the pairs first appear; an edge carries what
the first of its records says, and is type-only when all of them are. There are none only
when a record has an impossible form, and then the first such record decides the fault.

## Implementation notes

The invariant of the loop is stated of the contributions read so far. One more contribution
leaves the place of every known pair where it is, since a first occurrence stays the first.
-/

namespace ModuleGraph

/-- The fault of a record of an impossible form. -/
def Record.fault? : Record → Option RecordFault
  | .exporting ⟨none, .all, _⟩ => some (.missingTarget "reexport_all")
  | .exporting ⟨none, .whole _, _⟩ => some (.missingTarget "reexport_all_as_namespace")
  | .exporting ⟨none, .nothing, _⟩ => some (.missingTarget "reexport_empty")
  | .exporting ⟨some s, .declared _, _⟩ => some (.unexpectedTarget s.path)
  | _ => none

/-- What a record adds to the edges; an export without a target adds nothing. -/
def Record.added? : Record → Option Contribution
  | .importing r =>
    some ⟨r.specifier,
      if r.dynamic then .dynamicImport else if r.sideEffectOnly then .sideEffect
      else .staticImport, r.typeOnly⟩
  | .exporting ⟨some s, .all, typeOnly⟩ => some ⟨s, .reexportAll, typeOnly⟩
  | .exporting ⟨some s, .whole _, typeOnly⟩ => some ⟨s, .reexportNamespace, typeOnly⟩
  | .exporting ⟨some s, .entries _, typeOnly⟩ => some ⟨s, .reexportNamed, typeOnly⟩
  | .exporting ⟨some s, .nothing, typeOnly⟩ => some ⟨s, .reexportNamed, typeOnly⟩
  | .exporting _ => none

/-- The fault of the first record that has one. -/
def Record.IsFirstFault (records : List Record) (fault : RecordFault) : Prop :=
  ∃ before r after, records = before ++ r :: after ∧ (∀ q ∈ before, q.fault? = none) ∧
    r.fault? = some fault

/-- What tells edges of one file apart: the target and the kind. -/
def Contribution.key (c : Contribution) : String × EdgeKind := (c.specifier.path, c.kind)

/-- What tells edges of one file apart: the target and the kind. -/
def Edge.key (e : Edge) : String × EdgeKind := (e.specifier.path, e.kind)

/-- The contributions of one key made one: the first of them decides the specifier, and all
of them decide whether the types alone are needed. -/
structure Contribution.Joins (cs : List Contribution) (m : Contribution) : Prop where
  first : ∃ c, cs.find? (fun c => c.key = m.key) = some c ∧ m.specifier = c.specifier
  typeOnly : m.typeOnly = true ↔ ∀ c ∈ cs, c.key = m.key → c.typeOnly = true

/-- The edge that the contributions of its key make. -/
structure Edge.Joins (file : Path) (table : Extension.Table) (cs : List Contribution)
    (e : Edge) : Prop where
  file : e.file = file
  first : ∃ c, cs.find? (fun c => c.key = e.key) = some c ∧ e.specifier = c.specifier ∧
    e.isAsset = c.specifier.isAsset table
  typeOnly : e.typeOnly = true ↔ ∀ c ∈ cs, c.key = e.key → c.typeOnly = true

/-- The edges of some contributions: one for each key, in the order in which the keys first
occur. -/
structure Edge.IsMerge (file : Path) (table : Extension.Table) (cs : List Contribution)
    (es : List Edge) : Prop where
  keys : IsFirsts (cs.map Contribution.key) (es.map Edge.key)
  sound : ∀ e ∈ es, Edge.Joins file table cs e

namespace Record

theorem contribution_eq (r : Record) :
    r.contribution = match r.fault? with
      | some fault => .error fault
      | none => .ok r.added? := by
  cases r with
  | importing r => rfl
  | exporting r =>
      obtain ⟨specifier, form, typeOnly⟩ := r
      cases specifier <;> cases form <;> rfl

theorem isFirstFault_iff_findSome? {records : List Record} {fault : RecordFault} :
    IsFirstFault records fault ↔ records.findSome? fault? = some fault := by
  rw [List.findSome?_eq_some_iff]
  constructor
  · rintro ⟨before, r, after, heq, hbefore, hr⟩
    exact ⟨before, r, after, heq, hr, hbefore⟩
  · rintro ⟨before, r, after, heq, hr, hbefore⟩
    exact ⟨before, r, after, heq, hbefore, hr⟩

end Record

namespace Contribution

/-- The first fault decides, and without one the contributions stand in the order of their
records. -/
theorem ofRecords_eq (records : List Record) :
    ofRecords records = match records.findSome? Record.fault? with
      | some fault => .error fault
      | none => .ok (records.filterMap Record.added?) := by
  induction records with
  | nil => rfl
  | cons r rest ih =>
      rw [ofRecords, Record.contribution_eq, List.findSome?_cons]
      cases r.fault? with
      | some fault => rfl
      | none =>
          rw [ih, List.filterMap_cons]
          cases rest.findSome? Record.fault? with
          | some fault => rfl
          | none => cases r.added? <;> rfl

theorem meets_iff {a b : Contribution} : a.meets b = true ↔ a.key = b.key := by
  simp [meets, key]

/-- `m` after the contribution `c` was read: type-only as long as those of its key are. -/
def absorb (m c : Contribution) : Contribution :=
  if m.meets c then { m with typeOnly := m.typeOnly && c.typeOnly } else m

@[simp] theorem key_absorb (m c : Contribution) : (m.absorb c).key = m.key := by
  unfold absorb
  split <;> rfl

@[simp] theorem specifier_absorb (m c : Contribution) :
    (m.absorb c).specifier = m.specifier := by
  unfold absorb
  split <;> rfl

theorem typeOnly_absorb_iff (m c : Contribution) :
    (m.absorb c).typeOnly = true ↔
      m.typeOnly = true ∧ (c.key = m.key → c.typeOnly = true) := by
  unfold absorb
  split
  · rename_i hmeets
    simp [meets_iff.mp hmeets]
  · rename_i hmeets
    have hne : ¬ c.key = m.key := fun h => hmeets (meets_iff.mpr h.symm)
    simp [hne]

theorem add_of_mem_keys {ms : List Contribution} {c : Contribution} (h : c.key ∈ ms.map key) :
    add ms c = ms.map (absorb · c) := by
  obtain ⟨m, hm, hkey⟩ := List.mem_map.mp h
  have hany : ms.any (·.meets c) = true := List.any_eq_true.mpr ⟨m, hm, meets_iff.mpr hkey⟩
  rw [add, if_pos hany]
  rfl

theorem add_of_not_mem_keys {ms : List Contribution} {c : Contribution}
    (h : c.key ∉ ms.map key) : add ms c = ms.map (absorb · c) ++ [c] := by
  have hnone : ∀ m ∈ ms, ¬ m.meets c = true := fun m hm hmeets =>
    h (meets_iff.mp hmeets ▸ List.mem_map_of_mem hm)
  have hany : ¬ ms.any (·.meets c) = true := by
    intro hany
    obtain ⟨m, hm, hmeets⟩ := List.any_eq_true.mp hany
    exact hnone m hm hmeets
  have hsame : ms.map (absorb · c) = ms := by
    rw [List.map_congr_left (g := id), List.map_id]
    intro m hm
    exact if_neg (hnone m hm)
  rw [add, if_neg hany, hsame]

/-- The contributions made one for each key, in the order in which the keys first occur. -/
structure IsMerge (cs ms : List Contribution) : Prop where
  keys : IsFirsts (cs.map key) (ms.map key)
  sound : ∀ m ∈ ms, Joins cs m

variable {cs ms : List Contribution} {m c : Contribution}

/-- A later contribution is absorbed. -/
theorem Joins.absorb (h : Joins cs m) (c : Contribution) : Joins (cs ++ [c]) (m.absorb c) where
  first := by
    obtain ⟨d, hd, hspec⟩ := h.first
    refine ⟨d, ?_, by rw [specifier_absorb, hspec]⟩
    rw [key_absorb, List.find?_append, hd]
    rfl
  typeOnly := by
    rw [typeOnly_absorb_iff, h.typeOnly, key_absorb]
    simp [List.mem_append, or_imp, forall_and]

/-- The first contribution of a key stands for itself. -/
theorem joins_of_not_mem (h : c.key ∉ cs.map key) : Joins (cs ++ [c]) c := by
  have hnone : ∀ d ∈ cs, ¬ d.key = c.key := fun d hd heq =>
    h (heq ▸ List.mem_map_of_mem hd)
  constructor
  · refine ⟨c, ?_, rfl⟩
    have hfind : cs.find? (fun d => d.key = c.key) = none := by simpa using hnone
    rw [List.find?_append, hfind]
    simp
  · constructor
    · intro hc d hd hkey
      rcases List.mem_append.mp hd with hd | hd
      · exact absurd hkey (hnone d hd)
      · exact List.mem_singleton.mp hd ▸ hc
    · intro hall
      exact hall c (List.mem_append_right cs (List.mem_singleton_self c)) rfl

theorem map_key_absorb (ms : List Contribution) (c : Contribution) :
    (ms.map (absorb · c)).map key = ms.map key := by
  simp [Function.comp_def]

theorem IsMerge.add (h : IsMerge cs ms) (c : Contribution) : IsMerge (cs ++ [c]) (add ms c) := by
  have habsorbed : ∀ m ∈ ms.map (Contribution.absorb · c), Joins (cs ++ [c]) m := by
    intro m hm
    obtain ⟨m₀, hm₀, rfl⟩ := List.mem_map.mp hm
    exact (h.sound m₀ hm₀).absorb c
  have hread : (cs ++ [c]).map key = cs.map key ++ [c.key] := List.map_append
  by_cases hknown : c.key ∈ ms.map key
  · rw [add_of_mem_keys hknown]
    refine ⟨?_, habsorbed⟩
    rw [map_key_absorb, hread]
    exact h.keys.append_of_mem hknown
  · have hkeys : (ms.map (Contribution.absorb · c) ++ [c]).map key = ms.map key ++ [c.key] := by
      rw [List.map_append, map_key_absorb, List.map_singleton]
    rw [add_of_not_mem_keys hknown]
    constructor
    · rw [hkeys, hread]
      exact h.keys.append_of_not_mem hknown
    · intro m hm
      rcases List.mem_append.mp hm with hm | hm
      · exact habsorbed m hm
      · rw [List.mem_singleton.mp hm]
        exact joins_of_not_mem fun hmem => hknown ((h.keys.mem_iff c.key).mpr hmem)

theorem IsMerge.foldl_add (h : IsMerge cs ms) (more : List Contribution) :
    IsMerge (cs ++ more) (more.foldl Contribution.add ms) := by
  induction more generalizing cs ms with
  | nil => simpa using h
  | cons c rest ih =>
      rw [List.foldl_cons, List.append_cons]
      exact ih (h.add c)

theorem isMerge_merge (cs : List Contribution) : IsMerge cs (merge cs) := by
  have hnil : IsMerge [] [] := ⟨IsFirsts.nil, by simp⟩
  exact hnil.foldl_add cs

end Contribution

namespace Edge

variable {file : Path} {table : Extension.Table} {cs : List Contribution}

theorem joins_ofContribution {m : Contribution} (h : Contribution.Joins cs m) :
    Joins file table cs (ofContribution file table m) where
  file := rfl
  first := by
    obtain ⟨c, hc, hspec⟩ := h.first
    exact ⟨c, hc, hspec, congrArg (·.isAsset table) hspec⟩
  typeOnly := h.typeOnly

theorem isMerge_map_ofContribution {ms : List Contribution} (h : Contribution.IsMerge cs ms) :
    IsMerge file table cs (ms.map (ofContribution file table)) where
  keys := by
    have hkeys : (ms.map (ofContribution file table)).map key = ms.map Contribution.key :=
      List.map_map
    rw [hkeys]
    exact h.keys
  sound e he := by
    obtain ⟨m, hm, rfl⟩ := List.mem_map.mp he
    exact joins_ofContribution (h.sound m hm)

/-- The specifier of an edge is that of one of its contributions. -/
theorem Joins.exists_contribution {e : Edge} (h : Joins file table cs e) :
    ∃ c ∈ cs, c.key = e.key ∧ e.specifier = c.specifier := by
  obtain ⟨c, hc, hspecifier, _⟩ := h.first
  exact ⟨c, List.mem_of_find?_eq_some hc, by simpa using List.find?_some hc, hspecifier⟩

theorem Joins.isAsset_eq {e : Edge} (h : Joins file table cs e) :
    e.isAsset = e.specifier.isAsset table := by
  obtain ⟨c, _, hspecifier, hasset⟩ := h.first
  rw [hasset, hspecifier]

/-- The contributions of a key make one edge only. -/
theorem Joins.eq_of_key_eq {e e' : Edge} (h : Joins file table cs e)
    (h' : Joins file table cs e') (hkey : e.key = e'.key) : e = e' := by
  obtain ⟨c, hc, hspec, hasset⟩ := h.first
  obtain ⟨c', hc', hspec', hasset'⟩ := h'.first
  rw [hkey, hc'] at hc
  cases hc
  have htype : e.typeOnly = e'.typeOnly := by
    rw [Bool.eq_iff_iff, h.typeOnly, h'.typeOnly, hkey]
  have hkind : e.kind = e'.kind := congrArg Prod.snd hkey
  have hfile : e.file = e'.file := h.file.trans h'.file.symm
  cases e
  cases e'
  simp_all

/-- Some contributions make one list of edges only. -/
theorem IsMerge.unique {es es' : List Edge} (h : IsMerge file table cs es)
    (h' : IsMerge file table cs es') : es = es' := by
  have hsub : ∀ {xs ys : List Edge}, IsMerge file table cs xs → IsMerge file table cs ys →
      xs ⊆ ys := by
    intro xs ys hx hy e he
    have hkey := (hx.keys.mem_iff e.key).mp (List.mem_map_of_mem he)
    obtain ⟨e', he', hkey'⟩ := List.mem_map.mp ((hy.keys.mem_iff e.key).mpr hkey)
    rw [(hx.sound e he).eq_of_key_eq (hy.sound e' he') hkey'.symm]
    exact he'
  let before (a b : Edge) : Prop :=
    (cs.map Contribution.key).idxOf a.key < (cs.map Contribution.key).idxOf b.key
  have : Std.Irrefl before := ⟨fun a => Nat.lt_irrefl _⟩
  have : Std.Antisymm before := ⟨fun a b hab hba => absurd hba (Nat.lt_asymm hab)⟩
  have hordered : ∀ {xs}, IsMerge file table cs xs → xs.Pairwise before := by
    intro xs hx
    have hkeys := hx.keys.ordered
    rw [List.pairwise_map] at hkeys
    exact hkeys
  exact List.Subset.antisymm_of_pairwise (hordered h) (hordered h') (hsub h h') (hsub h' h)

theorem ofRecords_eq (file : Path) (records : List Record) (table : Extension.Table) :
    ofRecords file records table = match records.findSome? Record.fault? with
      | some fault => .error fault
      | none => .ok ((Contribution.merge (records.filterMap Record.added?)).map
          (ofContribution file table)) := by
  rw [ofRecords, Contribution.ofRecords_eq]
  cases records.findSome? Record.fault? <;> rfl

theorem ofRecords_eq_error_iff {file : Path} {records : List Record} {table : Extension.Table}
    {fault : RecordFault} :
    ofRecords file records table = .error fault ↔ Record.IsFirstFault records fault := by
  rw [Record.isFirstFault_iff_findSome?, ofRecords_eq]
  cases records.findSome? Record.fault? with
  | some first => rw [Except.error.injEq, Option.some.injEq]
  | none => constructor <;> intro h <;> cases h

theorem ofRecords_eq_ok_iff {file : Path} {records : List Record} {table : Extension.Table}
    {es : List Edge} :
    ofRecords file records table = .ok es ↔ (∀ r ∈ records, r.fault? = none) ∧
      IsMerge file table (records.filterMap Record.added?) es := by
  have hmerge : IsMerge file table (records.filterMap Record.added?)
      ((Contribution.merge (records.filterMap Record.added?)).map (ofContribution file table)) :=
    isMerge_map_ofContribution (Contribution.isMerge_merge _)
  rw [← List.findSome?_eq_none_iff, ofRecords_eq]
  cases records.findSome? Record.fault? with
  | some fault =>
      constructor
      · intro h
        cases h
      · rintro ⟨h, _⟩
        cases h
  | none =>
      rw [Except.ok.injEq]
      constructor
      · rintro rfl
        exact ⟨rfl, hmerge⟩
      · rintro ⟨_, h⟩
        exact hmerge.unique h

/-- The edges of a file are found unless a record has an impossible form, and then the first
such record is reported; the edges are the merged contributions of the records. -/
theorem ofRecords_exact (file : Path) (records : List Record) (table : Extension.Table) :
    ((∃ fault, ofRecords file records table = .error fault) ↔
        ∃ r ∈ records, r.fault? ≠ none) ∧
      (∀ fault, ofRecords file records table = .error fault ↔
        Record.IsFirstFault records fault) ∧
      ∀ es, ofRecords file records table = .ok es ↔
        (∀ r ∈ records, r.fault? = none) ∧
          IsMerge file table (records.filterMap Record.added?) es := by
  refine ⟨?_, fun _ => ofRecords_eq_error_iff, fun _ => ofRecords_eq_ok_iff⟩
  constructor
  · rintro ⟨fault, h⟩
    obtain ⟨before, r, after, rfl, _, hr⟩ := ofRecords_eq_error_iff.mp h
    exact ⟨r, List.mem_append_right _ List.mem_cons_self, hr ▸ Option.some_ne_none fault⟩
  · rintro ⟨r, hr, hne⟩
    cases h : ofRecords file records table with
    | error fault => exact ⟨fault, rfl⟩
    | ok es => exact absurd ((ofRecords_eq_ok_iff.mp h).1 r hr) hne

end Edge

end ModuleGraph
