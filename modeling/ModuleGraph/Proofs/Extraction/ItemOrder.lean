import ModuleGraph.Proofs.Extraction.Interchange
import ModuleGraph.Proofs.Extraction.Origins
import ModuleGraph.Proofs.Specifier.Canonical

/-!
# The order of items

Main statement: `Extraction.ofItems_perm`. Items may change places as long as the imports among
them keep their order: the file has the same records, the same globals and the same edges, in
another order. All that may differ is whether an edge on the directory of the file itself is
written with a dot.

## Implementation notes

A record is made of its declaration and of the origins of names, and origins are looked up in
the imports alone. An edge is decided by its key and by all contributions of that key, except
that the first of them gives the specifier; those of one key are alike.
-/

namespace ModuleGraph

/-- The anchor, whether or not a dot stands for the directory. -/
def Anchor.undotted : Anchor → Anchor
  | .bare => .bare
  | .relative => .relative
  | .ownDirectory => .relative

/-- The edge with all that it says, but for whether a dot stands for the directory of its file. -/
def Edge.undotted (e : Edge) : Edge :=
  { e with specifier := { e.specifier with anchor := e.specifier.anchor.undotted } }

namespace Anchor

theorem of_eq_ownDirectory_iff {raw : String} : of raw = .ownDirectory ↔ raw = "." := by
  unfold of
  split
  · rename_i h
    exact iff_of_true rfl h
  · rename_i h
    split <;> simp [h]

/-- Without the dot an anchor says only whether a specifier is bare. -/
theorem undotted_eq_iff {a b : Anchor} : a.undotted = b.undotted ↔ (a = .bare ↔ b = .bare) := by
  cases a <;> cases b <;> decide

end Anchor

namespace Specifier

/-- The way from a directory to itself. -/
theorem path_normalize_dot (file : Path) (table : Extension.Table) :
    (normalize "." file table).path = "./" := by
  have hshared : ∀ xs : List String, Route.sharedLength xs xs = xs.length := by
    intro xs
    induction xs with
    | nil => rfl
    | cons x rest ih => simp [Route.sharedLength, ih]
  have hfollow : (directoryRoute file).follow (Text.split '/' ".") = directoryRoute file := by
    have hdot : Text.split '/' "." = ["."] := by decide
    rw [hdot, Route.follow_cons, Route.step_of_isIdle _ (by decide), Route.follow_nil]
  have hroute : routeFrom "." file = Route.stay := by
    simp [routeFrom, wayFrom, hfollow, Route.relativeTo, hshared, Route.stay]
  rw [path_normalize_of_anchored (by decide), hroute]
  decide

/-- Specifiers of one file with the same path are equal but for a dot, which names the directory
of the file. -/
theorem NormalizedIn.eq_or_dot {file : Path} {table : Extension.Table} {s t : Specifier}
    (hs : s.NormalizedIn file table) (ht : t.NormalizedIn file table) (h : s.path = t.path) :
    s.anchor.undotted = t.anchor.undotted ∧ s.hasExtension = t.hasExtension ∧
      (s.anchor = t.anchor ∨ s.path = "./") := by
  have halike := hs.alike ht h
  have hbare : s.anchor = .bare ↔ t.anchor = .bare := by
    have hbare := halike.isBare
    simp only [isBare, decide_eq_decide] at hbare
    exact hbare
  refine ⟨Anchor.undotted_eq_iff.mpr hbare, halike.hasExtension, ?_⟩
  obtain ⟨x, rfl⟩ := hs
  obtain ⟨y, rfl⟩ := ht
  simp only [anchor_normalize] at hbare ⊢
  by_cases hx : Anchor.of x = .ownDirectory
  · rw [Anchor.of_eq_ownDirectory_iff.mp hx]
    exact Or.inr (path_normalize_dot file table)
  · by_cases hy : Anchor.of y = .ownDirectory
    · rw [h, Anchor.of_eq_ownDirectory_iff.mp hy]
      exact Or.inr (path_normalize_dot file table)
    · left
      cases hax : Anchor.of x <;> cases hay : Anchor.of y <;> simp_all

end Specifier

namespace Edge

variable {file : Path} {table : Extension.Table} {cs cs' : List Contribution} {e f : Edge}

/-- Edges that say the same but for a dot are equal when they agree on the dot. -/
theorem eq_of_undotted_eq (h : e.undotted = f.undotted)
    (hanchor : e.specifier.anchor = f.specifier.anchor) : e = f := by
  obtain ⟨_, ⟨_, _, _⟩, _, _, _⟩ := e
  obtain ⟨_, ⟨_, _, _⟩, _, _, _⟩ := f
  simp_all [undotted]

/-- The same contributions in another order make the same edge of a key, but for a dot. -/
theorem Joins.undotted_eq (h : Joins file table cs e) (h' : Joins file table cs' f)
    (hperm : cs.Perm cs') (hnormal : ∀ c ∈ cs, c.specifier.NormalizedIn file table)
    (hkey : e.key = f.key) : e.undotted = f.undotted ∧
      (e.specifier.anchor = f.specifier.anchor ∨ e.specifier.path = "./") := by
  obtain ⟨c, hc, _, hspec⟩ := h.exists_contribution
  obtain ⟨d, hd, _, hspec'⟩ := h'.exists_contribution
  have hs : e.specifier.NormalizedIn file table := hspec ▸ hnormal c hc
  have ht : f.specifier.NormalizedIn file table := hspec' ▸ hnormal d (hperm.mem_iff.mpr hd)
  have hpath : e.specifier.path = f.specifier.path := congrArg Prod.fst hkey
  have hkind : e.kind = f.kind := congrArg Prod.snd hkey
  obtain ⟨hundotted, hextension, hanchor⟩ := hs.eq_or_dot ht hpath
  have htype : e.typeOnly = f.typeOnly := by
    rw [Bool.eq_iff_iff, h.typeOnly, h'.typeOnly, hkey]
    simp only [hperm.mem_iff]
  have hasset : e.isAsset = f.isAsset := by
    rw [h.isAsset_eq, h'.isAsset_eq, (hs.alike ht hpath).isAsset_eq]
  have hfile : e.file = f.file := h.file.trans h'.file.symm
  refine ⟨?_, hanchor⟩
  simp only [undotted, hfile, hundotted, hpath, hextension, hkind, htype, hasset]

/-- An edge that changes when its contributions are reordered leads to the directory of its file,
and not all of its contributions agree on the dot. -/
theorem Joins.eq_or_dot (h : Joins file table cs e) (h' : Joins file table cs' f)
    (hperm : cs.Perm cs') (hnormal : ∀ c ∈ cs, c.specifier.NormalizedIn file table)
    (hkey : e.key = f.key) :
    e = f ∨ e.specifier.path = "./" ∧
      ∃ c ∈ cs, c.key = e.key ∧ c.specifier.anchor ≠ e.specifier.anchor := by
  obtain ⟨hundotted, hpath⟩ := h.undotted_eq h' hperm hnormal hkey
  by_cases hanchor : e.specifier.anchor = f.specifier.anchor
  · exact Or.inl (eq_of_undotted_eq hundotted hanchor)
  · obtain ⟨d, hd, hdkey, hspec⟩ := h'.exists_contribution
    refine Or.inr ⟨hpath.resolve_left hanchor, d, hperm.mem_iff.mpr hd, hdkey.trans hkey.symm, ?_⟩
    rw [← hspec]
    exact fun heq => hanchor heq.symm

/-- Edges of one list have different keys, with or without dots. -/
theorem IsMerge.nodup_undotted {es : List Edge} (h : IsMerge file table cs es) :
    (es.map undotted).Nodup := by
  apply List.Nodup.of_map key
  rw [List.map_map]
  exact h.keys.nodup

/-- The same contributions in another order make the same edges, but for dots and their order. -/
theorem IsMerge.undotted_perm {es fs : List Edge} (h : IsMerge file table cs es)
    (h' : IsMerge file table cs' fs) (hperm : cs.Perm cs')
    (hnormal : ∀ c ∈ cs, c.specifier.NormalizedIn file table) :
    (es.map undotted).Perm (fs.map undotted) := by
  have hkeys : ∀ k, k ∈ es.map key ↔ k ∈ fs.map key := by
    intro k
    rw [h.keys.mem_iff, h'.keys.mem_iff]
    exact (hperm.map _).mem_iff
  apply (List.perm_ext_iff_of_nodup h.nodup_undotted h'.nodup_undotted).mpr
  intro a
  constructor
  · intro ha
    obtain ⟨e, he, rfl⟩ := List.mem_map.mp ha
    obtain ⟨f, hf, hkey⟩ := List.mem_map.mp ((hkeys _).mp (List.mem_map_of_mem he))
    rw [((h.sound e he).undotted_eq (h'.sound f hf) hperm hnormal hkey.symm).1]
    exact List.mem_map_of_mem hf
  · intro ha
    obtain ⟨f, hf, rfl⟩ := List.mem_map.mp ha
    obtain ⟨e, he, hkey⟩ := List.mem_map.mp ((hkeys _).mpr (List.mem_map_of_mem hf))
    rw [← ((h.sound e he).undotted_eq (h'.sound f hf) hperm hnormal hkey).1]
    exact List.mem_map_of_mem he

end Edge

/-- Imports that give names the same origins make the same records. -/
theorem Record.ofDeclaration_congr {imports imports' : List ImportRecord}
    (h : ∀ name, Origin.find name imports = Origin.find name imports') (file : Path)
    (table : Extension.Table) :
    ofDeclaration file table imports = ofDeclaration file table imports' := by
  have hentry : ∀ typeOnly targeted, ExportBinding.ofEntry typeOnly targeted imports =
      ExportBinding.ofEntry typeOnly targeted imports' := by
    intro typeOnly targeted
    funext e
    rw [ExportBinding.ofEntry, ExportBinding.ofEntry, h]
  funext d
  cases d with
  | importing d => rfl
  | exporting d =>
      rw [ofDeclaration, ofDeclaration, ExportRecord.ofDeclaration, ExportRecord.ofDeclaration]
      cases d.shape <;> simp only [hentry]

namespace Extraction

variable {items items' : List Item}

theorem records_perm (h : items.Perm items') (himports : Item.imports items = Item.imports items')
    (file : Path) (table : Extension.Table) :
    (Record.ofDeclarations file table (Declaration.ofItems items)).Perm
      (Record.ofDeclarations file table (Declaration.ofItems items')) := by
  have hfind : ∀ name,
      Origin.find name (ImportRecord.ofDeclarations file table (Declaration.ofItems items)) =
        Origin.find name
          (ImportRecord.ofDeclarations file table (Declaration.ofItems items')) := by
    intro name
    rw [Origin.find_ofItems, Origin.find_ofItems, himports]
  have hdeclarations : (Declaration.ofItems items).Perm (Declaration.ofItems items') :=
    h.flatMap_right _
  have hrecord := Record.ofDeclaration_congr hfind file table
  unfold Record.ofDeclarations
  dsimp only
  exact hrecord ▸ hdeclarations.map _

theorem globals_perm (h : items.Perm items') :
    (Global.ofItems items).Perm (Global.ofItems items') := by
  have hfirsts := Global.isFirsts_ofItems items
  have hfirsts' := Global.isFirsts_ofItems items'
  have huses : (Global.among (items.flatMap Item.findings)).Perm
      (Global.among (items'.flatMap Item.findings)) :=
    (h.flatMap_right _).filterMap _
  apply (List.perm_ext_iff_of_nodup hfirsts.nodup hfirsts'.nodup).mpr
  intro g
  rw [hfirsts.mem_iff, hfirsts'.mem_iff, huses.mem_iff]

theorem globals_of_ofItems_eq_ok {file : Path} {table : Extension.Table} {x : Extraction}
    (h : ofItems file items table = .ok x) : x.globals = Global.ofItems items := by
  unfold ofItems at h
  dsimp only at h
  cases hedges : Edge.ofRecords file
      (Record.ofDeclarations file table (Declaration.ofItems items)) table with
  | error fault => rw [hedges] at h; cases h
  | ok es => rw [hedges] at h; cases h; rfl

/-- Items may change places as long as the imports among them keep their order. The records, the
globals and the edges are then the same in another order, but for the dot by which a module may
name its own directory. -/
theorem ofItems_perm (h : items.Perm items')
    (himports : Item.imports items = Item.imports items') (file : Path)
    (table : Extension.Table) :
    ∃ x y, ofItems file items table = .ok x ∧ ofItems file items' table = .ok y ∧
      x.records.Perm y.records ∧ x.globals.Perm y.globals ∧
      (x.edges.map Edge.undotted).Perm (y.edges.map Edge.undotted) ∧
      ∀ e ∈ x.edges, ∀ f ∈ y.edges, e.key = f.key → e = f ∨ e.specifier.path = "./" ∧
        ∃ u ∈ items.flatMap Item.uses, u.key file table = e.key ∧
          Anchor.of u.target ≠ e.specifier.anchor := by
  obtain ⟨x, hx, _, hrecords, hmerge⟩ := exists_ofItems_eq_ok file items table
  obtain ⟨y, hy, _, hrecords', hmerge'⟩ := exists_ofItems_eq_ok file items' table
  have hrecordsPerm : x.records.Perm y.records := by
    rw [hrecords, hrecords']
    exact records_perm h himports file table
  have hadded := hrecordsPerm.filterMap Record.added?
  rw [hrecords, Record.filterMap_added?_ofItems] at hmerge hadded
  have hnormal : ∀ c ∈ (items.flatMap Item.uses).map (Use.contribution file table),
      c.specifier.NormalizedIn file table := by
    intro c hc
    obtain ⟨u, _, rfl⟩ := List.mem_map.mp hc
    exact ⟨u.target, rfl⟩
  refine ⟨x, y, hx, hy, hrecordsPerm, ?_, hmerge.undotted_perm hmerge' hadded hnormal, ?_⟩
  · rw [globals_of_ofItems_eq_ok hx, globals_of_ofItems_eq_ok hy]
    exact globals_perm h
  · intro e he f hf hkey
    rcases (hmerge.sound e he).eq_or_dot (hmerge'.sound f hf) hadded hnormal hkey with
      heq | ⟨hpath, c, hc, hckey, hanchor⟩
    · exact Or.inl heq
    · obtain ⟨u, hu, rfl⟩ := List.mem_map.mp hc
      exact Or.inr ⟨hpath, u, hu, hckey, hanchor⟩

/-- An import, an export of the name that it introduces, and the own directory in two spellings. -/
def importFirst : List Item :=
  [.importing
    { source := "./m", typeOnly := false, defaultName := none, wholeName := none,
      entries := [⟨"a", "n", false⟩] },
   .exporting (.named none [⟨"n", "n", false⟩] false),
   .exporting (.all "." none false), .exporting (.all "./x/.." none true)]

/-- Read backwards the export comes before the import, and the edge on the own directory is
written without the dot. -/
theorem ofItems_perm_reversed :
    importFirst.Perm importFirst.reverse ∧
      Item.imports importFirst = Item.imports importFirst.reverse ∧
      ∃ x y, ofItems ⟨"a.ts"⟩ importFirst .standard = .ok x ∧
        ofItems ⟨"a.ts"⟩ importFirst.reverse .standard = .ok y ∧
        x.records.Perm y.records ∧ x.globals.Perm y.globals ∧
        (x.edges.map Edge.undotted).Perm (y.edges.map Edge.undotted) ∧
        x.edges.map (·.specifier.anchor) = [.relative, .ownDirectory] ∧
        y.edges.map (·.specifier.anchor) = [.relative, .relative] := by
  have hperm : importFirst.Perm importFirst.reverse := (List.reverse_perm _).symm
  have himports : Item.imports importFirst = Item.imports importFirst.reverse := rfl
  obtain ⟨x, y, hx, hy, hrecords, hglobals, hedges, _⟩ :=
    ofItems_perm hperm himports ⟨"a.ts"⟩ .standard
  refine ⟨hperm, himports, x, y, hx, hy, hrecords, hglobals, hedges, ?_, ?_⟩
  · refine eq_of_toOption_map (·.edges.map (·.specifier.anchor)) hx ?_
    decide +kernel
  · refine eq_of_toOption_map (·.edges.map (·.specifier.anchor)) hy ?_
    decide +kernel

end Extraction

end ModuleGraph
