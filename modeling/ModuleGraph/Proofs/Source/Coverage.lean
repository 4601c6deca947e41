import Mathlib.Data.List.Flatten
import Mathlib.Data.List.Perm.Basic
import ModuleGraph.Proofs.Declaration.Found
import ModuleGraph.Proofs.Source.Literals
import ModuleGraph.Source.Lower

/-!
# What lowering searches

Main statement: `findings_exact`. The dynamic imports and the CommonJS globals of a lowered
module stand at the searched places of its tree. They are those of the whole module outside
its import statements, and for globals outside its lists of exports, when nothing stands at
the skipped places that is not found at the searched ones.

## Implementation notes

Of an export that declares something only the declaration is searched, or the default value,
so what stands beside it is skipped: a decorator written before `export` is part of the
statement and not of the class. Import statements, export clauses and namespace exports are
those of the module itself; what stands in a nested one is searched as any other part.
-/

namespace ModuleGraph.Source

/-- The part of a node that is searched: nothing, all of it, or the child in a field. -/
inductive Scope
  | nothing
  | whole
  | field (f : Field)

/-- The places of the searched part. -/
def Scope.searched (t : Tree) : Scope → List Place
  | .nothing => []
  | .whole => t.places none
  | .field f => (t.child? f).toList.flatMap (Tree.places (some t))

/-- The places beside the searched part. -/
def Scope.skipped (t : Tree) : Scope → List Place
  | .nothing => t.places none
  | .whole => []
  | .field f => ⟨none, t⟩ :: (t.children.eraseP (·.field == some f)).flatMap (Tree.places (some t))

/-- The searched part of an export statement. -/
def exportScope (bytes : ByteArray) (t : Tree) : Scope :=
  if isStarExport bytes t || (t.childOfKind? "export_clause").isSome then .nothing
  else if (t.child? .declaration).isSome then .field .declaration
  else if t.hasToken "default" then .field .value
  else .whole

/-- The searched part of a node at the top level. -/
def scopeOf (bytes : ByteArray) (t : Tree) : Scope :=
  if !t.isProper || t.kind = "import_statement" || t.kind = "hash_bang_line" then .nothing
  else if t.kind = "export_statement" then exportScope bytes t
  else .whole

/-- A list of exports, or the alias of a star. -/
def isExportList (t : Tree) : Bool := t.kind == "export_clause" || t.kind == "namespace_export"

/-- The places of a node at the top level outside the list of an export statement. -/
def unlistedPlaces (t : Tree) : List Place :=
  if t.kind = "export_statement" then
    ⟨none, t⟩ :: (t.children.filter fun c => !isExportList c).flatMap (Tree.places (some t))
  else t.places none

namespace Document

/-- The nodes at the top level that are no import statements. -/
def statements (d : Document) : List Tree :=
  d.tree.children.filter fun t => t.kind != "import_statement"

/-- All places under the program outside import statements, in preorder. -/
def places (d : Document) : List Place := d.statements.flatMap (Tree.places none)

/-- All places under the program outside import statements, export clauses and namespace
exports, in preorder. -/
def unlisted (d : Document) : List Place := d.statements.flatMap unlistedPlaces

/-- The places that are searched, in preorder. -/
def searched (d : Document) : List Place :=
  d.statements.flatMap fun t => (scopeOf d.bytes t).searched t

/-- The places outside import statements that are not searched. -/
def skipped (d : Document) : List Place :=
  d.statements.flatMap fun t => (scopeOf d.bytes t).skipped t

/-- The targets of the calls of `import()` at some places. -/
def importTargets (d : Document) (ps : List Place) : List String :=
  ps.filterMap (Place.importTarget? d.bytes)

/-- The CommonJS globals that are used at some places. -/
def globals (d : Document) (ps : List Place) : List Global := ps.filterMap (Place.global? d.bytes)

end Document

variable {bytes : ByteArray} {t : Tree}

theorem findingsOfList_statementOf (bytes : ByteArray) (t : Tree) :
    Statement.findingsOfList [statementOf bytes t] = Expression.findingsOfList (scan bytes t) := by
  simp [Statement.findingsOfList, statementOf, Statement.findings]

/-- An export is searched in its scope. -/
theorem findings_exportItem (h : t.kind = "export_statement") :
    (exportItem bytes t).findings =
      ((exportScope bytes t).searched t).flatMap (Place.findings bytes) := by
  have hwhole : Statement.findingsOfList [statementOf bytes t] =
      (t.places none).flatMap (Place.findings bytes) := by
    rw [findingsOfList_statementOf, findingsOfList_scan (asked_none t)]
  have hpart : ∀ c : Tree, Statement.findingsOfList [statementOf bytes c] =
      (c.places (some t)).flatMap (Place.findings bytes) := by
    intro c
    have hasked : Place.asked bytes ⟨some t, c⟩ = none := by
      simp [Place.asked, askedProperty, h]
    rw [findingsOfList_statementOf, findingsOfList_scan hasked]
  unfold exportItem exportScope
  by_cases hstar : isStarExport bytes t = true
  · simp [hstar, Item.findings, Item.searched, Scope.searched, Statement.findingsOfList]
  · cases hclause : t.childOfKind? "export_clause" with
    | some clause =>
        simp [hstar, Item.findings, Item.searched, Scope.searched, Statement.findingsOfList]
    | none =>
        cases hdecl : t.child? .declaration with
        | some c =>
            by_cases hdefault : t.hasToken "default" = true
            · simp [hstar, hdefault, hdecl, Item.findings, Item.searched, Scope.searched, hpart]
            · simp [hstar, hdefault, hdecl, Item.findings, Item.searched, Scope.searched, hpart]
        | none =>
            by_cases hdefault : t.hasToken "default" = true
            · cases hvalue : t.child? .value with
              | some c =>
                  simp [hstar, hdefault, hvalue, Item.findings, Item.searched, Scope.searched,
                    hpart]
              | none =>
                  simp [hstar, hdefault, hvalue, Item.findings, Item.searched, Scope.searched,
                    Statement.findingsOfList]
            · simp [hstar, hdefault, Item.findings, Item.searched, Scope.searched, hwhole]

/-- A statement is searched in its scope. -/
theorem findings_itemOf? (bytes : ByteArray) (hproper : t.isProper = true)
    (himport : t.kind ≠ "import_statement") :
    (itemOf? bytes t).toList.flatMap Item.findings =
      ((scopeOf bytes t).searched t).flatMap (Place.findings bytes) := by
  unfold itemOf? scopeOf
  split
  · exact absurd ‹_› himport
  · rename_i hkind
    simp [hproper, hkind, findings_exportItem hkind]
  · rename_i hkind
    simp [hproper, hkind, Scope.searched]
  · rename_i hexport hshell
    have hfound : Item.findings (.statement (statementOf bytes t)) =
        (t.places none).flatMap (Place.findings bytes) := by
      rw [← findingsOfList_scan (asked_none t), ← findingsOfList_statementOf]
      rfl
    rw [hproper, if_neg (by simpa [himport] using hshell), if_neg hexport]
    simpa [Scope.searched] using hfound

/-- What is found in the items of a module stands at its searched places. -/
theorem findings_itemsOf (d : Document) :
    (itemsOf d).flatMap Item.findings = d.searched.flatMap (Place.findings d.bytes) := by
  unfold itemsOf Document.searched Document.statements Tree.proper
  induction d.tree.children with
  | nil => rfl
  | cons t rest ih =>
      have hhead : (([t].filter Tree.isProper).filterMap (itemOf? d.bytes)).flatMap Item.findings =
          (([t].filter fun t => t.kind != "import_statement").flatMap fun t =>
            (scopeOf d.bytes t).searched t).flatMap (Place.findings d.bytes) := by
        by_cases himport : t.kind = "import_statement"
        · by_cases hproper : t.isProper = true
          · have hitem : itemOf? d.bytes t = some (.importing (importItem d.bytes t)) := by
              simp [itemOf?, himport]
            simp [hproper, himport, hitem, Item.findings, Item.searched,
              Statement.findingsOfList]
          · simp [hproper, himport]
        · by_cases hproper : t.isProper = true
          · have hitem := findings_itemOf? d.bytes hproper himport
            cases hi : itemOf? d.bytes t <;> simp_all
          · simp [hproper, himport, scopeOf, Scope.searched]
      rw [← List.singleton_append, List.filter_append, List.filterMap_append,
        List.flatMap_append, ih, hhead, List.filter_append, List.flatMap_append,
        List.flatMap_append]

theorem targets_flatMap_findings (bytes : ByteArray) (ps : List Place) :
    Declaration.targets (ps.flatMap (Place.findings bytes)) =
      ps.filterMap (Place.importTarget? bytes) := by
  rw [Declaration.targets, List.filterMap_flatMap, List.filterMap_eq_flatMap_toList]
  apply List.flatMap_congr
  intro p _
  cases h : p.importTarget? bytes <;> cases h' : p.global? bytes <;> simp [Place.findings, h, h']

theorem among_flatMap_findings (bytes : ByteArray) (ps : List Place) :
    Global.among (ps.flatMap (Place.findings bytes)) = ps.filterMap (Place.global? bytes) := by
  rw [Global.among, List.filterMap_flatMap, List.filterMap_eq_flatMap_toList]
  apply List.flatMap_congr
  intro p _
  cases h : p.importTarget? bytes <;> cases h' : p.global? bytes <;> simp [Place.findings, h, h']

/-- The dynamic imports of a lowered module are the calls at its searched places. -/
theorem dynamicTargets_itemsOf (d : Document) :
    Declaration.dynamicTargets (Declaration.ofItems (itemsOf d)) = d.importTargets d.searched := by
  rw [Declaration.dynamicTargets_ofItems, findings_itemsOf, targets_flatMap_findings]
  rfl

/-- The globals of a lowered module are the first uses at its searched places. -/
theorem isFirsts_globals_itemsOf (d : Document) :
    IsFirsts (d.globals d.searched) (Global.ofItems (itemsOf d)) := by
  have h := Global.isFirsts_ofItems (itemsOf d)
  rw [findings_itemsOf, among_flatMap_findings] at h
  exact h

/-- The child in a field stands between the other children. -/
theorem exists_children_eq {f : Field} {c : Tree} (h : t.child? f = some c) :
    ∃ before after, t.children = before ++ c :: after ∧
      t.children.eraseP (·.field == some f) = before ++ after := by
  obtain ⟨hc, before, after, heq, hbefore⟩ := List.find?_eq_some_iff_append.mp h
  refine ⟨before, after, heq, ?_⟩
  have hnot : ∀ b ∈ before, ¬ (b.field == some f) = true := fun b hb => by simpa using hbefore b hb
  rw [heq, List.eraseP_append_right _ hnot]
  exact congrArg (before ++ ·) (List.eraseP_cons_of_pos hc)

namespace Scope

theorem searched_sublist (s : Scope) (t : Tree) : (s.searched t).Sublist (t.places none) := by
  cases s with
  | nothing => exact List.nil_sublist _
  | whole => exact List.Sublist.refl _
  | field f =>
      have hchild : (t.child? f).toList.Sublist t.children := by
        cases hc : t.child? f with
        | none => exact List.nil_sublist _
        | some c => exact List.singleton_sublist.mpr (List.mem_of_find?_eq_some hc)
      rw [Tree.places_eq none t]
      exact (hchild.flatMap _).trans (List.sublist_cons_self _ _)

/-- Every place is searched or skipped. -/
theorem places_perm (s : Scope) (t : Tree) :
    (t.places none).Perm (s.searched t ++ s.skipped t) := by
  cases s with
  | nothing => exact List.Perm.refl _
  | whole => rw [searched, skipped, List.append_nil]
  | field f =>
      rw [Tree.places_eq none t, searched, skipped]
      cases hc : t.child? f with
      | none =>
          have hnone : ∀ c ∈ t.children, ¬ (c.field == some f) = true :=
            List.find?_eq_none.mp hc
          rw [List.eraseP_of_forall_not hnone]
          exact List.Perm.refl _
      | some c =>
          obtain ⟨before, after, heq, herase⟩ := exists_children_eq hc
          rw [herase, heq]
          have hpart : (some c).toList.flatMap (Tree.places (some t)) = c.places (some t) := by
            simp
          refine ((List.perm_middle.flatMap_right _).cons _).trans ?_
          rw [hpart, List.flatMap_cons]
          exact List.perm_middle.symm

end Scope

/-- Nothing is searched in a list of exports. -/
theorem exportScope_of_isExportList {c : Tree} (hc : c ∈ t.children)
    (hlist : isExportList c = true) : exportScope bytes t = .nothing := by
  have hfound : ∀ kind, c.kind = kind → (t.childOfKind? kind).isSome = true := by
    intro kind hkind
    exact List.find?_isSome.mpr ⟨c, hc, beq_iff_eq.mpr hkind⟩
  unfold exportScope
  rw [if_pos]
  rw [isExportList, Bool.or_eq_true, beq_iff_eq, beq_iff_eq] at hlist
  rcases hlist with hclause | hstar
  · rw [hfound _ hclause, Bool.or_true]
  · simp [isStarExport, hfound _ hstar]

/-- What is searched stands outside the list of an export statement. -/
theorem searched_sublist_unlistedPlaces (bytes : ByteArray) (t : Tree) :
    ((scopeOf bytes t).searched t).Sublist (unlistedPlaces t) := by
  by_cases hexport : t.kind = "export_statement"
  · by_cases hlist : ∃ c ∈ t.children, isExportList c = true
    · obtain ⟨c, hc, hlist⟩ := hlist
      have hscope : scopeOf bytes t = .nothing := by
        unfold scopeOf
        rw [exportScope_of_isExportList hc hlist, if_pos hexport, ite_self]
      rw [hscope]
      exact List.nil_sublist _
    · push Not at hlist
      have hall : (t.children.filter fun c => !isExportList c) = t.children :=
        List.filter_eq_self.mpr fun c hc => by simpa using hlist c hc
      rw [unlistedPlaces, if_pos hexport, hall, ← Tree.places_eq]
      exact Scope.searched_sublist _ t
  · rw [unlistedPlaces, if_neg hexport]
    exact Scope.searched_sublist _ t

namespace Document

theorem searched_sublist_places (d : Document) : d.searched.Sublist d.places := by
  apply List.Sublist.flatMap_right
  intro t _
  exact Scope.searched_sublist _ t

theorem searched_sublist_unlisted (d : Document) : d.searched.Sublist d.unlisted := by
  apply List.Sublist.flatMap_right
  intro t _
  exact searched_sublist_unlistedPlaces d.bytes t

theorem places_perm (d : Document) : d.places.Perm (d.searched ++ d.skipped) := by
  unfold places searched skipped
  apply List.Perm.trans _ (List.flatMap_append_perm _ _ _).symm
  apply List.Perm.flatMap_left
  intro t _
  exact Scope.places_perm _ t

/-- The calls at the searched places are all calls when none stands at a skipped one. -/
theorem importTargets_searched_eq_iff (d : Document) :
    d.importTargets d.searched = d.importTargets d.places ↔ d.importTargets d.skipped = [] := by
  have hperm : (d.importTargets d.places).Perm
      (d.importTargets d.searched ++ d.importTargets d.skipped) := by
    unfold importTargets
    rw [← List.filterMap_append]
    exact d.places_perm.filterMap _
  have hlength := hperm.length_eq
  rw [List.length_append] at hlength
  have hsub : (d.importTargets d.searched).Sublist (d.importTargets d.places) :=
    d.searched_sublist_places.filterMap _
  constructor
  · intro h
    rw [h] at hlength
    exact List.length_eq_zero_iff.mp (by omega)
  · intro h
    rw [h, List.length_nil, Nat.add_zero] at hlength
    exact hsub.eq_of_length hlength.symm

/-- The dynamic imports and the globals of a lowered module are those at its searched places,
none of which is searched twice or lies in an import statement or a list of exports. A place has
the target that a call of `import()` writes there, and the global that an identifier names there.
The imports are all calls of `import()` outside import statements exactly when none of them is
skipped, and the globals are all those used outside lists of exports exactly when the skipped
uses change no first occurrence. -/
theorem findings_exact (d : Document) :
    ((∀ (p : Place) (target : String),
          p.importTarget? d.bytes = some target ↔ p.Imports d.bytes target) ∧
        ∀ (p : Place) (g : Global), p.global? d.bytes = some g ↔ p.Uses d.bytes g) ∧
      (Declaration.dynamicTargets (Declaration.ofItems (itemsOf d)) = d.importTargets d.searched ∧
        IsFirsts (d.globals d.searched) (Global.ofItems (itemsOf d))) ∧
      (d.searched.Sublist d.places ∧ d.searched.Sublist d.unlisted) ∧
      (Declaration.dynamicTargets (Declaration.ofItems (itemsOf d)) = d.importTargets d.places ↔
        d.importTargets d.skipped = []) ∧
      (IsFirsts (d.globals d.unlisted) (Global.ofItems (itemsOf d)) ↔
        SameFirsts (d.globals d.unlisted) (d.globals d.searched)) := by
  have htargets := dynamicTargets_itemsOf d
  have hglobals := isFirsts_globals_itemsOf d
  refine ⟨⟨fun _ _ => Place.importTarget?_eq_some_iff, fun _ _ => Place.global?_eq_some_iff⟩,
    ⟨htargets, hglobals⟩, ⟨d.searched_sublist_places, d.searched_sublist_unlisted⟩, ?_,
    hglobals.iff_sameFirsts⟩
  rw [htargets]
  exact importTargets_searched_eq_iff d

/-- A decorator that uses `require` before `export`. -/
def decorated : Document where
  bytes := "@dec(require('d')) export class A {}".toUTF8
  tree := (Tree.ofPreorder? [
    (0, ⟨"program", true, none, 0, 36⟩),
    (1, ⟨"export_statement", true, none, 0, 36⟩),
    (2, ⟨"decorator", true, none, 0, 18⟩),
    (3, ⟨"@", false, none, 0, 1⟩),
    (3, ⟨"call_expression", true, none, 1, 18⟩),
    (4, ⟨"identifier", true, some .function, 1, 4⟩),
    (4, ⟨"arguments", true, some .arguments, 4, 18⟩),
    (5, ⟨"(", false, none, 4, 5⟩),
    (5, ⟨"call_expression", true, none, 5, 17⟩),
    (6, ⟨"identifier", true, some .function, 5, 12⟩),
    (6, ⟨"arguments", true, some .arguments, 12, 17⟩),
    (7, ⟨"(", false, none, 12, 13⟩),
    (7, ⟨"string", true, none, 13, 16⟩),
    (8, ⟨"'", false, none, 13, 14⟩),
    (8, ⟨"string_fragment", true, none, 14, 15⟩),
    (8, ⟨"'", false, none, 15, 16⟩),
    (7, ⟨")", false, none, 16, 17⟩),
    (5, ⟨")", false, none, 17, 18⟩),
    (2, ⟨"export", false, none, 19, 25⟩),
    (2, ⟨"class_declaration", true, some .declaration, 26, 36⟩),
    (3, ⟨"class", false, none, 26, 31⟩),
    (3, ⟨"type_identifier", true, some .name, 32, 33⟩),
    (3, ⟨"class_body", true, none, 34, 36⟩),
    (4, ⟨"\x7b", false, none, 34, 35⟩),
    (4, ⟨"\x7d", false, none, 35, 36⟩)]).getD default

/-- The use in the decorator is lost. -/
theorem not_isFirsts_globals_decorated :
    ¬ IsFirsts (decorated.globals decorated.unlisted) (Global.ofItems (itemsOf decorated)) := by
  intro h
  have hused : Global.require ∈ decorated.globals decorated.unlisted := by decide +kernel
  have hsearched : Global.require ∉ decorated.globals decorated.searched := by decide +kernel
  exact hsearched
    (((isFirsts_globals_itemsOf decorated).mem_iff _).mp ((h.mem_iff _).mpr hused))

end Document

end ModuleGraph.Source
