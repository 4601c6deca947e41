import ModuleGraph.Declaration.Basic
import ModuleGraph.Proofs.Firsts
import ModuleGraph.Proofs.Syntax.Search

/-!
# What is found in items

Main statements: `Declaration.dynamicTargets_ofItems` and `Global.isFirsts_ofItems`. The
dynamic imports of a module are the calls that are found in the searched statements of its
items, and its CommonJS globals are the first uses among what is found there.
-/

namespace ModuleGraph

/-- What is found in the searched statements of an item. -/
def Item.findings (item : Item) : List Finding := Statement.findingsOfList item.searched

namespace Declaration

/-- The target of a dynamic import. -/
def dynamicTarget? : Declaration → Option String
  | .importing d => if d.dynamic then some d.source else none
  | .exporting _ => none

/-- The targets of the dynamic imports, in order. -/
def dynamicTargets (ds : List Declaration) : List String := ds.filterMap dynamicTarget?

theorem dynamicTargets_map_ofCall (found : List String) :
    dynamicTargets (found.map ofCall) = found := by
  have hcall : dynamicTarget? ∘ ofCall = some := rfl
  rw [dynamicTargets, List.filterMap_map, hcall, List.filterMap_some]

theorem dynamicTargets_ofItem (item : Item) :
    dynamicTargets (ofItem item) = targets item.findings := by
  have hbody : ∀ body, dynamicTargets (ofStatements body) =
      targets (Statement.findingsOfList body) := by
    intro body
    rw [ofStatements, dynamicTargets_map_ofCall, Search.run_statements]
  cases item with
  | importing item => rfl
  | exporting item =>
      cases item with
      | all source name typeOnly => rfl
      | named source entries typeOnly => rfl
      | declaration names typeOnly body => exact hbody body
  | statement s => exact hbody [s]

/-- The dynamic imports of a module are the calls found in its items. -/
theorem dynamicTargets_ofItems (items : List Item) :
    dynamicTargets (ofItems items) = targets (items.flatMap Item.findings) := by
  rw [dynamicTargets, ofItems, targets, List.filterMap_flatMap, List.filterMap_flatMap]
  apply List.flatMap_congr
  intro item _
  exact dynamicTargets_ofItem item

end Declaration

namespace Global

theorem isFirsts_record {uses gs : List Global} (h : IsFirsts uses gs) (g : Global) :
    IsFirsts (uses ++ [g]) (record gs g) := by
  unfold record
  split
  · exact h.append_of_mem ‹_›
  · exact h.append_of_not_mem ‹_›

theorem isFirsts_foldl_record {uses gs : List Global} (h : IsFirsts uses gs)
    (more : List Global) : IsFirsts (uses ++ more) (more.foldl record gs) := by
  induction more generalizing uses gs with
  | nil => simpa using h
  | cons g rest ih =>
      rw [List.foldl_cons, List.append_cons]
      exact ih (isFirsts_record h g)

/-- The globals of a module are what is found in its items, recorded one by one. -/
theorem ofItems_eq_foldl_findings (items : List Item) :
    ofItems items = (among (items.flatMap Item.findings)).foldl record [] := by
  have hfound : items.flatMap (fun item => among (Search.run (item.searched.map .statement))) =
      among (items.flatMap Item.findings) := by
    rw [among, List.filterMap_flatMap]
    apply List.flatMap_congr
    intro item _
    rw [Search.run_statements]
    rfl
  rw [ofItems, hfound]

/-- The globals of a module are the first uses found in its items. -/
theorem isFirsts_ofItems (items : List Item) :
    IsFirsts (among (items.flatMap Item.findings)) (ofItems items) := by
  rw [ofItems_eq_foldl_findings]
  exact isFirsts_foldl_record IsFirsts.nil _

end Global

end ModuleGraph
