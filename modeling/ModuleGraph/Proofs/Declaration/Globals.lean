import ModuleGraph.Proofs.Declaration.Found
import ModuleGraph.Proofs.Declaration.Preorder

/-!
# The CommonJS globals of a module

Main statement: `ofItems_eq_firsts`. The globals of a module are the uses that the recursion over
the trees of its items meets, in preorder, each global once and where it is first used. Import
declarations, star exports and lists of exports add nothing.

## Implementation notes

`Global.ofItems` collects the uses of all items before it drops the repeated ones.
`Search.record` drops a repeated use at the visit that meets it, and hands what it has seen
from one item to the next. One visit records what the part is by itself and leaves what it
contains pending, so the uses still to come are those of the pending parts throughout.
-/

namespace ModuleGraph

/-- The global that an expression is. -/
def Expression.global? : Expression → Option Global
  | .commonJS g => some g
  | _ => none

/-- The uses of globals in an item, in preorder. -/
def Item.globals (item : Item) : List Global := item.expressions.filterMap Expression.global?

/-- The item is a statement, or an export of what it declares. -/
def Item.isSearched : Item → Bool
  | .statement _ => true
  | .exporting (.declaration ..) => true
  | _ => false

/-- Visits the pending parts and records every global that it meets. -/
def Search.record (pending : List Search) (seen : List Global) : List Global :=
  match pending with
  | [] => seen
  | p :: rest => record (p.parts ++ rest) ((Global.among p.own).foldl Global.record seen)
termination_by Search.total pending
decreasing_by
  have h := Search.total_parts_lt p
  rw [Search.total_append, Search.total]
  omega

namespace Global

theorem among_append (found more : List Finding) :
    among (found ++ more) = among found ++ among more :=
  List.filterMap_append

theorem among_own (e : Expression) : among e.own = e.global?.toList := by
  cases e with
  | importCall source options => cases source <;> rfl
  | _ => rfl

/-- The globals that are found in expressions are the expressions that are globals, in order. -/
theorem among_flatMap_own (es : List Expression) :
    among (es.flatMap Expression.own) = es.filterMap Expression.global? := by
  induction es with
  | nil => rfl
  | cons e rest ih =>
      rw [List.flatMap_cons, among_append, among_own, ih, List.filterMap_cons]
      cases e.global? <;> rfl

/-- What is found in an item are the uses of globals that the recursion meets. -/
theorem among_findings (item : Item) : among item.findings = item.globals := by
  have hlist : item.expressions = Statement.expressionsOfList item.searched := by
    cases item with
    | importing item => rfl
    | exporting item => cases item <;> rfl
    | statement s => exact (List.append_nil _).symm
  rw [Item.findings, Statement.findingsOfList_eq_own, among_flatMap_own, Item.globals, hlist]

theorem among_flatMap_findings (items : List Item) :
    among (items.flatMap Item.findings) = items.flatMap Item.globals := by
  rw [among, List.filterMap_flatMap]
  apply List.flatMap_congr
  intro item _
  exact among_findings item

/-- Recording uses one by one keeps the first of each. -/
theorem foldl_record_eq_eraseDups (uses : List Global) :
    uses.foldl record [] = uses.eraseDups := by
  induction uses using List.reverseRecOn with
  | nil => rfl
  | append_singleton uses g ih =>
      rw [List.foldl_append, List.foldl_cons, List.foldl_nil, ih, List.eraseDups_append, record]
      by_cases hg : g ∈ uses
      · have hnone : [g].removeAll uses = [] := by simp [List.removeAll, hg]
        rw [if_pos (List.mem_eraseDups.mpr hg), hnone, List.eraseDups_nil, List.append_nil]
      · have hone : [g].removeAll uses = [g] := by simp [List.removeAll, hg]
        rw [if_neg (mt List.mem_eraseDups.mp hg), hone]
        rfl

theorem globals_eq_nil_of_not_isSearched {item : Item} (h : item.isSearched = false) :
    item.globals = [] := by
  cases item with
  | importing item => rfl
  | exporting item =>
      cases item with
      | all source name typeOnly => rfl
      | named source entries typeOnly => rfl
      | declaration names typeOnly body => cases h
  | statement s => cases h

/-- Items that are not searched can be left out. -/
theorem flatMap_globals_filter (items : List Item) :
    (items.filter Item.isSearched).flatMap Item.globals = items.flatMap Item.globals := by
  induction items with
  | nil => rfl
  | cons item rest ih =>
      rw [List.flatMap_cons, ← ih]
      cases h : item.isSearched with
      | true => rw [List.filter_cons_of_pos h, List.flatMap_cons]
      | false =>
          rw [List.filter_cons_of_neg (by simp [h]), globals_eq_nil_of_not_isSearched h,
            List.nil_append]

end Global

namespace Search

open Global (among)

/-- The search records the globals of the pending parts in preorder. -/
theorem record_eq (pending : List Search) (seen : List Global) :
    record pending seen = (among (pending.flatMap findings)).foldl Global.record seen := by
  induction pending, seen using record.induct with
  | case1 seen => rw [record]; rfl
  | case2 seen p rest ih =>
      rw [record, ih, List.flatMap_append, List.flatMap_cons, findings_eq p]
      simp only [Global.among_append, List.foldl_append]

/-- One search after the other, each with what those before have seen, records the globals of
all items. -/
theorem foldl_record_eq (items : List Item) (seen : List Global) :
    items.foldl (fun seen item => record (item.searched.map .statement) seen) seen =
      (items.flatMap Item.globals).foldl Global.record seen := by
  induction items generalizing seen with
  | nil => rfl
  | cons item rest ih =>
      rw [List.foldl_cons, ih, List.flatMap_cons, List.foldl_append, record_eq,
        flatMap_findings_statements]
      exact congrArg (fun uses => (rest.flatMap Item.globals).foldl Global.record
        (uses.foldl Global.record seen)) (Global.among_findings item)

end Search

namespace Global

theorem ofItems_eq_foldl (items : List Item) :
    ofItems items = (items.flatMap Item.globals).foldl record [] := by
  rw [ofItems_eq_foldl_findings, among_flatMap_findings]

/-- The globals of a module are the uses that the recursion over its items meets in preorder,
each once and in the order of their first occurrence over all items. They are recorded alike
when every item is searched with what the items before it have shown, and items that are
neither statements nor exports of what they declare can be left out. -/
theorem ofItems_eq_firsts (items : List Item) :
    ofItems items = (items.flatMap Item.globals).eraseDups ∧
    IsFirsts (items.flatMap Item.globals) (ofItems items) ∧
    (ofItems items).Nodup ∧
    ofItems items =
      items.foldl (fun seen item => Search.record (item.searched.map .statement) seen) [] ∧
    ofItems items = ofItems (items.filter Item.isSearched) := by
  have hfirsts : IsFirsts (items.flatMap Item.globals) (ofItems items) := by
    rw [← among_flatMap_findings]
    exact isFirsts_ofItems items
  refine ⟨?_, hfirsts, hfirsts.nodup, ?_, ?_⟩
  · rw [ofItems_eq_foldl, foldl_record_eq_eraseDups]
  · rw [ofItems_eq_foldl, Search.foldl_record_eq]
  · rw [ofItems_eq_foldl, ofItems_eq_foldl, flatMap_globals_filter]

/-- A global in the source of a call comes before one in its options, and a use in a later
item adds nothing when an earlier one has it. -/
example :
    ofItems [.exporting (.all "./a" none false),
      .statement (.expression (.importCall (.commonJS .dirname) (some (.commonJS .require)))),
      .exporting (.declaration [] false [.block [.expression (.commonJS .dirname)]])] =
      [.dirname, .require] := by
  rw [ofItems_eq_foldl]
  decide

end Global

end ModuleGraph
