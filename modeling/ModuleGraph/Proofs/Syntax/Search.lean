import ModuleGraph.Syntax.Finding

/-!
# The search with pending parts

Main statement: `run_eq`. The search that keeps a list of the parts still to visit finds what
the parts contain, one after the other.

## Implementation notes

The induction is on the visits. Each of them finds what a part is by itself and puts what it
contains before the other pending parts, so the findings of the pending parts never change
but for those already kept.
-/

namespace ModuleGraph

theorem Statement.findingsOfList_eq_flatMap (ss : List Statement) :
    Statement.findingsOfList ss = ss.flatMap Statement.findings := by
  induction ss with
  | nil => rfl
  | cons s rest ih => rw [Statement.findingsOfList, List.flatMap_cons, ih]

theorem Expression.findingsOfList_eq_flatMap (es : List Expression) :
    Expression.findingsOfList es = es.flatMap Expression.findings := by
  induction es with
  | nil => rfl
  | cons e rest ih => rw [Expression.findingsOfList, List.flatMap_cons, ih]

namespace Search

/-- What a part is or contains. -/
def findings : Search → List Finding
  | .statement s => s.findings
  | .expression e => e.findings

theorem flatMap_findings_statements (ss : List Statement) :
    (ss.map .statement).flatMap findings = Statement.findingsOfList ss := by
  rw [List.flatMap_map, Statement.findingsOfList_eq_flatMap]
  rfl

theorem flatMap_findings_expressions (es : List Expression) :
    (es.map .expression).flatMap findings = Expression.findingsOfList es := by
  rw [List.flatMap_map, Expression.findingsOfList_eq_flatMap]
  rfl

/-- What a part is by itself comes before all it contains. -/
theorem findings_eq (p : Search) : p.findings = p.own ++ p.parts.flatMap findings := by
  cases p with
  | statement s =>
      cases s with
      | expression e => simp [findings, own, parts, Statement.findings]
      | block body =>
          rw [parts, flatMap_findings_statements]
          rfl
      | attempt block handler finalizer =>
          rw [parts, flatMap_findings_statements]
          simp [findings, own, Statement.findings, Statement.findingsOfList_eq_flatMap]
      | other body expressions =>
          rw [parts, List.flatMap_append, flatMap_findings_expressions,
            flatMap_findings_statements]
          rfl
  | expression e =>
      cases e with
      | importCall source options =>
          cases options <;>
            simp [findings, own, parts, Expression.own, Expression.findings,
              Expression.findingsOfOption]
      | literal value => rfl
      | await inner => simp [findings, own, parts, Expression.own, Expression.findings]
      | body statements =>
          rw [parts, flatMap_findings_statements]
          rfl
      | commonJS g => rfl
      | other parts =>
          rw [Search.parts, flatMap_findings_expressions]
          rfl

theorem visit_eq (pending : List Search) (found : List Finding) :
    visit pending found = (pending.flatMap findings).reverse ++ found := by
  induction pending, found using visit.induct with
  | case1 found => rw [visit, List.flatMap_nil, List.reverse_nil, List.nil_append]
  | case2 found p rest ih =>
      rw [visit, ih, List.flatMap_append, List.flatMap_cons, findings_eq p]
      simp only [List.reverse_append, List.append_assoc]

/-- The search finds what the parts contain, in order. -/
theorem run_eq (pending : List Search) : run pending = pending.flatMap findings := by
  rw [run, visit_eq, List.append_nil, List.reverse_reverse]

theorem run_statements (ss : List Statement) :
    run (ss.map .statement) = Statement.findingsOfList ss := by
  rw [run_eq, flatMap_findings_statements]

end Search

end ModuleGraph
