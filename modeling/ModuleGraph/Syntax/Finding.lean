import ModuleGraph.Syntax.Item

/-!
# What statements are searched for

Two things are looked for in statements: calls of `import()` whose target is written out, and
CommonJS globals. `Statement.findings` says which there are and in which order; `Search.run`
finds the same with a list of parts still to visit.

## Implementation notes

A call comes before what its computed source and its options contain; the expressions of a
statement come before the statements nested in it. The search keeps its pending parts in a
list, so that it needs no room that grows with the nesting of the source text.
-/

namespace ModuleGraph

/-- Something found in a statement. -/
inductive Finding
  /-- A call of `import()` with its target. -/
  | importCall (target : String)
  | global (g : Global)
deriving DecidableEq, Inhabited, Repr

/-- The text of a literal. -/
def Expression.literal? : Expression → Option String
  | .literal value => some value
  | _ => none

/-- What an expression itself is, apart from its parts. -/
def Expression.own : Expression → List Finding
  | .importCall source _ => source.literal?.toList.map .importCall
  | .commonJS g => [.global g]
  | _ => []

mutual

/-- What a statement contains, in order. -/
def Statement.findings : Statement → List Finding
  | .expression e => e.findings
  | .block body => Statement.findingsOfList body
  | .attempt block handler finalizer =>
    Statement.findingsOfList block ++ Statement.findingsOfList handler ++
      Statement.findingsOfList finalizer
  | .other body expressions =>
    Expression.findingsOfList expressions ++ Statement.findingsOfList body

/-- What an expression is or contains, in order. -/
def Expression.findings : Expression → List Finding
  | .importCall source options =>
    source.literal?.toList.map .importCall ++ source.findings ++
      Expression.findingsOfOption options
  | .literal _ => []
  | .await inner => inner.findings
  | .body statements => Statement.findingsOfList statements
  | .commonJS g => [.global g]
  | .other parts => Expression.findingsOfList parts

/-- What statements contain, one after the other. -/
def Statement.findingsOfList : List Statement → List Finding
  | [] => []
  | s :: rest => s.findings ++ Statement.findingsOfList rest

/-- What expressions contain, one after the other. -/
def Expression.findingsOfList : List Expression → List Finding
  | [] => []
  | e :: rest => e.findings ++ Expression.findingsOfList rest

/-- What an expression contains if it is there. -/
def Expression.findingsOfOption : Option Expression → List Finding
  | none => []
  | some e => e.findings

end

mutual

/-- The number of statements and expressions in a statement, itself included. -/
def Statement.size : Statement → Nat
  | .expression e => e.size + 1
  | .block body => Statement.sizeOfList body + 1
  | .attempt block handler finalizer =>
    Statement.sizeOfList block + Statement.sizeOfList handler +
      Statement.sizeOfList finalizer + 1
  | .other body expressions =>
    Expression.sizeOfList expressions + Statement.sizeOfList body + 1

/-- The number of statements and expressions in an expression, itself included. -/
def Expression.size : Expression → Nat
  | .importCall source options => source.size + Expression.sizeOfOption options + 1
  | .literal _ => 1
  | .await inner => inner.size + 1
  | .body statements => Statement.sizeOfList statements + 1
  | .commonJS _ => 1
  | .other parts => Expression.sizeOfList parts + 1

/-- The size of all statements of a list. -/
def Statement.sizeOfList : List Statement → Nat
  | [] => 0
  | s :: rest => s.size + Statement.sizeOfList rest

/-- The size of all expressions of a list. -/
def Expression.sizeOfList : List Expression → Nat
  | [] => 0
  | e :: rest => e.size + Expression.sizeOfList rest

/-- The size of an expression that may be missing. -/
def Expression.sizeOfOption : Option Expression → Nat
  | none => 0
  | some e => e.size

end

/-- A part of a module that is still to be searched. -/
inductive Search
  | statement (s : Statement)
  | expression (e : Expression)

namespace Search

/-- The size of a part. -/
def size : Search → Nat
  | .statement s => s.size
  | .expression e => e.size

/-- The size of all parts of a list. -/
def total : List Search → Nat
  | [] => 0
  | p :: rest => p.size + total rest

/-- What a part is, apart from what it contains. -/
def own : Search → List Finding
  | .statement _ => []
  | .expression e => e.own

/-- What a part contains, in the order in which it is visited. -/
def parts : Search → List Search
  | .statement (.expression e) => [.expression e]
  | .statement (.block body) => body.map .statement
  | .statement (.attempt block handler finalizer) =>
    (block ++ handler ++ finalizer).map .statement
  | .statement (.other body expressions) => expressions.map .expression ++ body.map .statement
  | .expression (.importCall source options) =>
    .expression source :: options.toList.map .expression
  | .expression (.literal _) => []
  | .expression (.await inner) => [.expression inner]
  | .expression (.body statements) => statements.map .statement
  | .expression (.commonJS _) => []
  | .expression (.other parts) => parts.map .expression

theorem total_append (xs ys : List Search) : total (xs ++ ys) = total xs + total ys := by
  induction xs with
  | nil => rw [List.nil_append, total, Nat.zero_add]
  | cons p rest ih => rw [List.cons_append, total, total, ih, Nat.add_assoc]

theorem total_statements (ss : List Statement) :
    total (ss.map .statement) = Statement.sizeOfList ss := by
  induction ss with
  | nil => rfl
  | cons s rest ih => rw [List.map_cons, total, ih, Statement.sizeOfList, size]

theorem total_expressions (es : List Expression) :
    total (es.map .expression) = Expression.sizeOfList es := by
  induction es with
  | nil => rfl
  | cons e rest ih => rw [List.map_cons, total, ih, Expression.sizeOfList, size]

theorem total_option (e : Option Expression) :
    total (e.toList.map .expression) = Expression.sizeOfOption e := by
  cases e <;> rfl

/-- A part is larger than all it contains. -/
theorem total_parts_lt (p : Search) : total p.parts < p.size := by
  cases p with
  | statement s =>
    cases s with
    | expression e => simp only [parts, size, Statement.size, total]; omega
    | block body => simp only [parts, size, Statement.size, total_statements]; omega
    | attempt block handler finalizer =>
      simp only [parts, size, Statement.size, List.map_append, total_append, total_statements]
      omega
    | other body expressions =>
      simp only [parts, size, Statement.size, total_append, total_statements, total_expressions]
      omega
  | expression e =>
    cases e with
    | importCall source options =>
      simp only [parts, size, Expression.size, total, total_option]
      omega
    | literal value => simp only [parts, size, Expression.size, total]; omega
    | await inner => simp only [parts, size, Expression.size, total]; omega
    | body statements => simp only [parts, size, Expression.size, total_statements]; omega
    | commonJS g => simp only [parts, size, Expression.size, total]; omega
    | other es => simp only [parts, size, Expression.size, total_expressions]; omega

/-- Visits the pending parts and keeps what it finds, latest first. -/
def visit (pending : List Search) (found : List Finding) : List Finding :=
  match pending with
  | [] => found
  | p :: rest => visit (p.parts ++ rest) (p.own.reverse ++ found)
termination_by total pending
decreasing_by
  have h := total_parts_lt p
  rw [total_append, total]
  omega

/-- What the parts contain, in order. -/
def run (pending : List Search) : List Finding := (visit pending []).reverse

end Search

end ModuleGraph
