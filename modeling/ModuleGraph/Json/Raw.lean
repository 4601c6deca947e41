import ModuleGraph.Json.Basic
import ModuleGraph.Json.Number

/-!
# JSON values as they are written

A text can be well formed and still have parts that no value can hold: a string with a
surrogate that stands alone, a number that is out of range, containers that are nested too
deeply. Such parts do no harm where nobody looks at them, so the raw value keeps a place for
them. It keeps all members of an object, also those with the same key.
-/

namespace ModuleGraph.Json

/-- A value as it is written. A string that cannot be held has no text. -/
inductive Raw
  | null
  | bool (value : Bool)
  | number (text : String)
  | string (text : Option String)
  | array (items : List Raw)
  | object (members : List (Option String × Raw))
deriving Inhabited, Repr

namespace Raw

/-- The text of a string. -/
def string? : Raw → Option String
  | .string text => text
  | _ => none

/-- The items of an array. -/
def array? : Raw → Option (List Raw)
  | .array items => some items
  | _ => none

/-- The members of an object, if all keys can be held. -/
def object? : Raw → Option (List (String × Raw))
  | .object members => members.mapM fun m => m.1.map (·, m.2)
  | _ => none

/-- The number of containers a value may stand in. -/
def deepest : Nat := 127

mutual

/-- The value, with at most `depth` containers around one another in it. -/
def value? (depth : Nat) : Raw → Option Json
  | .null => some .null
  | .bool b => some (.bool b)
  | .number text =>
    if (Decimal.parse? text.toList).any Decimal.isFinite then some (.number text) else none
  | .string text => text.map .string
  | .array items => if depth = 0 then none else (values? (depth - 1) items).map .array
  | .object members =>
    if depth = 0 then none
    else (members? (depth - 1) members).map fun ms => .object (mergeMembers ms)

/-- The values of items. -/
def values? (depth : Nat) : List Raw → Option (List Json)
  | [] => some []
  | item :: rest =>
    (value? depth item).bind fun v => (values? depth rest).map fun vs => v :: vs

/-- The values of members with their keys. -/
def members? (depth : Nat) : List (Option String × Raw) → Option (List (String × Json))
  | [] => some []
  | (key, item) :: rest =>
    key.bind fun k =>
      (value? depth item).bind fun v => (members? depth rest).map fun vs => (k, v) :: vs

end

/-- What a record has under each of its names. A record is written as an object with the
names as keys, none of them twice, or as an array with the values in the order of the names,
of which it has `least` or more. -/
def fields? (names : List String) (least : Nat) : Raw → Option (List (Option Raw))
  | .array items =>
    if least ≤ items.length && items.length ≤ names.length then
      some ((List.range names.length).map fun n => items[n]?)
    else none
  | r =>
    r.object?.bind fun members =>
      names.mapM fun name =>
        match members.filter (·.1 == name) with
        | [] => some none
        | [m] => some (some m.2)
        | _ => none

end Raw

end ModuleGraph.Json
