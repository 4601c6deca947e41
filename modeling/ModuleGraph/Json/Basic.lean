/-!
# JSON values

The values that reports are written as and that package and compiler settings are read from.
The members of an object keep their order, since reports show it and since the conditions of
a package are tried in it.
-/

namespace ModuleGraph

/-- A JSON value. A number is kept as it is written. -/
inductive Json
  | null
  | bool (value : Bool)
  | number (text : String)
  | string (value : String)
  | array (items : List Json)
  | object (members : List (String × Json))
deriving Inhabited, Repr

namespace Json

/-- The number `n` in decimal digits. -/
def ofNat (n : Nat) : Json := .number (toString n)

/-- The items of `xs`, each written by `f`. -/
def ofList {α : Type} (f : α → Json) (xs : List α) : Json := .array (xs.map f)

/-- What is there, or null. -/
def ofOption {α : Type} (f : α → Json) (x : Option α) : Json := x.elim .null f

/-- The text of a string. -/
def string? : Json → Option String
  | .string s => some s
  | _ => none

/-- The items of an array. -/
def array? : Json → Option (List Json)
  | .array items => some items
  | _ => none

/-- The members of an object. -/
def object? : Json → Option (List (String × Json))
  | .object members => some members
  | _ => none

/-- The value under a key of an object. -/
def get? (j : Json) (key : String) : Option Json :=
  j.object?.bind fun members => (members.find? (·.1 == key)).map (·.2)

/-- The members with `value` under `key`: in its old place if the key is there, and otherwise
at the end. -/
def setMember {α : Type} (members : List (String × α)) (key : String) (value : α) :
    List (String × α) :=
  if members.any (·.1 == key) then
    members.map fun m => if m.1 == key then (m.1, value) else m
  else members ++ [(key, value)]

/-- Setting a member leaves the keys as they are, apart from a new one at the end. -/
theorem keys_setMember {α : Type} (members : List (String × α)) (key : String) (value : α) :
    (setMember members key value).map (·.1) =
      members.map (·.1) ++ if members.any (·.1 == key) then [] else [key] := by
  unfold setMember
  split <;> simp_all [Function.comp_def]
  intro a b _
  split <;> simp_all

/-- The members that remain if the later of two with one key takes the place of the earlier. -/
def mergeMembers {α : Type} (members : List (String × α)) : List (String × α) :=
  members.foldl (fun merged m => setMember merged m.1 m.2) []

end Json

end ModuleGraph
