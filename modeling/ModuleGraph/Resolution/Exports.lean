import ModuleGraph.Resolution.Lookup
import ModuleGraph.Text.Ascii

/-!
# What packages offer

A package description may say which paths of the package can be named from outside, and give
names for use inside it. The target of a name is a path in the package; it may hang on
conditions, of which the first that holds and leads somewhere counts, and one name may stand
for many by a star in it.

## Implementation notes

Among several names with a star the one with the longest text before the star is meant, and of
those of equal length the longest.
-/

namespace ModuleGraph.Resolution

/-- What is known when a target is followed. -/
structure TargetContext where
  /-- The directory of the package. -/
  directory : Path
  /-- The name under which the target stands. -/
  key : String
  /-- What the star of the name stands for, if the name has been matched by one. -/
  star : Option String
  conditions : List String
  /-- How targets outside of the package are found, if they are allowed. -/
  outside : Option (String → Search)

namespace TargetContext

variable (c : TargetContext)

/-- The target with its stars filled in. A name that ends in a slash stands for all below it,
and so must its target. -/
def filled (target : String) : Except Stop String :=
  match c.star with
  | none => .ok target
  | some text =>
    if c.key.toList.contains '*' || target.toList.contains '*' then
      .ok (Text.replaceChar '*' text target)
    else if Text.hasSuffix "/" c.key && Text.hasSuffix "/" target then .ok (target ++ text)
    else .error .refused

/-- A step that targets do not take: out of a directory, into installed packages, or, after
the first one, nowhere. -/
def isForbidden : Component → Bool
  | .up => true
  | .name s => Text.lower s = "node_modules"
  | _ => false

/-- The path of a target inside the package. -/
def inside (target : String) : Search :=
  (c.filled target).bind fun text =>
    if (Path.components ⟨text⟩).any isForbidden then .error .refused
    else .ok (some (c.directory.goTo text))

/-- The path of a target that is a text. -/
def ofText (target : String) : Search :=
  if Text.hasPrefix "./" target then c.inside target
  else
    match c.outside with
    | none => .error .refused
    | some find =>
      if Text.hasPrefix "../" target || Text.hasPrefix "/" target then .error .refused
      else (c.filled target).bind find

/-- The condition holds. -/
def holds (condition : String) : Bool :=
  condition == "default" || c.conditions.contains condition

mutual

/-- The path that a target leads to. -/
def follow : Json → Search
  | .string target => c.ofText target
  | .object members => followMembers members
  | .array items => if items.isEmpty then .error .refused else .ok (followItems items)
  | _ => .ok none

/-- The path of the first condition that holds and leads somewhere. -/
def followMembers : List (String × Json) → Search
  | [] => .ok none
  | (condition, target) :: rest =>
    if c.holds condition then
      match follow target with
      | .ok none => followMembers rest
      | found => found
    else followMembers rest

/-- The path of the first target that leads somewhere; targets at fault do not count. -/
def followItems : List Json → Option Path
  | [] => none
  | target :: rest =>
    match follow target with
    | .ok (some p) => some p
    | _ => followItems rest

end

end TargetContext

/-- The length of a name: in characters up to its star, or of all of it in bytes. -/
def baseLength (key : String) : Nat :=
  if key.toList.contains '*' then (key.toList.takeWhile (· != '*')).length + 1
  else key.utf8ByteSize

/-- The name `b` is meant rather than `a`. -/
def isBetter (a b : String) : Bool :=
  let stars (s : String) := s.toList.contains '*'
  if baseLength a = baseLength b then
    !stars a || (stars b && a.utf8ByteSize < b.utf8ByteSize)
  else baseLength a < baseLength b

/-- What the star of `key` stands for in `name`, or what follows a `key` that ends in a
slash. -/
def starOf? (key name : String) : Option String :=
  if Text.hasPrefix "./" key || Text.hasPrefix "#" key then
    match Text.cutFirst '*' key with
    | some (before, after) =>
      if Text.hasPrefix before name && !after.toList.contains '*' &&
          (after = "" ||
            (key.utf8ByteSize ≤ name.utf8ByteSize && Text.hasSuffix after name)) then
        some (String.ofList
          ((name.toList.drop before.length).take (name.length - before.length - after.length)))
      else none
    | none => if Text.hasSuffix "/" key then Text.afterPrefix? key name else none
  else none

/-- A name with a star, its target, and what the star stands for. -/
structure StarMatch where
  key : String
  target : Json
  star : String

/-- The best match among the members for a name. -/
def bestMatch? (members : List (String × Json)) (name : String) : Option StarMatch :=
  members.foldl
    (fun best m =>
      match starOf? m.1 name with
      | none => best
      | some star =>
        if best.all fun b => isBetter b.key m.1 then some ⟨m.1, m.2, star⟩ else best)
    none

/-- What a name leads to among the members of a package description. A name that ends in a
slash leads nowhere. -/
def followName (context : TargetContext) (members : List (String × Json)) (name : String) :
    Search :=
  if Text.hasSuffix "/" name then .ok none
  else
    let exact :=
      if name.toList.contains '*' then none else (members.find? (·.1 == name)).map (·.2)
    match exact with
    | some target => { context with key := name, star := none }.follow target
    | none =>
      match bestMatch? members name with
      | none => .ok none
      | some m => { context with key := m.key, star := some m.star }.follow m.target

/-- The key is the name of something a package offers, and not a condition. -/
def isOffer (key : String) : Bool := Text.hasPrefix "." key || Text.hasPrefix "#" key

/-- What stands for the package itself in what it offers. -/
def mainOffer? (exports : Json) : Option Json :=
  match exports with
  | .string _ => some exports
  | .array _ => some exports
  | .object members =>
    match (members.find? (·.1 == ".")).map (·.2) with
    | some target => some target
    | none =>
      if members.any fun m => Text.hasPrefix "./" m.1 || Text.hasPrefix "#" m.1 then none
      else some exports
  | _ => none

/-- What a package in `directory` offers under `name`, which is `.` for the package itself and
else begins with `./`. Names and conditions do not stand side by side. What is not offered is
refused, and so is the package itself if it is asked for with a query. -/
def followExports (conditions : List String) (directory : Path) (exports : Json) (name : String)
    (queried : Bool) : Search :=
  let context : TargetContext := ⟨directory, ".", none, conditions, none⟩
  let members := exports.object?.getD []
  if members.any (fun m => isOffer m.1) && members.any (fun m => !isOffer m.1) then
    .error .refused
  else if name = "." && queried then .error .refused
  else
    let main : Search :=
      if name = "." then ((mainOffer? exports).map context.follow).getD (.ok none) else .ok none
    (main.orElse fun _ => followName context members name).orElse fun _ => .error .refused

end ModuleGraph.Resolution
