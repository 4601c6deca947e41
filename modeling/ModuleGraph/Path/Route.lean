import ModuleGraph.Path.Basic

/-!
# Routes between directories

A route is what remains of a list of segments once every `.` is left out and every `..` has
taken back the name before it: some climbs out of the directory where it starts, then names.
A `..` that finds no name to take back stays as a climb, also at the root.

## Implementation notes

A route keeps its climbs as a number and only its names as texts, so that no `..` can stand
after a name. The roots of paths are left out: routes are compared only when they start in the
same directory.
-/

namespace ModuleGraph

/-- Climb `ups` directories, then go down through `names`. -/
structure Route where
  ups : Nat
  names : List String
deriving DecidableEq, Inhabited, Repr

namespace Route

/-- The route that stays where it is. -/
def stay : Route := ⟨0, []⟩

/-- One more segment: an idle one changes nothing, a climb takes back the last name or climbs
further, and any other segment is a name to go down into. -/
def step (r : Route) (s : String) : Route :=
  if Path.isIdle s then r
  else if s = ".." then
    if r.names = [] then ⟨r.ups + 1, []⟩ else ⟨r.ups, r.names.dropLast⟩
  else ⟨r.ups, r.names ++ [s]⟩

/-- The segments of `segs`, one after the other. -/
def follow (r : Route) (segs : List String) : Route := segs.foldl step r

/-- The segments of a route: its climbs, then its names. -/
def segments (r : Route) : List String := List.replicate r.ups ".." ++ r.names

/-- How many names two lists have in common at their beginning. -/
def sharedLength : List String → List String → Nat
  | a :: as, b :: bs => if a = b then sharedLength as bs + 1 else 0
  | _, _ => 0

/-- The way from `base` to `target`: out of the directories that only `base` is in, then down
into those that only `target` is in. A target that climbs further than `base` shares no name
with it. -/
def relativeTo (base target : Route) : Route :=
  if base.ups = target.ups then
    let shared := sharedLength base.names target.names
    ⟨base.names.length - shared, target.names.drop shared⟩
  else ⟨base.names.length + (target.ups - base.ups), target.names⟩

/-- The canonical spelling of a route: `./`, or one `../` for each climb, then the names with
slashes between them. -/
def render (r : Route) : String :=
  (if r.ups = 0 then "./" else String.join (List.replicate r.ups "../")) ++ Text.join '/' r.names

@[simp] theorem follow_nil (r : Route) : r.follow [] = r := rfl

@[simp] theorem follow_cons (r : Route) (s : String) (segs : List String) :
    r.follow (s :: segs) = (r.step s).follow segs := rfl

theorem follow_append (r : Route) (xs ys : List String) :
    r.follow (xs ++ ys) = (r.follow xs).follow ys := by
  simp [follow, List.foldl_append]

end Route

namespace Path

/-- The route a path describes, from the root or from where it is read. -/
def route (p : Path) : Route := Route.stay.follow p.segments

end Path

end ModuleGraph
