import ModuleGraph.Path.Basic

/-!
# Trails

A relative text is read from a directory one step at a time. The trail is what has been
written so far, and beside it stands how many names at its end may still be taken back: a
climb takes back the last name while there is one and is written down otherwise, also at the
root.

## Implementation notes

The count is kept beside the written segments because a climb that was written down must not
be taken back by a later one.
-/

namespace ModuleGraph

/-- The segments written so far, and how many names at their end a climb may take back. -/
structure Trail where
  segments : List String
  depth : Nat
deriving DecidableEq, Inhabited, Repr

namespace Trail

/-- Nothing is written yet. -/
def start : Trail := ⟨[], 0⟩

/-- One directory up. -/
def climb (t : Trail) : Trail :=
  if 0 < t.depth then ⟨t.segments.dropLast, t.depth - 1⟩ else ⟨t.segments ++ [".."], 0⟩

/-- Down into the directory or the file `s`. -/
def enter (t : Trail) (s : String) : Trail := ⟨t.segments ++ [s], t.depth + 1⟩

/-- One step of a path; roots and `.` write nothing. -/
def step (t : Trail) : Component → Trail
  | .name s => t.enter s
  | .up => t.climb
  | .here => t
  | .root => t

/-- The steps of `cs`, one after the other. -/
def walk (t : Trail) (cs : List Component) : Trail := cs.foldl step t

end Trail

namespace Path

/-- The collapsed path to which the segments of `relative` lead from `base`. -/
def resolve (base : Path) (relative : String) : Path :=
  ofBody base.isAbsolute
    (Trail.start.walk (base.components ++ stepsOf (Text.split '/' relative))).segments

/-- The collapsed spelling of a path, under which files are known in a graph. -/
def normal (p : Path) : Path := p.resolve ""

end Path

end ModuleGraph
