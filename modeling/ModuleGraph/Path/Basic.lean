import ModuleGraph.Text.Split

/-!
# Paths

A path is a text and kept as it was written. What it names is its list of components: an
optional root, then names and climbs, where repeated slashes, inner `.` segments and a trailing
slash do not count and only a leading `.` of a relative path does. Paths are compared by
components. Paths of bytes that are no text are those of `RawPath`.

## Implementation notes

The written text stays because reports print it; every question about a path other than its
text goes through `Path.components`.
-/

namespace ModuleGraph

/-- A path of UTF-8 text as written, with `/` between its segments. -/
structure Path where
  text : String
deriving DecidableEq, Inhabited, Repr

/-- One step of a path. Their order is the order of paths: the root before `.`, `.` before
`..`, and `..` before every name. -/
inductive Component
  | root
  | here
  | up
  | name (s : String)
deriving DecidableEq, Inhabited, Repr, Ord

namespace Path

/-- The empty path, which names the directory it is read from. -/
def empty : Path := ⟨""⟩

/-- A path that begins at the root. -/
def isAbsolute (p : Path) : Bool := Text.hasPrefix "/" p.text

/-- The texts between the slashes, empty ones included. -/
def segments (p : Path) : List String := Text.split '/' p.text

/-- A segment that takes no step: nothing between two slashes, or a single dot. -/
def isIdle (s : String) : Bool := s == "" || s == "."

/-- The step a segment stands for. -/
def stepOf (s : String) : Component := if s = ".." then .up else .name s

/-- The steps of a list of segments, idle ones left out. -/
def stepsOf (segs : List String) : List Component :=
  (segs.filter fun s => !isIdle s).map stepOf

/-- What the path names, step by step. -/
def components (p : Path) : List Component :=
  if p.isAbsolute then .root :: stepsOf p.segments
  else
    match p.segments with
    | "." :: rest => .here :: stepsOf rest
    | segs => stepsOf segs

/-- Two spellings of the same steps. -/
def same (p q : Path) : Bool := p.components == q.components

/-- Paths are ordered step by step, so `a/x` comes before `a-b/x`. -/
instance : Ord Path := ⟨fun p q => compare p.components q.components⟩

/-- `p` comes no later than `q`. -/
def le (p q : Path) : Bool := (compare p q).isLE

/-- The segments without the idle ones they end in. -/
def trimEnd : List String → List String
  | [] => []
  | s :: rest =>
    match trimEnd rest with
    | [] => if isIdle s then [] else [s]
    | kept => s :: kept

/-- The segments below the root, or all of them; a leading `.` of a relative path is a step
and stays. -/
def body (p : Path) : List String :=
  if p.isAbsolute then trimEnd p.segments.tail
  else
    match p.segments with
    | "." :: rest => "." :: trimEnd rest
    | segs => trimEnd segs

/-- The path of `segs` below the root, or from where the path is read. -/
def ofBody (absolute : Bool) (segs : List String) : Path :=
  ⟨(if absolute then "/" else "") ++ Text.join '/' segs⟩

/-- The path without its last step, spelled as it was; none for the root and the empty path. -/
def parent? (p : Path) : Option Path :=
  match p.body with
  | [] => none
  | segs =>
    let rest := segs.dropLast
    some <| ofBody p.isAbsolute <|
      match rest with
      | "." :: more => if p.isAbsolute then trimEnd rest else "." :: trimEnd more
      | _ => trimEnd rest

/-- The directory that holds `p`, the empty path when there is none. -/
def directory (p : Path) : Path := p.parent?.getD empty

/-- The name the path ends in; a path that ends in a climb or a root has none. -/
def fileName? (p : Path) : Option String :=
  match p.components.getLast? with
  | some (.name s) => some s
  | _ => none

/-- A file name cut at its last dot into stem and extension. A name that only begins with a
dot has no extension. -/
def cutExtension (name : String) : String × Option String :=
  match Text.cutLast '.' name with
  | some (stem, ext) => if stem = "" then (name, none) else (stem, some ext)
  | none => (name, none)

/-- The extension of the file name, without its dot. -/
def extension? (p : Path) : Option String :=
  p.fileName?.bind fun name => (cutExtension name).2

/-- `q` read from the directory `p`; an absolute `q` stands for itself. -/
def join (p q : Path) : Path :=
  if q.isAbsolute then q
  else if p.text = "" || Text.hasSuffix "/" p.text then ⟨p.text ++ q.text⟩
  else ⟨p.text ++ "/" ++ q.text⟩

/-- The segments after the first `n` steps. -/
def dropSteps : Nat → List String → List String
  | 0, segs => segs.dropWhile isIdle
  | _ + 1, [] => []
  | n + 1, s :: rest => if isIdle s then dropSteps (n + 1) rest else dropSteps n rest

/-- What is left of `p` below `root`, spelled as in `p`; none when `p` does not lie there. -/
def below? (root p : Path) : Option Path :=
  if root.components.isPrefixOf p.components then
    let steps := root.components.length
    some <| ofBody false <| trimEnd <|
      if p.isAbsolute then dropSteps (steps - 1) p.segments
      else
        match p.segments, steps with
        | "." :: rest, n + 1 => dropSteps n rest
        | segs, n => dropSteps n segs
  else none

/-- Sameness is equality of the steps. -/
theorem same_iff {p q : Path} : p.same q = true ↔ p.components = q.components := by
  simp [same]

end Path

end ModuleGraph
