import ModuleGraph.Path.Route
import ModuleGraph.Path.Trail
import ModuleGraph.Text.Bytes

/-!
# Paths of bytes

The system keeps a path as bytes, and most of its paths are the bytes of texts. A path of bytes
has the steps of any path, since slashes and dots are single bytes. Its names can be read as
texts also where their bytes are the bytes of none, and then different names may read alike.

## Implementation notes

What is done with a path of bytes is done with the path that has one character for each of
them. A text that leads on from such a path is written in bytes as well.
-/

namespace ModuleGraph

/-- A path as the system keeps it. -/
structure RawPath where
  bytes : List UInt8
deriving DecidableEq, Inhabited, Repr

/-- The bytes of a path that is a text. -/
def Path.raw (p : Path) : RawPath := ⟨Text.encode p.text⟩

namespace RawPath

/-- The path with one character for each byte. -/
def spelling (p : RawPath) : Path := ⟨Text.spell p.bytes⟩

/-- The path with one byte for each character. -/
def ofSpelling (p : Path) : RawPath := ⟨Text.unspell p.text⟩

/-- Two spellings of the same steps. -/
def same (p q : RawPath) : Bool := p.spelling.same q.spelling

/-- The directory that holds `p`, the empty path when there is none. -/
def directory (p : RawPath) : RawPath := ofSpelling p.spelling.directory

/-- The collapsed path to which the segments of the text `relative` lead from `base`. -/
def resolve (base : RawPath) (relative : String) : RawPath :=
  ofSpelling (base.spelling.resolve (Text.bytewise relative))

/-- What the bytes between the slashes read. -/
def readings (p : RawPath) : List String := p.spelling.segments.map Text.reading

/-- The path as its names read. -/
def shown (p : RawPath) : Path := ⟨Text.join '/' p.readings⟩

/-- The route that the names describe as they read. -/
def route (p : RawPath) : Route := Route.stay.follow p.readings

end RawPath

end ModuleGraph
