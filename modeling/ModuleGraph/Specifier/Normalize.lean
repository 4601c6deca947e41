import ModuleGraph.Path.Raw
import ModuleGraph.Specifier.Basic

/-!
# The canonical spelling of specifiers

Two specifiers of one file that lead to the same place get the same path: the specifier is
followed from the file's directory and then written as the way from that directory.

## Implementation notes

A specifier is a text, so it is followed among the names of the directory as these read. That a
name reads like another one makes no difference to the paths of texts.
-/

namespace ModuleGraph.Specifier

/-- The way from the directory at the end of `base` to what `raw` names when it is read there. -/
def wayFrom (base : Route) (raw : String) : Route :=
  base.relativeTo (base.follow (Text.split '/' raw))

/-- The specifier `raw` as written in the directory at the end of `base`. -/
def normalizeFrom (base : Route) (raw : String) (table : Extension.Table) : Specifier :=
  let anchor := Anchor.of raw
  let path := if anchor = .bare then raw else (wayFrom base raw).render
  { anchor, path, hasExtension := (extensionIn path).any table.recognizes }

/-- The route of the directory that holds `file`. -/
def directoryRoute (file : Path) : Route := file.directory.route

/-- The way from the directory of `file` to what `raw` names when it is read there. -/
def routeFrom (raw : String) (file : Path) : Route := wayFrom (directoryRoute file) raw

/-- The specifier `raw` as written in `file`. -/
def normalize (raw : String) (file : Path) (table : Extension.Table) : Specifier :=
  normalizeFrom (directoryRoute file) raw table

theorem path_normalize_of_bare {raw : String} (h : Anchor.of raw = .bare) (file : Path)
    (table : Extension.Table) : (normalize raw file table).path = raw := by
  simp [normalize, normalizeFrom, h]

@[simp] theorem anchor_normalize (raw : String) (file : Path) (table : Extension.Table) :
    (normalize raw file table).anchor = Anchor.of raw := rfl

end ModuleGraph.Specifier
