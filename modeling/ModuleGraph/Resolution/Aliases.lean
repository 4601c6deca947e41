import ModuleGraph.Json.Relaxed
import ModuleGraph.Resolution.Package

/-!
# Aliases of a compiler configuration

The configuration of the compiler at the root of a project may give a base directory for bare
specifiers and patterns that stand for other paths. It may extend further configurations, from
which it takes what it does not say itself, and refer to those of other projects.

## Implementation notes

Configurations may extend one another in a circle. The number of steps is limited by the
number of files, and a circle is a fault like a file that cannot be read.
-/

namespace ModuleGraph.Resolution

/-- What a configuration file says, as far as it matters for names. -/
structure Configuration where
  extended : List String
  baseUrl : Option String
  paths : Option (List (String × List String))
  references : List String
deriving DecidableEq, Inhabited, Repr

namespace Configuration

/-- The texts of an array. -/
def texts? (r : Json.Raw) : Option (List String) :=
  r.array?.bind fun items => items.mapM Json.Raw.string?

/-- What is read from a member that may be missing or null. -/
def optional? {α : Type} (read : Json.Raw → Option α) : Option Json.Raw → Option (Option α)
  | none => some none
  | some .null => some none
  | some r => (read r).map some

/-- The configurations to extend: one, or several. -/
def extended? : Json.Raw → Option (List String)
  | .string text => text.map ([·])
  | r => texts? r

/-- The patterns and what they stand for. -/
def paths? (r : Json.Raw) : Option (List (String × List String)) :=
  r.object?.bind fun members =>
    (members.mapM fun m => (texts? m.2).map (m.1, ·)).map Json.mergeMembers

/-- The base directory and the patterns, both of which are needed if they are not named. -/
def options? : Option Json.Raw →
    Option (Option String × Option (List (String × List String)))
  | none => some (none, none)
  | some r =>
    match r.fields? ["baseUrl", "paths"] 2 with
    | some [baseUrl, paths] =>
      (optional? Json.Raw.string? baseUrl).bind fun b => (optional? paths? paths).map (b, ·)
    | _ => none

/-- The path of another project. -/
def reference? (r : Json.Raw) : Option String :=
  match r.fields? ["path"] 1 with
  | some [some path] => path.string?
  | _ => none

/-- The paths of other projects. -/
def references? : Option Json.Raw → Option (List String)
  | none => some []
  | some r => r.array?.bind fun items => items.mapM reference?

/-- The configuration that a value writes, none if a part of it is not fit. What is not known
is not looked at. -/
def ofRaw? (r : Json.Raw) : Option Configuration :=
  match r.fields? ["extends", "compilerOptions", "references"] 0 with
  | some [extended, options, references] => do
    let extended ← optional? extended? extended
    let (baseUrl, paths) ← options? options
    some ⟨extended.getD [], baseUrl, paths, ← references? references⟩
  | _ => none

end Configuration

/-- The aliases of a configuration. -/
structure Aliases where
  /-- The directory of the configuration. -/
  directory : Path
  /-- The directory from which bare specifiers are read. -/
  base : Option Path
  patterns : Option (List (String × List String))
  /-- The directory from which the targets of the patterns are read. -/
  patternBase : Path
deriving DecidableEq, Inhabited, Repr

namespace Aliases

/-- A path that begins in the directory of the outermost configuration. -/
def template : String := "$\x7bconfigDir\x7d"

/-- A text in which the template at the beginning is exchanged for the directory. -/
def filled (directory : Path) (text : String) : String :=
  match Text.afterPrefix? template text with
  | some rest =>
    (directory.join ⟨String.ofList (rest.toList.dropWhile (· == '/'))⟩).text
  | none => text

/-- The aliases that a configuration in `directory` gives by itself. -/
def ofConfiguration (directory : Path) (c : Configuration) : Aliases :=
  let base := c.baseUrl.map directory.goTo
  ⟨directory, base, c.paths, base.getD directory⟩

/-- The aliases with what `other` says and they do not. -/
def extend (a other : Aliases) : Aliases :=
  { a with
    base := a.base.or other.base
    patterns := a.patterns.or other.patterns
    patternBase :=
      if a.patterns.isSome then a.patternBase else a.base.getD other.patternBase }

/-- The aliases of an outermost configuration, with the templates in its targets exchanged. -/
def outermost (a : Aliases) : Aliases :=
  { a with
    patterns := a.patterns.map fun ps => ps.map fun p => (p.1, p.2.map (filled a.directory)) }

/-- What the star of a pattern stands for in `name`. -/
def star? (pattern name : String) : Option (String × String) :=
  (Text.cutFirst '*' pattern).bind fun (before, after) =>
    if Text.hasPrefix before name && Text.hasSuffix after name then
      some (before, String.ofList
        ((name.toList.drop before.length).take (name.length - before.length - after.length)))
    else none

/-- The targets of the pattern for `name`: the one that is the name, or of those with a star
the one with the longest text before it. -/
def targets (patterns : List (String × List String)) (name : String) : List String :=
  match (patterns.find? (·.1 == name)).map (·.2) with
  | some found => found
  | none =>
    let best : Option (String × String × List String) :=
      patterns.foldl
        (fun best p =>
          match star? p.1 name with
          | none => best
          | some (before, star) =>
            if best.all fun b => b.1.utf8ByteSize < before.utf8ByteSize then
              some (before, star, p.2)
            else best)
        none
    match best with
    | none => []
    | some (_, star, found) => found.map (Text.replaceChar '*' star)

/-- The paths a specifier may stand for. Those of files have no aliases. -/
def candidates (a : Aliases) (specifier : String) : List Path :=
  if Text.hasPrefix "/" specifier || Text.hasPrefix "." specifier then []
  else
    ((a.patterns.map fun ps => targets ps specifier).getD []).map a.patternBase.goTo ++
      (a.base.map fun p => p.goTo specifier).toList

/-- The directory whose files a configuration is for. -/
def scope (a : Aliases) : Path := a.base.getD a.directory

/-- The configuration is for the files of a directory. -/
def isFor (a : Aliases) (directory : Path) : Bool := (a.scope.below? directory).isSome

end Aliases

namespace Lookup

variable (l : Lookup)

/-- How configurations in packages are looked for. -/
def ofConfigurations : Lookup :=
  { disk := l.disk, extensions := [".json"], substitutes := [], mainNames := ["tsconfig.json"]
    readsMains := false, conditions := [], knowsBuiltins := false }

/-- The file of a configuration: the path itself, a file in that directory, or with an
extension. -/
def configurationFile (p : Path) : Path :=
  if l.disk.isFile p then p
  else if l.disk.isDirectory p then p.join ⟨"tsconfig.json"⟩
  else ⟨p.text ++ ".json"⟩

/-- The configuration in a file, none if it cannot be read. -/
def configuration? (file : Path) : Option Configuration :=
  (l.disk.read? file).bind fun c =>
    (String.fromUTF8? c.bytes).bind fun s =>
      (Json.Relaxed.raw? s).bind Configuration.ofRaw?

/-- The path of a configuration that another one in `directory` extends. -/
def extendedPath? (directory : Path) (specifier : String) : Option Path :=
  if specifier = "" then none
  else if Text.hasPrefix "/" specifier then some ⟨specifier⟩
  else if Text.hasPrefix "." specifier then some (directory.goTo specifier)
  else
    match l.ofConfigurations.inPackages directory specifier .none with
    | .ok found => found
    | .error _ => none

/-- The aliases of the configuration at a path and of those it extends, in `n` steps at
most; none if one of them cannot be read. -/
def extendedAliases? : Nat → Path → Option Aliases
  | 0, _ => none
  | n + 1, p =>
    let file := l.configurationFile p
    (l.configuration? file).bind fun c =>
      let directory := file.directory
      c.extended.foldlM
        (fun a specifier =>
          (l.extendedPath? directory specifier).bind fun q =>
            (extendedAliases? n q).map a.extend)
        (Aliases.ofConfiguration directory c)

/-- The paths of the configurations that the one at a path extends, in `n` steps at most. -/
def extendedPaths : Nat → Path → List Path
  | 0, _ => []
  | n + 1, p =>
    let file := l.configurationFile p
    match l.configuration? file with
    | none => []
    | some c =>
      (c.extended.filterMap (l.extendedPath? file.directory)).flatMap fun q =>
        q :: extendedPaths n q

/-- The number of steps that configurations without a circle take at most. -/
def mostExtended : Nat := l.disk.entries.length + 1

/-- The aliases of an outermost configuration. -/
def aliases? (p : Path) : Option Aliases :=
  (l.extendedAliases? l.mostExtended p).map Aliases.outermost

end Lookup

/-- The aliases of a project and of the projects it refers to. -/
structure ProjectAliases where
  own : Aliases
  referred : List Aliases
deriving DecidableEq, Inhabited, Repr

namespace ProjectAliases

/-- The aliases of a project at `p` that the one with this configuration file refers to. What
it extends is not looked at. A project that refers to itself is at fault. -/
def referred? (l : Lookup) (file p : Path) : Option Aliases :=
  let target := l.configurationFile p
  if target.same file then none
  else
    (l.configuration? target).map fun c => (Aliases.ofConfiguration target.directory c).outermost

/-- The aliases that hold for a project with this configuration file. What it both extends and
refers to is taken as it is extended. -/
def read? (l : Lookup) (file : Path) : Option ProjectAliases :=
  (l.configuration? file).bind fun c =>
    (l.aliases? file).bind fun own =>
      let extended := l.extendedPaths l.mostExtended file
      (c.references.mapM fun r =>
        let p := own.directory.goTo r
        if extended.any p.same then l.extendedAliases? l.mostExtended p
        else referred? l file p).map (⟨own, ·⟩)

/-- The paths a specifier may stand for in a directory: those of the project itself, or if it
has none those of the first project that the directory is for. -/
def candidates (a : ProjectAliases) (directory : Path) (specifier : String) : List Path :=
  match if a.own.isFor directory then a.own.candidates specifier else [] with
  | [] =>
    ((a.referred.find? (·.isFor directory)).map fun r => r.candidates specifier).getD []
  | found => found

end ProjectAliases

end ModuleGraph.Resolution
