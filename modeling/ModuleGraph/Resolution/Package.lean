import ModuleGraph.Resolution.Exports
import ModuleGraph.Resolution.Written

/-!
# Looking for packages

A bare specifier names a package: the one it is written in, if that has this name and says
what it offers, or an installed one, which lies in a directory of packages beside the file or
in a directory around it.
-/

namespace ModuleGraph.Resolution

/-- The modules that the runtime brings along. -/
def builtinNames : List String :=
  ["_http_agent", "_http_client", "_http_common", "_http_incoming", "_http_outgoing",
   "_http_server", "_stream_duplex", "_stream_passthrough", "_stream_readable",
   "_stream_transform", "_stream_wrap", "_stream_writable", "_tls_common", "_tls_wrap",
   "assert", "assert/strict", "async_hooks", "buffer", "child_process", "cluster", "console",
   "constants", "crypto", "dgram", "diagnostics_channel", "dns", "dns/promises", "domain",
   "events", "fs", "fs/promises", "http", "http2", "https", "inspector", "module", "net",
   "os", "path", "path/posix", "path/win32", "perf_hooks", "process", "punycode",
   "querystring", "readline", "readline/promises", "repl", "stream", "stream/consumers",
   "stream/promises", "stream/web", "string_decoder", "sys", "timers", "timers/promises",
   "tls", "trace_events", "tty", "url", "util", "util/types", "v8", "vm", "worker_threads",
   "zlib"]

/-- The full name of the runtime's module that a specifier names. A specifier that begins with
the runtime's mark names one, whether or not it exists. -/
def builtin? (specifier : String) : Option String :=
  if Text.hasPrefix "node:" specifier then some specifier
  else if builtinNames.contains specifier then some ("node:" ++ specifier)
  else none

/-- A search for what is written, by its path. The parts of `outer` stand for those that are not
written. A fragment without a query may be part of the path, which is tried first. -/
def Search.ofWritten (outer : Suffix) (search : String → Suffix → Search) (specifier : String) :
    Search :=
  match Written.parse? specifier with
  | none => .error .refused
  | some w =>
    let suffix := w.suffix.or outer
    let whole :=
      match suffix.fragment, suffix.query with
      | some fragment, none => search (w.path ++ fragment) .none
      | _, _ => .ok none
    match whole with
    | .ok (some p) => .ok (some p)
    | _ => search w.path suffix

namespace Lookup

variable (l : Lookup)

/-- A search that must find something. -/
def required (s : Search) : Search := s.orElse fun _ => .error .refused

/-- Stops the search if the specifier names a module of the runtime. -/
def stopAtBuiltin (specifier : String) (search : Unit → Search) : Search :=
  match if l.knowsBuiltins then builtin? specifier else none with
  | some name => .error (.builtin name)
  | none => search ()

/-- The file or directory at a path that a package description gave. -/
def offered (s : Search) : Search :=
  s.bind fun found =>
    match found with
    | none => .ok none
    | some p => required (l.asFileOrDirectory p "")

/-- What the package in `directory` offers under a name, if it says what it offers. -/
def exported (directory : Path) (name : String) (suffix : Suffix) : Search :=
  (l.description directory).bind fun d =>
    match d.bind (·.get? "exports") with
    | none => .ok none
    | some exports => followExports l.conditions directory exports name suffix.isPresent

/-- What `specifier` names if it is written in a package of that name, which says what it
offers. -/
def ownPackage (directory : Path) (specifier : String) (suffix : Suffix) : Search :=
  (l.package directory).bind fun found =>
    match found with
    | none => .ok none
    | some (scope, d) =>
      match ((d.get? "name").bind Json.string?).bind fun n => Text.afterPrefix? n specifier,
          d.get? "exports" with
      | some rest, some exports =>
        if rest = "" || Text.hasPrefix "/" rest || Text.hasPrefix "\\" rest then
          l.offered (followExports l.conditions scope exports ("." ++ rest) suffix.isPresent)
        else .ok none
      | _, _ => .ok none

/-- The directory of installed packages beside the files of `directory`. -/
def packagesIn? (directory : Path) : Option Path :=
  let p := directory.join ⟨"node_modules"⟩
  if l.disk.isDirectory p then some p else none

/-- What `specifier` names among the packages installed in `packages`. -/
def installedIn (packages : Path) (specifier : String) (suffix : Suffix) : Search :=
  let (name, rest) := packageParts specifier
  let directory := packages.goTo name
  let target := packages.goTo specifier
  if l.disk.isDirectory directory then
    (l.offered (l.exported directory ("." ++ rest) suffix)).orElse fun _ =>
      l.asDirectoryOrFile target
  else if rest = "" then l.asDirectoryOrFile target
  else .ok none

/-- What `specifier` names among the packages installed around `directory`. -/
def installed (directory : Path) (specifier : String) (suffix : Suffix) : Search :=
  Search.firstOf
    (fun packages => l.installedIn packages specifier suffix)
    (directory.ancestors.filterMap l.packagesIn?)

/-- What a bare specifier names in `directory`. -/
def inPackages (directory : Path) (specifier : String) (suffix : Suffix) : Search :=
  (l.ownPackage directory specifier suffix).orElse fun _ =>
    l.installed directory specifier suffix

/-- What a relative specifier names in `directory`. -/
def relative (directory : Path) (specifier : String) : Search :=
  required (l.asFileOrDirectory (directory.goTo specifier) specifier)

/-- What a path after a dot names in `directory`: a dot alone or before a slash is a step of a
relative path, and else it belongs to the name of a package. -/
def afterDot (directory : Path) (specifier : String) (suffix : Suffix) : Search :=
  match (Path.components ⟨specifier⟩).head? with
  | some .here => l.relative directory specifier
  | _ => l.stopAtBuiltin specifier fun _ => l.inPackages directory specifier suffix

/-- What the target of a name for use inside a package names outside of it. The first package
of that name decides. -/
def outsideTarget (scope : Path) (suffix : Suffix) (target : String) : Search :=
  let (name, rest) := packageParts target
  l.stopAtBuiltin name fun _ =>
    let directories :=
      ((scope.ancestors.filterMap l.packagesIn?).map (·.goTo name)).filter l.disk.isDirectory
    required <|
      match directories.head? with
      | none => .ok none
      | some directory =>
        (l.exported directory ("." ++ rest) suffix).orElse fun _ =>
          Search.ofWritten suffix (l.afterDot directory) ("." ++ rest)

/-- What a name for use inside a package leads to; a package that has such names has no
others. -/
def internal (directory : Path) (specifier : String) (suffix : Suffix) : Search :=
  (l.package directory).bind fun found =>
    match found with
    | none => .ok none
    | some (scope, d) =>
      match (d.get? "imports").bind Json.object? with
      | none => .ok none
      | some members =>
        if specifier = "#" || Text.hasPrefix "#/" specifier then .error .refused
        else
          let context : TargetContext :=
            ⟨scope, specifier, none, l.conditions, some (l.outsideTarget scope suffix)⟩
          l.offered (required (followName context members specifier))

end Lookup

end ModuleGraph.Resolution
