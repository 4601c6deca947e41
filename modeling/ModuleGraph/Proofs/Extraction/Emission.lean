import ModuleGraph.Proofs.Extraction.CandidatePaths

/-!
# Emitted specifiers

Main statement: `Edge.request_emitted`. When modules are emitted with an extension, a specifier that
leaves its extension out is rewritten to name it, and then leads to the very path under which its
file is looked for with that extension. A specifier that names its extension stays as it is, and its
file is looked for where it leads.

## Implementation notes

An emitted text is completed and then followed, while a candidate is followed first and its path
completed afterwards. Either way one name is put behind a clean route, so it is enough that a name
at the end of a canonical spelling is entered last.
-/

namespace ModuleGraph

namespace Route

/-- What is written behind a canonical spelling is written behind its last name. -/
theorem render_concat_append (ups : Nat) (names : List String) (s t : String) :
    (⟨ups, names ++ [s ++ t]⟩ : Route).render = (⟨ups, names ++ [s]⟩ : Route).render ++ t := by
  rw [render, render, Text.join_concat_append, String.append_assoc]

/-- A first name is written behind the spelling of a directory. -/
theorem render_singleton (ups : Nat) (s : String) :
    (⟨ups, [s]⟩ : Route).render = (⟨ups, []⟩ : Route).render ++ s := by
  have hempty : Text.join '/' [] = "" := by decide
  rw [render, render, Text.join_singleton, hempty, String.append_empty]

end Route

/-- A name at the end of a canonical spelling is entered from where the rest of it leads. -/
theorem Path.resolve_render_concat (base : Path) {ups : Nat} {names : List String}
    (hr : (⟨ups, names⟩ : Route).Clean) {s : String} (hs : IsName s) :
    base.resolve (⟨ups, names ++ [s]⟩ : Route).render =
      (base.resolve (⟨ups, names⟩ : Route).render).join ⟨s⟩ := by
  have hstep : (⟨ups, names ++ [s]⟩ : Route) = (⟨ups, names⟩ : Route).step s :=
    (Route.step_of_isName (⟨ups, names⟩ : Route) hs).symm
  have hroute : base.route.follow (⟨ups, names ++ [s]⟩ : Route).segments =
      ⟨(base.route.follow (⟨ups, names⟩ : Route).segments).ups,
        (base.route.follow (⟨ups, names⟩ : Route).segments).names ++ [s]⟩ := by
    rw [hstep, Route.follow_segments_step base.route hr hs.whole, Route.step_of_isName _ hs]
  have hconcat : (⟨ups, names ++ [s]⟩ : Route).Clean := hstep ▸ hr.step hs.whole
  have hclean : (base.route.follow (⟨ups, names⟩ : Route).segments).Clean :=
    base.clean_route.follow fun _ => hr.whole_of_mem_segments
  rw [resolve_eq, resolve_eq, Route.follow_split_render _ hr,
    Route.follow_split_render _ hconcat, hroute, join_ofBody _ hclean hs]

/-- A suffix is written behind the name that was entered last. -/
theorem Request.withSuffix_join (p : Path) {s ext : String} (hs : Path.IsName s)
    (hext : '/' ∉ ext.toList) : withSuffix (p.join ⟨s⟩) ext = p.join ⟨s ++ "." ++ ext⟩ := by
  rw [Path.join, Path.join, Path.isAbsolute_of_isName hs,
    Path.isAbsolute_of_isName (hs.withExtension hext), if_neg Bool.false_ne_true,
    if_neg Bool.false_ne_true]
  split <;> simp [withSuffix, String.append_assoc]

namespace Specifier

variable {file : Path} {s : Specifier} {t : Extension.Table} {ext : String}

/-- A specifier that was normalized in a file is spelled from a route, which has no names when the
specifier is one of a directory. -/
theorem NormalizedIn.exists_render (hs : s.NormalizedIn file t) (hbare : s.isBare = false) :
    ∃ r : Route, r.Clean ∧ s.path = r.render ∧ (s.isDirectory = true ↔ r.names = []) := by
  obtain ⟨raw, rfl⟩ := hs
  have hraw : Anchor.of raw ≠ .bare := of_decide_eq_false hbare
  exact ⟨routeFrom raw file, clean_routeFrom raw file, path_normalize_of_anchored hraw file t,
    isDirectory_normalize hraw file t⟩

theorem emitted_of_hasExtension (h : s.hasExtension = true) (ext : String) :
    s.emitted ext = s.path := by
  simp [emitted, h]

theorem emitted_of_file (hbare : s.isBare = false) (hnone : s.hasExtension = false)
    (hfile : s.isDirectory = false) (hext : Text.trimDots ext = ext) :
    s.emitted ext = s.path ++ "." ++ ext := by
  simp [emitted, hbare, hnone, hfile, hext]

theorem emitted_of_directory (hnone : s.hasExtension = false) (hdir : s.isDirectory = true)
    (hext : Text.trimDots ext = ext) : s.emitted ext = s.path ++ "index." ++ ext := by
  have hbare : s.isBare = false := by
    rw [isDirectory, Bool.and_eq_true, Bool.not_eq_true'] at hdir
    exact hdir.1
  simp [emitted, hbare, hnone, hdir, hext]

variable (hs : s.NormalizedIn file t) (hbare : s.isBare = false) (hnone : s.hasExtension = false)
  (htrim : Text.trimDots ext = ext) (hext : '/' ∉ ext.toList)
include hs hbare hnone htrim hext

/-- The emitted name of a file leads to the file with the extension. -/
theorem resolve_emitted_of_file (hfile : s.isDirectory = false) :
    file.directory.resolve (s.emitted ext) =
      Request.withSuffix (file.directory.resolve s.path) ext := by
  obtain ⟨r, hr, hpath, hdir⟩ := hs.exists_render hbare
  have hne : r.names ≠ [] := by
    rw [Ne, ← hdir, hfile]
    exact Bool.false_ne_true
  obtain ⟨ups, names, n, rfl⟩ := Route.exists_eq_of_names_ne_nil hne
  have hn : Path.IsName n := hr n (by simp)
  have hinit : (⟨ups, names⟩ : Route).Clean := fun m hm => hr m (List.mem_append_left _ hm)
  have hname : n ++ "." ++ ext = n ++ ("." ++ ext) := String.append_assoc
  rw [emitted_of_file hbare hnone hfile htrim, hpath]
  calc
    file.directory.resolve ((⟨ups, names ++ [n]⟩ : Route).render ++ "." ++ ext) =
        file.directory.resolve (⟨ups, names ++ [n ++ "." ++ ext]⟩ : Route).render := by
      rw [hname, Route.render_concat_append, String.append_assoc]
    _ = (file.directory.resolve (⟨ups, names⟩ : Route).render).join ⟨n ++ "." ++ ext⟩ :=
      Path.resolve_render_concat _ hinit (hn.withExtension hext)
    _ = Request.withSuffix ((file.directory.resolve (⟨ups, names⟩ : Route).render).join ⟨n⟩) ext :=
      (Request.withSuffix_join _ hn hext).symm
    _ = Request.withSuffix (file.directory.resolve (⟨ups, names ++ [n]⟩ : Route).render) ext := by
      rw [Path.resolve_render_concat _ hinit hn]

/-- The emitted name of a directory leads to the index file with the extension. -/
theorem resolve_emitted_of_directory (hdirectory : s.isDirectory = true) :
    file.directory.resolve (s.emitted ext) =
      Request.withSuffix ((file.directory.resolve s.path).join ⟨"index"⟩) ext := by
  obtain ⟨⟨ups, names⟩, hr, hpath, hdir⟩ := hs.exists_render hbare
  obtain rfl : names = [] := hdir.mp hdirectory
  have hindex : Path.IsName "index" := ⟨by decide, by decide, by decide⟩
  rw [emitted_of_directory hnone hdirectory htrim, hpath]
  calc
    file.directory.resolve ((⟨ups, []⟩ : Route).render ++ "index." ++ ext) =
        file.directory.resolve (⟨ups, [] ++ ["index" ++ "." ++ ext]⟩ : Route).render := by
      rw [List.nil_append, Route.render_singleton, String.append_assoc]
      rfl
    _ = (file.directory.resolve (⟨ups, []⟩ : Route).render).join ⟨"index" ++ "." ++ ext⟩ :=
      Path.resolve_render_concat _ hr (hindex.withExtension hext)
    _ = Request.withSuffix ((file.directory.resolve (⟨ups, []⟩ : Route).render).join ⟨"index"⟩)
        ext :=
      (Request.withSuffix_join _ hindex hext).symm

end Specifier

namespace Edge

/-- A specifier that omits its extension is looked for first where the emitted specifiers lead, in
the order of the extensions, and nowhere else if it names a directory. One that names its extension
is emitted as it is and looked for where it leads. -/
theorem request_emitted {t table : Extension.Table} (htable : table.Grown)
    (hexts : ∀ ext ∈ table.modules, '/' ∉ ext.toList) (e : Edge)
    (hs : e.specifier.NormalizedIn e.file t) (hbare : e.specifier.isBare = false) :
    let directory := e.file.directory
    (e.specifier.hasExtension = false →
      e.request table = .file
        ((table.modules.map fun ext => directory.resolve (e.specifier.emitted ext)) ++
          if e.specifier.isDirectory then []
          else Request.indexCandidates (directory.resolve e.specifier.path) table)) ∧
      (e.specifier.hasExtension = true →
        (∀ ext, e.specifier.emitted ext = e.specifier.path) ∧
          e.request table = .file [directory.resolve e.specifier.path]) := by
  intro directory
  rw [request, hbare, if_neg Bool.false_ne_true, Request.candidates]
  constructor
  · intro hnone
    rw [hnone, if_neg Bool.false_ne_true]
    cases hdir : e.specifier.isDirectory with
    | true =>
        have hemitted : table.modules.map (fun ext => directory.resolve (e.specifier.emitted ext)) =
            Request.indexCandidates (directory.resolve e.specifier.path) table :=
          List.map_congr_left fun ext hext =>
            Specifier.resolve_emitted_of_directory hs hbare hnone
              (htable.trimDots_of_mem_modules hext) (hexts ext hext) hdir
        rw [hemitted, if_pos rfl, if_pos rfl, List.nil_append, List.append_nil]
        rfl
    | false =>
        have hemitted : table.modules.map (fun ext => directory.resolve (e.specifier.emitted ext)) =
            Request.fileCandidates (directory.resolve e.specifier.path) table :=
          List.map_congr_left fun ext hext =>
            Specifier.resolve_emitted_of_file hs hbare hnone
              (htable.trimDots_of_mem_modules hext) (hexts ext hext) hdir
        rw [hemitted, if_neg Bool.false_ne_true, if_neg Bool.false_ne_true]
        rfl
  · intro hsome
    rw [hsome, if_pos rfl]
    exact ⟨Specifier.emitted_of_hasExtension hsome, rfl⟩

/-- Modules of two extensions, of which `tsx` is tried first: it was entered first, for assets. -/
def mixed : Extension.Table :=
  Extension.Table.empty.insertAll
    [("tsx", .asset .data), (".ts", .module .typescript), ("tsx", .module .typescript)]

/-- An import of what a climb above the root leads to. -/
def climbing : Edge where
  file := ⟨"/a/m.ts"⟩
  specifier := Specifier.normalize "../../b/./c" ⟨"/a/m.ts"⟩ mixed
  kind := .staticImport
  typeOnly := false
  isAsset := false

/-- The emitted specifiers climb above the root as far as the specifier does. -/
theorem request_emitted_above_root :
    mixed.Grown ∧ (∀ ext ∈ mixed.modules, '/' ∉ ext.toList) ∧
      climbing.specifier.NormalizedIn climbing.file mixed ∧ climbing.specifier.isBare = false ∧
      mixed.modules.map climbing.specifier.emitted = ["../../b/c.tsx", "../../b/c.ts"] ∧
      climbing.request mixed = .file
        [⟨"/../b/c.tsx"⟩, ⟨"/../b/c.ts"⟩, ⟨"/../b/c/index.tsx"⟩, ⟨"/../b/c/index.ts"⟩] ∧
      climbing.request mixed = .file
        ((mixed.modules.map fun ext =>
            climbing.file.directory.resolve (climbing.specifier.emitted ext)) ++
          if climbing.specifier.isDirectory then []
          else Request.indexCandidates
            (climbing.file.directory.resolve climbing.specifier.path) mixed) := by
  have htable : mixed.Grown := .insertAll .empty _
  have hexts : ∀ ext ∈ mixed.modules, '/' ∉ ext.toList := by decide +kernel
  have hs : climbing.specifier.NormalizedIn climbing.file mixed := ⟨_, rfl⟩
  have hbare : climbing.specifier.isBare = false := by decide +kernel
  have hnone : climbing.specifier.hasExtension = false := by decide +kernel
  have hemitted : mixed.modules.map climbing.specifier.emitted =
      ["../../b/c.tsx", "../../b/c.ts"] := by
    decide +kernel
  have hpaths : climbing.request mixed = .file
      [⟨"/../b/c.tsx"⟩, ⟨"/../b/c.ts"⟩, ⟨"/../b/c/index.tsx"⟩, ⟨"/../b/c/index.ts"⟩] := by
    decide +kernel
  have hrequest := (request_emitted htable hexts climbing hs hbare).1 hnone
  exact ⟨htable, hexts, hs, hbare, hemitted, hpaths, hrequest⟩

end Edge

end ModuleGraph
