import Mathlib.Data.List.Permutation
import ModuleGraph.Proofs.Discovery.Entries
import ModuleGraph.Proofs.Path.Order

/-!
# Projects at another place

Main statement: `sources_relocated_iff`. The filters of discovery look at whole paths, so that the
directory of a project takes part in what they leave out. Two directories with the same entries
hold the same source files exactly when they take part alike, and then in the same order.

## Implementation notes

Files are sorted by their steps. What lies below one directory has the steps of the directory in
common, so the names below it alone decide the order.
-/

namespace ModuleGraph

namespace Path

/-- What two paths have in common at their beginning has no part in their order. -/
theorem compare_append_left (front xs ys : List Component) :
    compare (front ++ xs) (front ++ ys) = compare xs ys := by
  induction front with
  | nil => rfl
  | cons c rest ih =>
      have hself : compare c c = .eq := Std.ReflCmp.compare_self
      change List.compareLex compare (c :: (rest ++ xs)) (c :: (rest ++ ys)) = _
      rw [List.compareLex_cons_cons, hself, Ordering.eq_then]
      exact ih

variable {root : Path} {names : List String}

/-- Names written one after the other are a path of these names. -/
theorem components_join_of_isName (h : ∀ s ∈ names, IsName s) :
    (⟨Text.join '/' names⟩ : Path).components = names.map .name := by
  have hbody := Route.Clean.components_ofBody (r := ⟨0, names⟩) h false
  simpa [ofBody, Route.segments, Route.steps, rootSteps] using hbody

/-- Different names are written differently. -/
theorem join_inj {names' : List String} (h : ∀ s ∈ names, IsName s)
    (h' : ∀ s ∈ names', IsName s) (heq : Text.join '/' names = Text.join '/' names') :
    names = names' := by
  have hcomponents := components_join_of_isName h
  rw [heq, components_join_of_isName h'] at hcomponents
  exact (List.map_inj_right fun _ _ => Component.name.inj).mp hcomponents.symm

end Path

namespace Discovery

open ModuleGraph.Path (IsName)

/-- The names by themselves pass all filters of discovery. -/
structure Fits (settings : Settings) (names : List String) : Prop where
  installed : "node_modules" ∉ names
  excluded : ∀ pattern ∈ settings.exclude.getD [], ∀ s ∈ names,
    Text.Wildcard.accepts pattern s = false
  parseable : names ≠ [] → Source.isParseable ⟨Text.join '/' names⟩ = true

/-- The directory gives no filter a reason to leave out what the names lead to: none of its own
steps is one of installed packages or excluded, and the whole path is not excluded. A directory
that is a source file itself, as a link may be, has to be named like one. -/
structure Admits (settings : Settings) (root : Path) (names : List String) : Prop where
  installed : isInstalled root = false
  excluded : ∀ pattern ∈ settings.exclude.getD [], ∀ c ∈ root.components,
    Text.Wildcard.accepts pattern c.text = false
  whole : ∀ pattern ∈ settings.exclude.getD [],
    Text.Wildcard.accepts pattern (root.descend names).text = false
  parseable : names = [] → Source.isParseable root = true

variable {settings : Settings} {root : Path} {names : List String}

theorem isParseable_congr {p q : Path} (h : p.components.getLast? = q.components.getLast?) :
    Source.isParseable p = Source.isParseable q := by
  rw [Source.isParseable, Source.isParseable, Path.extension?, Path.extension?, Path.fileName?,
    Path.fileName?, h]

/-- Names alone decide whether a file can be parsed. -/
theorem isParseable_descend (hroot : root.isAbsolute = true) (h : ∀ s ∈ names, IsName s)
    (hne : names ≠ []) :
    Source.isParseable (root.descend names) = Source.isParseable ⟨Text.join '/' names⟩ := by
  apply isParseable_congr
  rw [(Path.spelledBelow_descend hroot h).components, Path.components_join_of_isName h,
    List.getLast?_append]
  obtain ⟨s, rest, rfl⟩ := List.exists_cons_of_ne_nil hne
  simp [List.getLast?_cons]

/-- A path is a source file when neither its names nor its directory leave it out. -/
theorem isSource_descend_iff (hroot : root.isAbsolute = true) (h : ∀ s ∈ names, IsName s) :
    isSource settings (root.descend names) = true ↔
      Fits settings names ∧ Admits settings root names := by
  have hcomponents := (Path.spelledBelow_descend hroot h).components
  have hinstalled : isInstalled (root.descend names) = false ↔
      isInstalled root = false ∧ "node_modules" ∉ names := by
    simp [isInstalled, hcomponents]
  have hexcluded : isExcluded settings (root.descend names) = false ↔
      ∀ pattern ∈ settings.exclude.getD [],
        Text.Wildcard.accepts pattern (root.descend names).text = false ∧
        (∀ c ∈ root.components, Text.Wildcard.accepts pattern c.text = false) ∧
        ∀ s ∈ names, Text.Wildcard.accepts pattern s = false := by
    simp only [isExcluded, hcomponents, List.any_eq_false, List.any_append, List.any_map,
      Bool.or_eq_true, not_or, Bool.not_eq_true, Function.comp_apply, Component.text]
  have hparseable : Source.isParseable (root.descend names) = true ↔
      (names ≠ [] → Source.isParseable ⟨Text.join '/' names⟩ = true) ∧
        (names = [] → Source.isParseable root = true) := by
    by_cases hnil : names = []
    · subst hnil
      simp [Path.descend]
    · rw [isParseable_descend hroot h hnil]
      simp [hnil]
  rw [isSource, Bool.and_eq_true, Bool.and_eq_true, Bool.not_eq_true', Bool.not_eq_true',
    hinstalled, hexcluded, hparseable]
  constructor
  · rintro ⟨⟨⟨hroot', hnames⟩, hpatterns⟩, hparse, hlink⟩
    exact ⟨⟨hnames, fun p hp => (hpatterns p hp).2.2, hparse⟩,
      ⟨hroot', fun p hp => (hpatterns p hp).2.1, fun p hp => (hpatterns p hp).1, hlink⟩⟩
  · rintro ⟨hfits, hadmits⟩
    exact ⟨⟨⟨hadmits.installed, hfits.installed⟩, fun p hp =>
      ⟨hadmits.whole p hp, hadmits.excluded p hp, hfits.excluded p hp⟩⟩,
      hfits.parseable, hadmits.parseable⟩

/-- The order of files by their names below one directory. -/
def namesLE (xs ys : List String) : Bool :=
  (compare (xs.map Component.name) (ys.map Component.name)).isLE

theorem le_descend (hroot : root.isAbsolute = true) {xs ys : List String}
    (hxs : ∀ s ∈ xs, IsName s) (hys : ∀ s ∈ ys, IsName s) :
    (root.descend xs).le (root.descend ys) = namesLE xs ys := by
  change (compare (root.descend xs).components (root.descend ys).components).isLE = _
  rw [(Path.spelledBelow_descend hroot hxs).components,
    (Path.spelledBelow_descend hroot hys).components, Path.compare_append_left]
  rfl

theorem namesLE_trans (xs ys zs : List String) (h : namesLE xs ys = true)
    (h' : namesLE ys zs = true) : namesLE xs zs = true :=
  Std.TransCmp.isLE_trans h h'

theorem namesLE_total (xs ys : List String) : (namesLE xs ys || namesLE ys xs) = true := by
  unfold namesLE
  rw [Std.OrientedOrd.eq_swap (a := ys.map Component.name)]
  cases compare (xs.map Component.name) (ys.map Component.name) <;> rfl

theorem namesLE_antisymm {xs ys : List String} (h : namesLE xs ys = true)
    (h' : namesLE ys xs = true) : xs = ys := by
  have heq := Std.LawfulEqOrd.eq_of_compare (Std.OrientedCmp.isLE_antisymm h h')
  exact (List.map_inj_right fun _ _ => Component.name.inj).mp heq

/-- Sorting forgets the order in which the names are found. -/
theorem mergeSort_namesLE_eq_of_perm {xs ys : List (List String)} (h : xs.Perm ys) :
    xs.mergeSort namesLE = ys.mergeSort namesLE := by
  refine List.Perm.eq_of_pairwise (fun _ _ _ _ => namesLE_antisymm)
    (List.pairwise_mergeSort namesLE_trans namesLE_total xs)
    (List.pairwise_mergeSort namesLE_trans namesLE_total ys) ?_
  exact (List.mergeSort_perm xs _).trans (h.trans (List.mergeSort_perm ys _).symm)

/-- The names of the source files below a directory, in order. -/
def sourceNames (d : Disk) (root : Path) (settings : Settings) : List Place :=
  ((entries d root).filter fun names => isSource settings (root.descend names)).mergeSort namesLE

variable {d e : Disk} {there : Path}

theorem mem_sourceNames_iff :
    names ∈ sourceNames d root settings ↔
      names ∈ entries d root ∧ isSource settings (root.descend names) = true := by
  rw [sourceNames, List.mem_mergeSort, List.mem_filter]

/-- The source files below a directory are what their names lead to. -/
theorem sources_eq (hd : d.WellFormed) (hroot : root.isAbsolute = true)
    (hdirectory : d.isDirectory root = true) :
    sources d root settings = .ok ((sourceNames d root settings).map root.descend) := by
  have hfile : d.isFile root = false := Disk.isFile_eq_false_of_isDirectory hdirectory
  have hsorted : (sourceNames d root settings).map root.descend =
      ((found d root).filter (isSource settings)).mergeSort Path.le := by
    rw [found_eq_map_descend, List.filter_map, sourceNames]
    refine List.map_mergeSort fun xs hxs ys hys => ?_
    exact (le_descend hroot (isName_of_mem_entries hd (List.mem_filter.mp hxs).1)
      (isName_of_mem_entries hd (List.mem_filter.mp hys).1)).symm
  rw [sources, hfile, hdirectory, hsorted]
  rfl

/-- Without their directory, source files are named by the names that lead to them. -/
theorem map_below?_sources (hd : d.WellFormed) (hroot : root.isAbsolute = true) :
    ((sourceNames d root settings).map root.descend).map root.below? =
      (sourceNames d root settings).map fun names => some ⟨Text.join '/' names⟩ := by
  rw [List.map_map]
  refine List.map_congr_left fun names hnames => ?_
  have hnames := isName_of_mem_entries hd (mem_sourceNames_iff.mp hnames).1
  exact (Path.spelledBelow_descend hroot hnames).below?_eq

/-- Names are among the source files when their text is. -/
theorem mem_sourceNames_iff_of_isName (hd : d.WellFormed) (h : ∀ s ∈ names, IsName s) :
    names ∈ sourceNames d root settings ↔
      some (⟨Text.join '/' names⟩ : Path) ∈
        (sourceNames d root settings).map fun names => some ⟨Text.join '/' names⟩ := by
  constructor
  · exact fun hmem => List.mem_map_of_mem hmem
  · intro hmem
    obtain ⟨others, hothers, heq⟩ := List.mem_map.mp hmem
    have hothers' := isName_of_mem_entries hd (mem_sourceNames_iff.mp hothers).1
    cases Path.join_inj hothers' h (Path.mk.inj (Option.some.inj heq))
    exact hothers

/-- Two directories with the same entries hold the same source files in the same order if and
only if they admit the same of those entries that pass the filters by themselves. -/
theorem sources_relocated_iff (hd : d.WellFormed) (he : e.WellFormed)
    (hroot : root.isAbsolute = true) (hthere : there.isAbsolute = true)
    (hdirectory : d.isDirectory root = true) (hdirectory' : e.isDirectory there = true)
    (hentries : (entries d root).Perm (entries e there)) (settings : Settings) :
    ∃ ps qs, sources d root settings = .ok ps ∧ sources e there settings = .ok qs ∧
      (ps.map root.below? = qs.map there.below? ↔
        ∀ names ∈ entries d root, Fits settings names →
          (Admits settings root names ↔ Admits settings there names)) := by
  refine ⟨_, _, sources_eq hd hroot hdirectory, sources_eq he hthere hdirectory', ?_⟩
  rw [map_below?_sources hd hroot, map_below?_sources he hthere]
  constructor
  · -- the names of an entry are read off its text, so equal lists have the same entries
    intro heq names hnames hfits
    have hisName := isName_of_mem_entries hd hnames
    have hmem : names ∈ sourceNames d root settings ↔ names ∈ sourceNames e there settings := by
      rw [mem_sourceNames_iff_of_isName hd hisName, heq,
        ← mem_sourceNames_iff_of_isName he hisName]
    rw [mem_sourceNames_iff, mem_sourceNames_iff, isSource_descend_iff hroot hisName,
      isSource_descend_iff hthere hisName] at hmem
    constructor
    · exact fun hadmits => (hmem.mp ⟨hnames, hfits, hadmits⟩).2.2
    · exact fun hadmits => (hmem.mpr ⟨hentries.mem_iff.mp hnames, hfits, hadmits⟩).2.2
  · intro halike
    have hsame : ∀ names ∈ entries d root,
        isSource settings (root.descend names) = isSource settings (there.descend names) := by
      intro names hnames
      have hisName := isName_of_mem_entries hd hnames
      rw [Bool.eq_iff_iff, isSource_descend_iff hroot hisName,
        isSource_descend_iff hthere hisName]
      exact and_congr_right (halike names hnames)
    have hnames : sourceNames d root settings = sourceNames e there settings := by
      unfold sourceNames
      rw [List.filter_congr hsame]
      exact mergeSort_namesLE_eq_of_perm (hentries.filter _)
    rw [hnames]

/-- A directory with one entry has one source file or none. -/
theorem sources_of_entries_eq_singleton (hd : d.WellFormed) (hroot : root.isAbsolute = true)
    (hdirectory : d.isDirectory root = true) (hentries : entries d root = [names])
    (settings : Settings) :
    sources d root settings =
      .ok (if isSource settings (root.descend names) then [root.descend names] else []) := by
  rw [sources_eq hd hroot hdirectory, sourceNames, hentries]
  split <;> simp [*]

/-- The same directory at three places, one of them that of installed packages. -/
def copies : Disk :=
  ⟨[(["node_modules", "a.ts"], .file ⟨.empty, none⟩), (["p", "a.ts"], .file ⟨.empty, none⟩),
    (["q", "a.ts"], .file ⟨.empty, none⟩)], ⟨"/"⟩⟩

theorem wellFormed_copies : copies.WellFormed := ⟨by decide +kernel, by decide⟩

/-- What the files hold does not matter for where they are. -/
theorem exists_copies_eq : ∃ c : Contents, copies =
    ⟨[(["node_modules", "a.ts"], .file c), (["p", "a.ts"], .file c), (["q", "a.ts"], .file c)],
      ⟨"/"⟩⟩ :=
  ⟨⟨.empty, none⟩, rfl⟩

theorem entries_copies_installed : entries copies ⟨"/node_modules"⟩ = [["a.ts"]] := by
  obtain ⟨c, hcopies⟩ := exists_copies_eq
  rw [hcopies]
  exact entries_eq_singleton ["node_modules"] (.file c) (by cbv) (by cbv) rfl rfl (by cbv)

theorem entries_copies_p : entries copies ⟨"/p"⟩ = [["a.ts"]] := by
  obtain ⟨c, hcopies⟩ := exists_copies_eq
  rw [hcopies]
  exact entries_eq_singleton ["p"] (.file c) (by cbv) (by cbv) rfl rfl (by cbv)

theorem entries_copies_q : entries copies ⟨"/q"⟩ = [["a.ts"]] := by
  obtain ⟨c, hcopies⟩ := exists_copies_eq
  rw [hcopies]
  exact entries_eq_singleton ["q"] (.file c) (by cbv) (by cbv) rfl rfl (by cbv)

theorem isDirectory_copies :
    copies.isDirectory ⟨"/node_modules"⟩ = true ∧ copies.isDirectory ⟨"/p"⟩ = true ∧
      copies.isDirectory ⟨"/q"⟩ = true := by
  obtain ⟨c, hcopies⟩ := exists_copies_eq
  rw [hcopies]
  exact ⟨by cbv, by cbv, by cbv⟩

/-- A pattern that stands for no step of two places does not tell them apart. -/
theorem sources_relocated_copies :
    copies.WellFormed ∧ (entries copies ⟨"/p"⟩).Perm (entries copies ⟨"/q"⟩) ∧
      ∃ ps qs, sources copies ⟨"/p"⟩ ⟨some ["dist"], none⟩ = .ok ps ∧
        sources copies ⟨"/q"⟩ ⟨some ["dist"], none⟩ = .ok qs ∧
        ps.map (Path.below? ⟨"/p"⟩) = qs.map (Path.below? ⟨"/q"⟩) := by
  obtain ⟨-, hpDirectory, hqDirectory⟩ := isDirectory_copies
  have hperm : (entries copies ⟨"/p"⟩).Perm (entries copies ⟨"/q"⟩) := by
    rw [entries_copies_p, entries_copies_q]
  have hp : isSource ⟨some ["dist"], none⟩ (Path.descend ⟨"/p"⟩ ["a.ts"]) = true := by
    decide +kernel
  have hq : isSource ⟨some ["dist"], none⟩ (Path.descend ⟨"/q"⟩ ["a.ts"]) = true := by
    decide +kernel
  obtain ⟨ps, qs, hps, hqs, hiff⟩ := sources_relocated_iff wellFormed_copies wellFormed_copies
    (by decide) (by decide) hpDirectory hqDirectory hperm ⟨some ["dist"], none⟩
  refine ⟨wellFormed_copies, hperm, ps, qs, hps, hqs, hiff.mpr ?_⟩
  intro names hnames _
  rw [entries_copies_p] at hnames
  cases List.mem_singleton.mp hnames
  have hname : ∀ s ∈ ["a.ts"], IsName s := by decide +kernel
  exact iff_of_true ((isSource_descend_iff (by decide) hname).mp hp).2
    ((isSource_descend_iff (by decide) hname).mp hq).2

/-- A directory of installed packages has no source files, and neither has one with a step that
a pattern stands for, whatever its copies elsewhere have. -/
theorem not_relocated_into_left_out :
    (entries copies ⟨"/node_modules"⟩ = entries copies ⟨"/q"⟩ ∧
      sources copies ⟨"/node_modules"⟩ .none = .ok [] ∧
      sources copies ⟨"/q"⟩ .none = .ok [⟨"/q/a.ts"⟩]) ∧
    entries copies ⟨"/p"⟩ = entries copies ⟨"/q"⟩ ∧
      sources copies ⟨"/p"⟩ ⟨some ["p"], none⟩ = .ok [] ∧
      sources copies ⟨"/q"⟩ ⟨some ["p"], none⟩ = .ok [⟨"/q/a.ts"⟩] := by
  obtain ⟨hinstalled, hpDirectory, hqDirectory⟩ := isDirectory_copies
  have hsources :=
    sources_of_entries_eq_singleton wellFormed_copies (by decide) hqDirectory entries_copies_q
  have hq : Path.descend ⟨"/q"⟩ ["a.ts"] = ⟨"/q/a.ts"⟩ := by decide +kernel
  refine ⟨⟨?_, ?_, ?_⟩, ?_, ?_, ?_⟩
  · rw [entries_copies_installed, entries_copies_q]
  · have hleft : isSource .none (Path.descend ⟨"/node_modules"⟩ ["a.ts"]) = false := by
      decide +kernel
    rw [sources_of_entries_eq_singleton wellFormed_copies (by decide) hinstalled
      entries_copies_installed, hleft]
    rfl
  · have hkept : isSource .none ⟨"/q/a.ts"⟩ = true := by decide +kernel
    rw [hsources, hq, hkept]
    rfl
  · rw [entries_copies_p, entries_copies_q]
  · have hleft : isSource ⟨some ["p"], none⟩ (Path.descend ⟨"/p"⟩ ["a.ts"]) = false := by
      decide +kernel
    rw [sources_of_entries_eq_singleton wellFormed_copies (by decide) hpDirectory
      entries_copies_p, hleft]
    rfl
  · have hkept : isSource ⟨some ["p"], none⟩ ⟨"/q/a.ts"⟩ = true := by decide +kernel
    rw [hsources, hq, hkept]
    rfl

end Discovery

end ModuleGraph
