import ModuleGraph.Proofs.Graph.Lookup

/-!
# Targets that were not found

Main statement: `Graph.missing_target_eq_iff`. A target that was not found is known by the first
path under which it was looked for. Two specifiers that name a file without its extension have the
same such path exactly when they lead to the same place, whatever the first extension is; but when
no extension is one of modules there is no such path at all, and all of them have one node.

## Implementation notes

An extension may have slashes in it, and what follows the first of them takes the same steps behind
every target. So the targets are told apart by what is in front of it, which is a name again.
-/

namespace ModuleGraph

namespace Request

variable {a b : Bool} {r q : Route} {ext : String}

/-- What follows the first slash of an extension takes its steps behind the path with what is in
front of it. -/
theorem components_withSuffix {ups : Nat} {names : List String} {s e : String}
    {es : List String} (hext : Text.split '/' ext = e :: es)
    (hr : (⟨ups, names ++ [s ++ "." ++ e]⟩ : Route).Clean) :
    (withSuffix (Path.ofBody a (⟨ups, names ++ [s]⟩ : Route).segments) ext).components =
      (Path.ofBody a (⟨ups, names ++ [s ++ "." ++ e]⟩ : Route).segments).components ++
        Path.stepsOf es := by
  have hwhole : ∀ t ∈ es, '/' ∉ t.toList := fun t ht =>
    Text.not_mem_of_mem_split (hext ▸ List.mem_cons_of_mem e ht)
  have hpath : withSuffix (Path.ofBody a (⟨ups, names ++ [s]⟩ : Route).segments) ext =
      Path.ofBody a ((⟨ups, names ++ [s ++ "." ++ e]⟩ : Route).segments ++ es) := by
    rw [← Text.join_split '/' ext, hext]
    simp only [withSuffix, Path.ofBody, Route.segments, ← List.append_assoc, ← List.append_cons,
      Text.join_append_cons, Text.join_singleton, ← String.append_assoc]
  rw [hpath, hr.components_ofBody_append a (by simp [Route.segments]) hwhole,
    hr.components_ofBody]

/-- An extension leads from two collapsed paths that end in names to the same only if the paths
are the same. -/
theorem ofBody_eq_of_components_withSuffix_eq (hr : r.Clean) (hq : q.Clean) (hrne : r.names ≠ [])
    (hqne : q.names ≠ [])
    (h : (withSuffix (Path.ofBody a r.segments) ext).components =
      (withSuffix (Path.ofBody b q.segments) ext).components) :
    Path.ofBody a r.segments = Path.ofBody b q.segments := by
  obtain ⟨e, es, hext⟩ := List.exists_cons_of_ne_nil (Text.split_ne_nil '/' ext)
  have he : '/' ∉ e.toList := Text.not_mem_of_mem_split (hext ▸ List.mem_cons_self)
  obtain ⟨ups, names, s, rfl⟩ := Route.exists_eq_of_names_ne_nil hrne
  obtain ⟨ups', names', s', rfl⟩ := Route.exists_eq_of_names_ne_nil hqne
  have hr' := hr.withExtension he
  have hq' := hq.withExtension he
  -- the steps behind the first slash of the extension are the same on both sides
  rw [components_withSuffix hext hr', components_withSuffix hext hq'] at h
  have hsame := (Path.collapsed_ofBody a hr').eq_of_same (Path.collapsed_ofBody b hq')
    (Path.same_iff.mpr (List.append_cancel_right h))
  obtain ⟨habs, hroute⟩ := (Path.ofBody_inj hr' hq').mp hsame
  rw [Route.mk.injEq, List.append_singleton_inj] at hroute
  obtain ⟨hups, hnames, hs⟩ := hroute
  rw [String.append_left_inj, String.append_left_inj] at hs
  rw [habs, hups, hnames, hs]

end Request

/-- The specifier names a file relative to its own one, and leaves out the extension. -/
structure Specifier.OmitsExtension (s : Specifier) : Prop where
  anchored : s.isBare = false
  file : s.isDirectory = false
  extension : s.hasExtension = false

instance (s : Specifier) : Decidable s.OmitsExtension :=
  decidable_of_iff (s.isBare = false ∧ s.isDirectory = false ∧ s.hasExtension = false)
    ⟨fun ⟨h, h', h''⟩ => ⟨h, h', h''⟩, fun ⟨h, h', h''⟩ => ⟨h, h', h''⟩⟩

namespace Request

/-- The first path under which the file of a specifier is looked for, the empty path if there is
none. -/
def firstCandidate (file : Path) (s : Specifier) (table : Extension.Table) : Path :=
  (candidates file s table).head?.getD .empty

variable {file file' : Path} {s s' : Specifier} {t t' table : Extension.Table}

theorem firstCandidate_of_modules_eq_nil (hs : s.OmitsExtension) (h : table.modules = []) :
    firstCandidate file s table = .empty := by
  rw [firstCandidate, candidates, hs.extension, hs.file, h]
  rfl

theorem firstCandidate_of_modules_eq_cons (hs : s.OmitsExtension) {ext : String}
    {rest : List String} (h : table.modules = ext :: rest) :
    firstCandidate file s table = withSuffix (file.directory.resolve s.path) ext := by
  rw [firstCandidate, candidates, hs.extension, hs.file, h]
  rfl

/-- The first candidates of two specifiers are the same when the specifiers lead to the same place,
and when there are none. -/
theorem components_firstCandidate_eq_iff (hs : s.OmitsExtension) (hs' : s'.OmitsExtension)
    (hnormal : s.NormalizedIn file t) (hnormal' : s'.NormalizedIn file' t') :
    (firstCandidate file s table).components = (firstCandidate file' s' table).components ↔
      file.directory.resolve s.path = file'.directory.resolve s'.path ∨ table.modules = [] := by
  cases hmodules : table.modules with
  | nil =>
      rw [firstCandidate_of_modules_eq_nil hs hmodules,
        firstCandidate_of_modules_eq_nil hs' hmodules]
      exact iff_of_true rfl (Or.inr rfl)
  | cons ext rest =>
      obtain ⟨r, hr, hne, htarget⟩ := hnormal.exists_route hs.anchored
      obtain ⟨r', hr', hne', htarget'⟩ := hnormal'.exists_route hs'.anchored
      rw [firstCandidate_of_modules_eq_cons hs hmodules,
        firstCandidate_of_modules_eq_cons hs' hmodules, htarget, htarget',
        or_iff_left (List.cons_ne_nil ext rest)]
      constructor
      · exact ofBody_eq_of_components_withSuffix_eq hr hr' (hne hs.file) (hne' hs'.file)
      · intro h
        rw [h]

end Request

/-- A target that was not found is known by the first path under which it was looked for. -/
theorem Edge.steps_of_target_eq_unresolved {e : Edge} (hbare : e.specifier.isBare = false)
    {files : List Path} {table : Extension.Table} {resolver : Resolver} {steps : List Component}
    (h : (e.target files table resolver).identity = .unresolved steps) :
    steps = (Request.firstCandidate e.file e.specifier table).components := by
  unfold target at h
  split at h
  · rw [e.request_of_not_isBare hbare, Request.target] at h
    split at h
    · cases h
    · exact (NodeIdentity.unresolved.inj h).symm
  · split at h
    · cases h
    · rw [hbare, if_neg Bool.false_ne_true] at h
      cases h

namespace Graph

variable {xs : List Extraction} {table : Extension.Table} {resolver : Resolver}

/-- An edge that is not bare and not found leads to the node of its first candidate. -/
theorem identityAt_of_isUnresolved (hxs : ∀ x ∈ xs, x.FromItems) {p : Path × Edge}
    {d : Dependency}
    (hpd : (p, d) ∈ (Extraction.fileEdges xs).zip (ofExtractions xs table resolver).dependencies)
    (hbare : p.2.specifier.isBare = false)
    (hd : (ofExtractions xs table resolver).nodes[d.target]?.any Node.isUnresolved = true) :
    (∃ t, p.2.specifier.NormalizedIn p.1 t) ∧
      (ofExtractions xs table resolver).identityAt d.target =
        some (.unresolved (Request.firstCandidate p.1 p.2.specifier table).components) := by
  have hlinks := forall₂_target_ofExtractions hxs table resolver
  obtain ⟨⟨hfile, hnormal⟩, htarget⟩ := (List.forall₂_iff_zip.mp hlinks).2 hpd
  obtain ⟨steps, hsteps⟩ := any_isUnresolved_iff.mp hd
  have hid := Option.some.inj (htarget.symm.trans hsteps)
  rw [hsteps, Edge.steps_of_target_eq_unresolved hbare hid, hfile]
  exact ⟨hnormal, rfl⟩

/-- Two edges that omit their extensions and are not found lead to one node exactly when they lead
to one path, or when no extension is one of modules. -/
theorem missing_target_eq_iff (hxs : ∀ x ∈ xs, x.FromItems) (table : Extension.Table)
    (resolver : Resolver) :
    let g := ofExtractions xs table resolver
    let links := (Extraction.fileEdges xs).zip g.dependencies
    ∀ p c, (p, c) ∈ links → ∀ q d, (q, d) ∈ links →
      p.2.specifier.OmitsExtension → q.2.specifier.OmitsExtension →
      g.nodes[c.target]?.any Node.isUnresolved = true →
      g.nodes[d.target]?.any Node.isUnresolved = true →
      (c.target = d.target ↔
        p.1.directory.resolve p.2.specifier.path = q.1.directory.resolve q.2.specifier.path ∨
          table.modules = []) := by
  intro g links p c hpc q d hqd hp hq hc hd
  obtain ⟨_, _, hbuilt⟩ := exists_built xs table resolver
  obtain ⟨⟨t, hnormal⟩, hc'⟩ := identityAt_of_isUnresolved hxs hpc hp.anchored hc
  obtain ⟨⟨t', hnormal'⟩, hd'⟩ := identityAt_of_isUnresolved hxs hqd hq.anchored hd
  rw [hbuilt.grown.number_eq_iff hc' hd', NodeIdentity.unresolved.injEq]
  exact Request.components_firstCandidate_eq_iff hp hq hnormal hnormal'

/-- Two modules in different directories that import one missing file, and the first of them also
another one. -/
def bereft : List Extraction :=
  Extraction.readAll
    [(⟨"src/m.ts"⟩, importsOf ["./gone", "../lib/gone"]), (⟨"lib/n.ts"⟩, importsOf ["../src/gone"])]
    typescript

/-- The two missing files have one node each. -/
theorem missing_target_eq_iff_bereft :
    let g := ofExtractions bereft typescript fun _ _ => .nothing
    let links := (Extraction.fileEdges bereft).zip g.dependencies
    (∀ x ∈ bereft, x.FromItems) ∧
      links.map (fun l => (l.1.2.specifier.path, l.2.target)) =
        [("./gone", 2), ("../lib/gone", 3), ("../src/gone", 2)] ∧
      ∀ p c, (p, c) ∈ links → ∀ q d, (q, d) ∈ links →
        p.2.specifier.OmitsExtension → q.2.specifier.OmitsExtension →
        g.nodes[c.target]?.any Node.isUnresolved = true →
        g.nodes[d.target]?.any Node.isUnresolved = true →
        (c.target = d.target ↔
          p.1.directory.resolve p.2.specifier.path = q.1.directory.resolve q.2.specifier.path ∨
            typescript.modules = []) := by
  intro g links
  have hxs : ∀ x ∈ bereft, x.FromItems := Extraction.fromItems_of_mem_readAll
  have htargets : links.map (fun l => (l.1.2.specifier.path, l.2.target)) =
      [("./gone", 2), ("../lib/gone", 3), ("../src/gone", 2)] := by
    decide +kernel
  exact ⟨hxs, htargets, missing_target_eq_iff hxs typescript fun _ _ => .nothing⟩

/-- A module that imports two missing files, when no extension is known. -/
def forlorn : List Extraction := Extraction.readAll [(⟨"a.ts"⟩, importsOf ["./x", "./y"])] .empty

/-- Without an extension of modules all missing files have one node. -/
theorem not_told_apart_without_modules :
    ¬ ∀ xs : List Extraction, (∀ x ∈ xs, x.FromItems) →
      ∀ (table : Extension.Table) (resolver : Resolver),
        let g := ofExtractions xs table resolver
        let links := (Extraction.fileEdges xs).zip g.dependencies
        ∀ p c, (p, c) ∈ links → ∀ q d, (q, d) ∈ links →
          p.2.specifier.OmitsExtension → q.2.specifier.OmitsExtension →
          g.nodes[c.target]?.any Node.isUnresolved = true →
          g.nodes[d.target]?.any Node.isUnresolved = true →
          (c.target = d.target ↔
            p.1.directory.resolve p.2.specifier.path =
              q.1.directory.resolve q.2.specifier.path) := by
  intro h
  let g := ofExtractions forlorn .empty fun _ _ => .nothing
  let links := (Extraction.fileEdges forlorn).zip g.dependencies
  have hxs : ∀ x ∈ forlorn, x.FromItems := Extraction.fromItems_of_mem_readAll
  have hmerged : ∃ l ∈ links, ∃ m ∈ links,
      l.1.2.specifier.OmitsExtension ∧ m.1.2.specifier.OmitsExtension ∧
        g.nodes[l.2.target]?.any Node.isUnresolved = true ∧
        g.nodes[m.2.target]?.any Node.isUnresolved = true ∧ l.2.target = m.2.target ∧
        l.1.1.directory.resolve l.1.2.specifier.path ≠
          m.1.1.directory.resolve m.1.2.specifier.path := by
    decide +kernel
  obtain ⟨⟨p, c⟩, hpc, ⟨q, d⟩, hqd, hp, hq, hc, hd, htarget, hpath⟩ := hmerged
  exact hpath ((h forlorn hxs .empty _ p c hpc q d hqd hp hq hc hd).mp htarget)

end Graph

end ModuleGraph
