import ModuleGraph.Proofs.Extension.Keys
import ModuleGraph.Proofs.Extraction.Candidates
import ModuleGraph.Proofs.Text.Cut

/-!
# The spelling of candidates

Main statements: `Request.collapsed_of_mem_candidates` and `Request.nodup_candidates`. Candidates
are written by putting an extension behind a collapsed path, and yet each of them is collapsed
again: it is spelled from a route. No route is met twice, because no extension is, and an index
file lies one name deeper than the files that are named like its directory.
-/

namespace ModuleGraph

namespace Path

/-- A name with an extension behind it is a name. -/
theorem IsName.withExtension {s ext : String} (hs : IsName s) (hext : '/' ∉ ext.toList) :
    IsName (s ++ "." ++ ext) := by
  have hlist : (s ++ "." ++ ext).toList = s.toList ++ '.' :: ext.toList := by simp
  obtain ⟨hempty, hdot⟩ : s ≠ "" ∧ s ≠ "." := by simpa [isIdle] using hs.not_idle
  obtain ⟨c, rest, hchars⟩ : ∃ c rest, s.toList = c :: rest :=
    List.exists_cons_of_ne_nil fun h => hempty (String.toList_inj.mp h)
  have hne : ∀ t : String, t.toList.length < 2 → s ++ "." ++ ext ≠ t := by
    rintro t ht rfl
    rw [hlist, hchars, List.length_append, List.length_cons, List.length_cons] at ht
    omega
  refine ⟨?_, ?_, ?_⟩
  · simp only [isIdle, Bool.or_eq_false_iff, beq_eq_false_iff_ne]
    exact ⟨hne "" (by decide), hne "." (by decide)⟩
  · intro hup
    rw [← String.toList_inj, hlist, hchars] at hup
    obtain ⟨hc, hrest⟩ := List.cons.inj hup
    have hnil : rest = [] := by
      cases rest with
      | nil => rfl
      | cons d more => simp at hrest
    apply hdot
    rw [← String.toList_inj, hchars, hc, hnil]
    rfl
  · rw [hlist]
    simpa using ⟨hs.whole, hext⟩

theorem isAbsolute_of_isName {s : String} (hs : IsName s) : (⟨s⟩ : Path).isAbsolute = false := by
  apply Bool.eq_false_iff.mpr
  intro habs
  obtain ⟨rest, hrest⟩ := List.isPrefixOf_iff_prefix.mp habs
  apply hs.whole
  rw [← hrest]
  exact List.mem_cons_self

/-- A collapsed path that has segments ends in one that is not empty. -/
theorem getLastD_segments_ofBody_ne (absolute : Bool) {r : Route} (hr : r.Clean)
    (hne : r.segments ≠ []) : (ofBody absolute r.segments).segments.getLastD "" ≠ "" := by
  have hsplit := Text.split_join hne fun _ => hr.whole_of_mem_segments
  have hlast : (ofBody absolute r.segments).segments.getLastD "" = r.segments.getLast hne := by
    cases absolute with
    | true =>
        rw [segments_ofBody_true, hsplit]
        simp [List.getLastD_eq_getLast?, List.getLast?_cons, List.getLast?_eq_some_getLast hne]
    | false =>
        rw [segments_ofBody_false, hsplit]
        simp [List.getLastD_eq_getLast?, List.getLast?_eq_some_getLast hne]
  intro hempty
  apply empty_not_mem_segments hr
  rw [← hempty, hlast]
  exact List.getLast_mem hne

/-- A name is written behind a collapsed path as it is behind the names of its route. -/
theorem join_ofBody (absolute : Bool) {r : Route} (hr : r.Clean) {s : String} (hs : IsName s) :
    (ofBody absolute r.segments).join ⟨s⟩ =
      ofBody absolute (⟨r.ups, r.names ++ [s]⟩ : Route).segments := by
  have hsegs : (⟨r.ups, r.names ++ [s]⟩ : Route).segments = r.segments ++ [s] := by
    rw [Route.segments, Route.segments, List.append_assoc]
  rw [join, isAbsolute_of_isName hs, if_neg Bool.false_ne_true, hsegs]
  by_cases hnil : r.segments = []
  · rw [hnil]
    cases absolute <;> rfl
  · have hlast := getLastD_segments_ofBody_ne absolute hr hnil
    have hempty : (ofBody absolute r.segments).text ≠ "" := by
      intro h
      rw [segments, h] at hlast
      exact hlast (by decide)
    have hsuffix : Text.hasSuffix "/" (ofBody absolute r.segments).text = false :=
      Bool.eq_false_iff.mpr fun h => hlast (Text.getLastD_split_of_hasSuffix h)
    rw [if_neg (by simp [hempty, hsuffix]), ofBody, ofBody,
      Text.join_append '/' hnil (List.cons_ne_nil s []), Text.join_singleton]
    simp only [mk.injEq, String.append_assoc]
    rfl

theorem collapsed_ofBody (absolute : Bool) {r : Route} (hr : r.Clean) :
    (ofBody absolute r.segments).Collapsed := by
  rw [Collapsed, normal_eq, isAbsolute_ofBody absolute hr, route_ofBody absolute hr]

end Path

namespace Route

theorem exists_eq_of_names_ne_nil {r : Route} (h : r.names ≠ []) :
    ∃ ups names s, r = ⟨ups, names ++ [s]⟩ := by
  obtain ⟨ups, names⟩ := r
  obtain hnil | ⟨init, s, hnames⟩ := names.eq_nil_or_concat
  · exact absurd hnil h
  · exact ⟨ups, init, s, by rw [hnames, List.concat_eq_append]⟩

/-- The last name may be given an extension. -/
theorem Clean.withExtension {ups : Nat} {names : List String} {s ext : String}
    (h : (⟨ups, names ++ [s]⟩ : Route).Clean) (hext : '/' ∉ ext.toList) :
    (⟨ups, names ++ [s ++ "." ++ ext]⟩ : Route).Clean := by
  intro t ht
  rcases List.mem_append.mp ht with ht | ht
  · exact h t (List.mem_append_left _ ht)
  · have hs : Path.IsName s := h s (by simp)
    rw [List.mem_singleton.mp ht]
    exact hs.withExtension hext

end Route

namespace Request

/-- An extension is written behind the last name. -/
theorem withSuffix_ofBody (absolute : Bool) (ups : Nat) (names : List String) (s ext : String) :
    withSuffix (Path.ofBody absolute (⟨ups, names ++ [s]⟩ : Route).segments) ext =
      Path.ofBody absolute (⟨ups, names ++ [s ++ "." ++ ext]⟩ : Route).segments := by
  simp only [withSuffix, Path.ofBody, Route.segments, ← List.append_assoc, Text.join_concat_append,
    ← String.append_assoc]

/-- Behind a collapsed path that ends in a name, different extensions make the paths of different
routes with equally many names. -/
theorem exists_routes_withSuffix (absolute : Bool) {r : Route} (hr : r.Clean)
    (hne : r.names ≠ []) {exts : List String} (hnodup : exts.Nodup)
    (hexts : ∀ ext ∈ exts, '/' ∉ ext.toList) :
    ∃ routes : List Route, routes.Nodup ∧
      (∀ q ∈ routes, q.Clean ∧ q.names.length = r.names.length) ∧
      exts.map (withSuffix (Path.ofBody absolute r.segments)) =
        routes.map fun q => Path.ofBody absolute q.segments := by
  obtain ⟨ups, init, s, rfl⟩ := Route.exists_eq_of_names_ne_nil hne
  refine ⟨exts.map fun ext => ⟨ups, init ++ [s ++ "." ++ ext]⟩, ?_, ?_, ?_⟩
  · apply List.Nodup.map _ hnodup
    intro ext ext' heq
    simpa using heq
  · intro q hq
    obtain ⟨ext, hext, rfl⟩ := List.mem_map.mp hq
    exact ⟨hr.withExtension (hexts ext hext), by simp⟩
  · rw [List.map_map]
    exact List.map_congr_left fun ext _ => withSuffix_ofBody absolute ups init s ext

end Request

namespace Specifier

/-- A target without names has none on the way to it either. -/
theorem names_follow_ne_nil {raw : String} {file : Path} (h : (routeFrom raw file).names ≠ []) :
    ((directoryRoute file).follow (Text.split '/' raw)).names ≠ [] := by
  intro hnil
  apply h
  rw [routeFrom, wayFrom, Route.relativeTo]
  split
  · rw [hnil]
    exact List.drop_nil
  · exact hnil

variable {file : Path} {s : Specifier} {t : Extension.Table}

/-- A specifier that was normalized in a file leads along a route from where the file is, and to a
name unless it is a directory. -/
theorem NormalizedIn.exists_route (hs : s.NormalizedIn file t) (hbare : s.isBare = false) :
    ∃ r : Route, r.Clean ∧ (s.isDirectory = false → r.names ≠ []) ∧
      file.directory.resolve s.path = Path.ofBody file.directory.isAbsolute r.segments := by
  obtain ⟨raw, rfl⟩ := hs
  have hraw : Anchor.of raw ≠ .bare := of_decide_eq_false hbare
  refine ⟨(directoryRoute file).follow (Text.split '/' raw),
    file.directory.clean_route.follow_split raw, ?_, ?_⟩
  · intro hfile
    apply names_follow_ne_nil
    rw [Ne, ← isDirectory_normalize hraw file t, hfile]
    exact Bool.false_ne_true
  · rw [path_normalize_of_anchored hraw, resolve_render_routeFrom, Path.resolve_eq]
    rfl

end Specifier

namespace Request

variable {file : Path} {s : Specifier} {t table : Extension.Table}
  (hs : s.NormalizedIn file t) (hbare : s.isBare = false) (hnodup : table.modules.Nodup)
  (hexts : ∀ ext ∈ table.modules, '/' ∉ ext.toList)
include hs hbare hnodup hexts

/-- The candidates of a specifier that was normalized in the file are spelled from different
routes, as long as no extension is met twice or has a slash in it. -/
theorem exists_routes_candidates :
    ∃ routes : List Route, routes.Nodup ∧ (∀ r ∈ routes, r.Clean) ∧
      candidates file s table =
        routes.map fun r => Path.ofBody file.directory.isAbsolute r.segments := by
  obtain ⟨target, hclean, hnames, htarget⟩ := hs.exists_route hbare
  have hindex : Path.IsName "index" := ⟨by decide, by decide, by decide⟩
  rw [candidates, htarget, Path.join_ofBody _ hclean hindex]
  have hbelow : (⟨target.ups, target.names ++ ["index"]⟩ : Route).Clean :=
    Route.step_of_isName target hindex ▸ hclean.step hindex.whole
  obtain ⟨indexes, hindexes, hdeeper, hindexPaths⟩ :=
    exists_routes_withSuffix file.directory.isAbsolute hbelow (by simp) hnodup hexts
  rw [hindexPaths]
  split
  · exact ⟨[target], List.nodup_singleton target,
      fun r hr => List.mem_singleton.mp hr ▸ hclean, rfl⟩
  · split
    · exact ⟨indexes, hindexes, fun r hr => (hdeeper r hr).1, rfl⟩
    · rename_i hfile
      obtain ⟨files, hfiles, hlevel, hfilePaths⟩ :=
        exists_routes_withSuffix file.directory.isAbsolute hclean
          (hnames (Bool.eq_false_iff.mpr hfile)) hnodup hexts
      refine ⟨files ++ indexes, ?_, ?_, ?_⟩
      · -- an index file lies one name deeper, so it is none of the files beside the target
        apply List.nodup_append'.mpr
        refine ⟨hfiles, hindexes, ?_⟩
        intro r hr hr'
        have hlen := (hdeeper r hr').2
        rw [(hlevel r hr).2, List.length_append, List.length_singleton] at hlen
        omega
      · intro r hr
        rcases List.mem_append.mp hr with hr | hr
        · exact (hlevel r hr).1
        · exact (hdeeper r hr).1
      · rw [hfilePaths, List.map_append]

/-- Every candidate is collapsed. -/
theorem collapsed_of_mem_candidates {c : Path} (hc : c ∈ candidates file s table) :
    c.Collapsed := by
  obtain ⟨routes, _, hclean, heq⟩ := exists_routes_candidates hs hbare hnodup hexts
  rw [heq] at hc
  obtain ⟨r, hr, rfl⟩ := List.mem_map.mp hc
  exact Path.collapsed_ofBody _ (hclean r hr)

/-- No candidate is listed twice. -/
theorem nodup_candidates : (candidates file s table).Nodup := by
  obtain ⟨routes, hroutes, hclean, heq⟩ := exists_routes_candidates hs hbare hnodup hexts
  rw [heq]
  apply List.Nodup.map_on _ hroutes
  intro r hr q hq hpath
  exact ((Path.ofBody_inj (hclean r hr) (hclean q hq)).mp hpath).2

end Request

end ModuleGraph
