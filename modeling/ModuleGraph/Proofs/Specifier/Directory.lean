import ModuleGraph.Proofs.Path.Enclosing
import ModuleGraph.Proofs.Specifier.Canonical

/-!
# Specifiers that name directories

Main statements: `isDirectory_normalize_iff` and `hasExtension_normalize_of_named`. A specifier
that ends in a name gets the spelling of a directory exactly when what it names is the
directory of its file or encloses it. Its name is the last one of its canonical spelling in
all other cases, so no extension is found that the specifier itself does not have.
-/

namespace ModuleGraph

namespace Text

theorem hasSuffix_append (lead tail : String) : hasSuffix tail (lead ++ tail) = true := by
  simp [hasSuffix]

theorem exists_of_hasSuffix {tail s : String} (h : hasSuffix tail s = true) :
    ∃ lead, s = lead ++ tail := by
  obtain ⟨lead, hlead⟩ := List.isSuffixOf_iff_suffix.mp h
  refine ⟨String.ofList lead, ?_⟩
  rw [← String.toList_inj, ← hlead, String.toList_append, String.toList_ofList]

/-- Nothing follows the last slash of a text that ends in one. -/
theorem getLastD_split_of_hasSuffix {s : String} (h : hasSuffix "/" s = true) :
    (split '/' s).getLastD "" = "" := by
  obtain ⟨lead, rfl⟩ := exists_of_hasSuffix h
  have hcut : lead ++ "/" = lead ++ String.singleton '/' ++ "" := by simp
  rw [hcut, split_append_singleton, split_empty, List.getLastD_concat]

end Text

namespace Route

/-- The segments of a canonical spelling: a dot or climbs, then those of the names. -/
theorem split_render (r : Route) :
    Text.split '/' r.render =
      (if r.ups = 0 then ["."] else List.replicate r.ups "..") ++
        Text.split '/' (Text.join '/' r.names) := by
  unfold render
  split
  · have hcut : "./" ++ Text.join '/' r.names =
        "." ++ String.singleton '/' ++ Text.join '/' r.names := rfl
    have hdot : Text.split '/' "." = ["."] := by decide
    rw [hcut, Text.split_append_singleton, hdot]
  · rw [split_climbs_append]

/-- A canonical spelling ends in the last name of its route, and in nothing without names. -/
theorem Clean.getLastD_split_render {r : Route} (hr : r.Clean) :
    (Text.split '/' r.render).getLastD "" = r.names.getLastD "" := by
  rw [split_render]
  by_cases hnil : r.names = []
  · rw [hnil, Text.split_join_nil, List.getLastD_concat]
    rfl
  · rw [Text.split_join hnil fun s hs => (hr s hs).whole, List.getLastD_eq_getLast?,
      List.getLastD_eq_getLast?, List.getLast?_append, List.getLast?_eq_some_getLast hnil,
      Option.some_or]

/-- The last name of a clean route is not empty. -/
theorem Clean.getLastD_ne_empty {r : Route} (hr : r.Clean) (hne : r.names ≠ []) :
    r.names.getLastD "" ≠ "" := by
  intro h
  have hmem : r.names.getLast hne ∈ r.names := List.getLast_mem hne
  rw [List.getLastD_eq_getLast?, List.getLast?_eq_some_getLast hne] at h
  have hidle := (hr _ hmem).not_idle
  rw [Option.getD_some] at h
  rw [h] at hidle
  cases hidle

/-- A canonical spelling ends in a slash exactly when its route has no names. -/
theorem Clean.hasSuffix_render_iff {r : Route} (hr : r.Clean) :
    Text.hasSuffix "/" r.render = true ↔ r.names = [] := by
  constructor
  · intro h
    have hlast := Text.getLastD_split_of_hasSuffix h
    rw [hr.getLastD_split_render] at hlast
    by_cases hnil : r.names = []
    · exact hnil
    · exact absurd hlast (hr.getLastD_ne_empty hnil)
  · intro hnil
    have hempty : Text.join '/' [] = "" := by decide
    unfold render
    rw [hnil, hempty, String.append_empty]
    cases r.ups with
    | zero => decide
    | succ k =>
        have hclimbs : String.join (List.replicate (k + 1) "../") =
            String.join (List.replicate k "../") ++ ".." ++ "/" := by
          rw [List.replicate_succ', String.join_append, String.append_assoc]
          rfl
        rw [if_neg (Nat.succ_ne_zero k), hclimbs]
        exact Text.hasSuffix_append _ _

/-- All of `ys` is shared with `xs` when `xs` begins with it. -/
theorem length_le_sharedLength_iff (xs ys : List String) :
    ys.length ≤ sharedLength xs ys ↔ ys <+: xs := by
  fun_induction sharedLength xs ys with
  | case1 a as bs ih => simpa [List.cons_prefix_cons] using ih
  | case2 a as b bs hne => simp [List.cons_prefix_cons, Ne.symm hne]
  | case3 xs ys h =>
      cases ys with
      | nil => simp
      | cons b bs =>
          cases xs with
          | nil => simp
          | cons a as => exact absurd rfl (h a as b bs rfl)

/-- No name is left on the way to a target with names exactly when the target is on the way
to the base. -/
theorem names_relativeTo_eq_nil_iff {base target : Route} (hne : target.names ≠ []) :
    (base.relativeTo target).names = [] ↔
      target.ups = base.ups ∧ target.names <+: base.names := by
  unfold relativeTo
  split
  · rename_i hups
    dsimp only
    rw [List.drop_eq_nil_iff, length_le_sharedLength_iff, hups]
    simp
  · rename_i hups
    exact iff_of_false hne fun h => hups h.1.symm

/-- The last name of a target stays the last one on the way to it. -/
theorem getLastD_names_relativeTo {base target : Route}
    (hne : (base.relativeTo target).names ≠ []) :
    (base.relativeTo target).names.getLastD "" = target.names.getLastD "" := by
  revert hne
  unfold relativeTo
  split
  · dsimp only
    intro hne
    rw [Ne, List.drop_eq_nil_iff] at hne
    rw [List.getLastD_eq_getLast?, List.getLastD_eq_getLast?, List.getLast?_drop, if_neg hne]
  · intro _
    rfl

end Route

namespace Specifier

/-- The last segment of a text, after its last slash. -/
def lastSegment (raw : String) : String := (Text.split '/' raw).getLastD ""

/-- The text ends in a name: its last segment is neither empty nor `.` nor `..`. -/
def EndsInName (raw : String) : Prop :=
  lastSegment raw ≠ "" ∧ lastSegment raw ≠ "." ∧ lastSegment raw ≠ ".."

/-- The extension of a text is the one of its last segment. -/
theorem extensionIn_congr {x y : String} (h : lastSegment x = lastSegment y) :
    extensionIn x = extensionIn y := by
  unfold lastSegment at h
  unfold extensionIn
  rw [h]

variable {raw : String}

/-- A text that ends in a name leads to a route that ends in it. -/
theorem EndsInName.getLastD_names_follow (h : EndsInName raw) (r : Route) :
    (r.follow (Text.split '/' raw)).names ≠ [] ∧
      (r.follow (Text.split '/' raw)).names.getLastD "" = lastSegment raw := by
  have hne := Text.split_ne_nil '/' raw
  have hlast : (Text.split '/' raw).getLast hne = lastSegment raw := by
    rw [lastSegment, List.getLastD_eq_getLast?, List.getLast?_eq_some_getLast hne,
      Option.getD_some]
  have hname : Path.IsName (lastSegment raw) := by
    obtain ⟨hempty, hdot, hup⟩ := h
    refine ⟨by simp [Path.isIdle, hempty, hdot], hup, ?_⟩
    rw [← hlast]
    exact Text.not_mem_of_mem_split (List.getLast_mem hne)
  rw [← List.dropLast_concat_getLast hne, hlast, Route.follow_append, Route.follow_cons,
    Route.step_of_isName _ hname, Route.follow_nil]
  simp

theorem clean_routeFrom (raw : String) (file : Path) : (routeFrom raw file).Clean :=
  (file.directory.clean_route.follow_split raw).relativeTo _

theorem isDirectory_normalize (hraw : Anchor.of raw ≠ .bare) (file : Path)
    (table : Extension.Table) :
    (normalize raw file table).isDirectory = true ↔ (routeFrom raw file).names = [] := by
  have hbare : (normalize raw file table).isBare = false := by simp [isBare, hraw]
  rw [isDirectory, hbare, path_normalize_of_anchored hraw, Bool.not_false, Bool.true_and]
  exact (clean_routeFrom raw file).hasSuffix_render_iff

theorem names_routeFrom_eq_nil_iff (h : EndsInName raw) (file : Path) :
    (routeFrom raw file).names = [] ↔
      (file.directory.resolve raw).Encloses file.directory.normal := by
  have hne := (h.getLastD_names_follow (directoryRoute file)).1
  rw [Path.resolve_eq, Path.normal_eq, Path.encloses_ofBody_iff _
    (file.directory.clean_route.follow_split raw) file.directory.clean_route hne]
  exact Route.names_relativeTo_eq_nil_iff hne

/-- A specifier that ends in a name is spelled as a directory exactly when it names the
directory of its file or one that this lies in. -/
theorem isDirectory_normalize_iff (hraw : Anchor.of raw ≠ .bare) (h : EndsInName raw)
    (file : Path) (table : Extension.Table) :
    (normalize raw file table).isDirectory = true ↔
      (file.directory.resolve raw).Encloses file.directory.normal := by
  rw [isDirectory_normalize hraw, names_routeFrom_eq_nil_iff h]

/-- A specifier that ends in a name without a known extension does not get one. -/
theorem hasExtension_normalize_of_named (hraw : Anchor.of raw ≠ .bare) (h : EndsInName raw)
    (file : Path) {table : Extension.Table}
    (hext : (extensionIn raw).any table.recognizes = false) :
    (normalize raw file table).hasExtension = false := by
  have hpath := path_normalize_of_anchored hraw file table
  have hlast := (clean_routeFrom raw file).getLastD_split_render
  have hdecided : (normalize raw file table).hasExtension =
      (extensionIn (routeFrom raw file).render).any table.recognizes := by
    simp [normalize, normalizeFrom, routeFrom, hraw]
  rw [hdecided]
  by_cases hnil : (routeFrom raw file).names = []
  · have hnone : extensionIn (routeFrom raw file).render = extensionIn "" := by
      apply extensionIn_congr
      rw [lastSegment, hlast, hnil]
      decide
    have hempty : extensionIn "" = none := by decide
    rw [hnone, hempty]
    rfl
  · have hsame : extensionIn (routeFrom raw file).render = extensionIn raw := by
      apply extensionIn_congr
      rw [lastSegment, hlast]
      calc
        (routeFrom raw file).names.getLastD "" =
            ((directoryRoute file).follow (Text.split '/' raw)).names.getLastD "" :=
          Route.getLastD_names_relativeTo hnil
        _ = lastSegment raw := (h.getLastD_names_follow (directoryRoute file)).2
    rw [hsame, hext]

end Specifier

end ModuleGraph
