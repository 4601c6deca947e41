import ModuleGraph.Proofs.Specifier.Alike
import ModuleGraph.Proofs.Specifier.Directory

/-!
# The spelling of canonical specifiers

Main statement: `normalize_spelling_stable`. The canonical path of a specifier is spelled by climbs
and then names, it never leaves a directory only to go down into it again, and it is its own
canonical path.

## Implementation notes

What the climbs of a spelling leave is read from the steps of the collapsed directory, the
innermost first: once a climb leaves a named directory, so did all climbs before it.
-/

namespace ModuleGraph

namespace Route

/-- The names after what two lists share differ. -/
theorem getElem?_sharedLength_ne {xs ys : List String} {a : String}
    (h : xs[sharedLength xs ys]? = some a) : ys[sharedLength xs ys]? ≠ some a := by
  fun_induction sharedLength xs ys with
  | case1 a as bs ih => exact ih (by simpa using h)
  | case2 x as b bs hne =>
      have hx : x = a := by simpa using h
      simpa using fun hb : b = a => hne (hx.trans hb.symm)
  | case3 xs ys hnone =>
      cases xs with
      | nil => simp at h
      | cons x rest =>
          cases ys with
          | nil => simp
          | cons y rest' => exact absurd rfl (hnone x rest y rest' rfl)

/-- A canonical spelling is the one of a single route. -/
theorem Clean.eq_of_render_eq {r s : Route} (hr : r.Clean) (hs : s.Clean)
    (h : r.render = s.render) : r = s := by
  have hfollow := follow_split_render stay hr
  rw [h, follow_split_render stay hs, follow_stay_segments hs, follow_stay_segments hr] at hfollow
  exact hfollow.symm

/-- On the way to a target the first name is not the one of the directory that was left last. -/
theorem head?_names_relativeTo_ne {base target : Route} (hups : base.ups ≤ target.ups) {k : Nat}
    {left : String} (hk : (base.relativeTo target).ups = k + 1)
    (hleft : base.names.reverse[k]? = some left) :
    (base.relativeTo target).names.head? ≠ some left := by
  have hlt : k < base.names.length := by
    simpa using (List.getElem?_eq_some_iff.mp hleft).1
  rw [List.getElem?_reverse hlt] at hleft
  revert hk
  unfold relativeTo
  split
  · dsimp only
    intro hk
    have hshared : base.names.length - 1 - k = sharedLength base.names target.names := by omega
    rw [hshared] at hleft
    rw [List.head?_drop]
    exact getElem?_sharedLength_ne hleft
  · -- a target that climbs further leaves more than all named directories of the base
    dsimp only
    intro hk
    omega

end Route

namespace Path

theorem components_normal_eq (p : Path) :
    p.normal.components = rootSteps p.isAbsolute ++ p.route.steps := by
  rw [normal_eq, p.clean_route.components_ofBody]

/-- The innermost steps of a collapsed path are the names of its route. -/
theorem getElem?_reverse_components_normal {p : Path} {k : Nat} {s : String}
    (h : p.normal.components.reverse[k]? = some (.name s)) :
    p.route.names.reverse[k]? = some s := by
  rw [components_normal_eq, Route.steps, ← List.append_assoc, List.reverse_append,
    ← List.map_reverse] at h
  by_cases hk : k < p.route.names.length
  · rw [List.getElem?_append_left (by simpa using hk), List.getElem?_map] at h
    obtain ⟨t, ht, hname⟩ := Option.map_eq_some_iff.mp h
    rw [ht, Component.name.inj hname]
  · rw [List.getElem?_append_right (by simpa using hk)] at h
    have hmem := List.mem_reverse.mp (List.mem_of_getElem? h)
    -- before the names there are only climbs and the root
    rcases List.mem_append.mp hmem with hroot | hup
    · revert hroot
      unfold rootSteps
      split <;> simp
    · cases List.eq_of_mem_replicate hup

end Path

namespace Specifier

/-- The text is `./`, or else `../` once for each of the `ups` climbs, and then the names with
slashes between them. -/
structure Spells (ups : Nat) (names : List String) (text : String) : Prop where
  isName : ∀ s ∈ names, Path.IsName s
  text_eq : text = (if ups = 0 then "./" else String.join (List.replicate ups "../")) ++
    Text.join '/' names

/-- If the last climb leaves a named directory, the names do not begin by going down into it
again. -/
def LeavesForGood (directory : Path) (ups : Nat) (names : List String) : Prop :=
  ∀ k left, ups = k + 1 → directory.normal.components.reverse[k]? = some (.name left) →
    names.head? ≠ some left

theorem spells_render {r : Route} (hr : r.Clean) : Spells r.ups r.names r.render := ⟨hr, rfl⟩

/-- A canonical spelling has one number of climbs and one list of names. -/
theorem Spells.eq_route {ups : Nat} {names : List String} {r : Route}
    (h : Spells ups names r.render) (hr : r.Clean) : ups = r.ups ∧ names = r.names := by
  have hclean : (⟨ups, names⟩ : Route).Clean := h.isName
  have hroute : r = ⟨ups, names⟩ := hr.eq_of_render_eq hclean h.text_eq
  rw [hroute]
  exact ⟨rfl, rfl⟩

theorem leavesForGood_routeFrom (raw : String) (file : Path) :
    LeavesForGood file.directory (routeFrom raw file).ups (routeFrom raw file).names := by
  intro k left hk hleft
  exact Route.head?_names_relativeTo_ne (Route.ups_le_ups_follow _ _) hk
    (Path.getElem?_reverse_components_normal hleft)

/-- A canonical path is its own canonical path. -/
theorem normalize_path_normalize {raw : String} (h : Anchor.of raw ≠ .bare) (file : Path)
    (table : Extension.Table) :
    normalize (normalize raw file table).path file table =
      { normalize raw file table with anchor := .relative } := by
  have hpath := path_normalize_of_anchored h file table
  have hanchor : Anchor.of (normalize raw file table).path = .relative := by
    rw [hpath, Route.anchor_render]
  have hsame : (normalize (normalize raw file table).path file table).path =
      (normalize raw file table).path := by
    rw [path_normalize_of_anchored (by rw [hanchor]; exact nofun), hpath,
      routeFrom_eq_of_resolve_eq (resolve_render_routeFrom raw file)]
  have hext := hasExtension_normalize (normalize raw file table).path file table
  rw [hsame, ← hasExtension_normalize] at hext
  rw [Specifier.mk.injEq]
  exact ⟨hanchor, hsame, hext⟩

/-- A bare specifier stands for itself. The path of any other one is spelled by climbs and names
that leave no directory in vain, and normalizing it once more changes only the mark of the
file's own directory. -/
theorem normalize_spelling_stable (raw : String) (file : Path) (table : Extension.Table) :
    let s := normalize raw file table
    let again := normalize s.path file table
    (Anchor.of raw = .bare → s.anchor = .bare ∧ s.path = raw ∧ again = s) ∧
      (Anchor.of raw ≠ .bare →
        (∃ ups names, Spells ups names s.path) ∧
          (∀ ups names, Spells ups names s.path → LeavesForGood file.directory ups names) ∧
          again = { s with anchor := .relative }) := by
  intro s again
  constructor
  · intro hbare
    have hpath : s.path = raw := path_normalize_of_bare hbare file table
    exact ⟨hbare, hpath, congrArg (normalize · file table) hpath⟩
  · intro hraw
    have hpath : s.path = (routeFrom raw file).render := path_normalize_of_anchored hraw file table
    have hclean := clean_routeFrom raw file
    refine ⟨⟨_, _, hpath ▸ spells_render hclean⟩, ?_, normalize_path_normalize hraw file table⟩
    intro ups names hspells
    rw [hpath] at hspells
    obtain ⟨rfl, rfl⟩ := hspells.eq_route hclean
    exact leavesForGood_routeFrom raw file

/-- A specifier that leaves the directory `b` and enters it again loses both steps, and keeps the
climb out of `c`. -/
theorem normalize_spelling_stable_detour :
    let file : Path := ⟨"/a/b/c/m.ts"⟩
    let s := normalize "./../x/../../b/./d//e.svg" file .standard
    Anchor.of "./../x/../../b/./d//e.svg" ≠ .bare ∧ Spells 1 ["d", "e.svg"] s.path ∧
      LeavesForGood file.directory 1 ["d", "e.svg"] ∧ s.path = "../d/e.svg" ∧
      normalize s.path file .standard = s := by
  intro file s
  have hraw : Anchor.of "./../x/../../b/./d//e.svg" ≠ .bare := by decide
  have hs : s = ⟨.relative, "../d/e.svg", true⟩ := by decide +kernel
  have hspells : Spells 1 ["d", "e.svg"] s.path := by
    rw [hs]
    constructor
    · intro t ht
      have ht : t = "d" ∨ t = "e.svg" := by simpa using ht
      rcases ht with rfl | rfl <;> exact ⟨by decide, by decide, by decide⟩
    · decide
  obtain ⟨_, hgood, hagain⟩ := (normalize_spelling_stable _ file .standard).2 hraw
  have hstable : normalize s.path file .standard = { s with anchor := .relative } := hagain
  refine ⟨hraw, hspells, hgood 1 _ hspells, by rw [hs], ?_⟩
  rw [hstable, hs]

end Specifier

end ModuleGraph
