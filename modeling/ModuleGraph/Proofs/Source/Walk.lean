import ModuleGraph.Proofs.Source.Spots
import ModuleGraph.Source.Scan

/-!
# Searches walk through subtrees

Main statement: `scanAt_enumerates`. A search visits the node where it begins and all nodes below
it, once each and in preorder, and no other node, whatever stands beside its beginning. It lists
an entry for each call of `import()` and each identifier of a CommonJS global that it visits.

## Implementation notes

What lies ahead of a cursor are the spots under its node and those under the later siblings on the
way back. A step takes the first of them, so a walk from the beginning takes the spots of the
beginning one by one. Nothing of what is above the beginning lies ahead.
-/

namespace ModuleGraph.Source

namespace Cursor

/-- Where the cursor stands. -/
def spot (c : Cursor) : Spot := ⟨c.node, c.way ++ c.outside⟩

/-- The spots at and under the later siblings on the way back. -/
def later (outside : List Level) : List Level → List Spot
  | [] => []
  | l :: up => Tree.spotsOfList l.node (up ++ outside) l.after ++ later outside up

/-- The spots that are still to be visited, the one of the cursor first. -/
def ahead (c : Cursor) : List Spot := c.spot.spots ++ later c.outside c.way

theorem parentNode?_eq (c : Cursor) : c.parentNode? = c.spot.parent? := by
  obtain ⟨t, way, outside⟩ := c
  cases way <;> rfl

/-- What lies ahead when a subtree is left are the later siblings. -/
theorem ahead_leave? (c : Cursor) : (c.leave?.map ahead).getD [] = later c.outside c.way := by
  obtain ⟨t, way, outside⟩ := c
  induction way generalizing t with
  | nil => rw [leave?_start]; rfl
  | cons l up ih =>
      obtain ⟨p, after⟩ := l
      cases after with
      | nil =>
          rw [leave?_last, ih]
          rfl
      | cons s rest =>
          rw [leave?_sibling, later, Tree.spotsOfList, List.append_assoc]
          rfl

/-- A step takes the first of the spots that lie ahead. -/
theorem ahead_eq (c : Cursor) : c.ahead = c.spot :: (c.next?.map ahead).getD [] := by
  obtain ⟨⟨label, children⟩, way, outside⟩ := c
  cases children with
  | nil =>
      have hleave : (⟨.node label [], way, outside⟩ : Cursor).next? =
          (⟨.node label [], way, outside⟩ : Cursor).leave? := rfl
      rw [hleave, ahead_leave?]
      rfl
  | cons t rest =>
      simp only [next?, firstChild?, Tree.children, Option.map_some, Option.getD_some, ahead,
        later, spot, Spot.spots, Tree.spots, Tree.spotsOfList, List.cons_append,
        List.append_assoc]

/-- A walk from its beginning has the subtree ahead. -/
theorem ahead_start (s : Spot) : (start s).ahead = s.spots :=
  List.append_nil _

end Cursor

variable {bytes : ByteArray}

namespace Spot

/-- The property that the node is asked for where it stands. -/
def asked (bytes : ByteArray) (s : Spot) : Option String := askedFor bytes s.parent? s.node

/-- What stands at the spot. -/
def entry (bytes : ByteArray) (s : Spot) : List Expression := entryOf bytes (s.asked bytes) s.node

end Spot

theorem entry_spot (c : Cursor) :
    c.spot.entry bytes = entryOf bytes (askedFor bytes c.parentNode? c.node) c.node := by
  rw [Spot.entry, Spot.asked, ← Cursor.parentNode?_eq]
  rfl

/-- One step of a search. -/
theorem scanFrom_of_next? {c d : Cursor} (h : c.next? = some d) (found : List Expression) :
    scanFrom bytes c found = scanFrom bytes d ((c.spot.entry bytes).reverse ++ found) := by
  rw [scanFrom, entry_spot]
  split
  · rename_i e he
    cases h.symm.trans he
    rfl
  · rename_i hnone
    cases h.symm.trans hnone

/-- The last step of a search. -/
theorem scanFrom_of_next?_eq_none {c : Cursor} (h : c.next? = none) (found : List Expression) :
    scanFrom bytes c found = (c.spot.entry bytes).reverse ++ found := by
  rw [scanFrom, entry_spot]
  split
  · rename_i e he
    cases h.symm.trans he
  · rfl

/-- A search finds what stands at the spots that lie ahead. -/
theorem scanFrom_eq (c : Cursor) (found : List Expression) :
    scanFrom bytes c found = (c.ahead.flatMap (Spot.entry bytes)).reverse ++ found := by
  induction c, found using scanFrom.induct bytes with
  | case1 c found here d hnext ih =>
      have hhere : here = c.spot.entry bytes := (entry_spot c).symm
      rw [scanFrom_of_next? hnext, ← hhere, ih, c.ahead_eq, hnext, List.flatMap_cons,
        List.reverse_append, List.append_assoc, hhere]
      rfl
  | case2 c found hnext =>
      rw [scanFrom_of_next?_eq_none hnext, c.ahead_eq, hnext]
      simp

/-- A search lists what stands at the spots of its node, in preorder. -/
theorem scanAt_eq (s : Spot) : scanAt bytes s = s.spots.flatMap (Spot.entry bytes) := by
  rw [scanAt, scanFrom_eq, Cursor.ahead_start, List.append_nil, List.reverse_reverse]

namespace Spot

variable (bytes)

/-- The node is the object of a member expression that asks it for the property `name`. -/
def AskedFor (s : Spot) (name : String) : Prop :=
  s.node.field = some .object ∧ ∃ parent property, s.parent? = some parent ∧
    parent.kind = "member_expression" ∧ parent.child? .property = some property ∧
    textOf bytes property = name

/-- The CommonJS global that the text of a node names where the node stands. -/
inductive Names (s : Spot) : Global → Prop
  | dirname (h : textOf bytes s.node = "__dirname") : Names s .dirname
  | filename (h : textOf bytes s.node = "__filename") : Names s .filename
  | requireResolve (h : textOf bytes s.node = "require") (hasked : s.AskedFor bytes "resolve") :
      Names s .requireResolve
  | requireCache (h : textOf bytes s.node = "require") (hasked : s.AskedFor bytes "cache") :
      Names s .requireCache
  | requireExtensions (h : textOf bytes s.node = "require")
      (hasked : s.AskedFor bytes "extensions") : Names s .requireExtensions
  | require (h : textOf bytes s.node = "require")
      (hasked : ∀ name ∈ ["resolve", "cache", "extensions"], ¬ s.AskedFor bytes name) :
      Names s .require

/-- The entry for a node where it stands: a call of `import`, whose target is left open unless it
is written out, or an identifier that names a CommonJS global. -/
inductive Yields (s : Spot) : Expression → Prop
  | call {function : Tree} (hkind : s.node.kind = "call_expression")
      (hfunction : s.node.child? .function = some function) (himport : function.kind = "import") :
      Yields s (.importCall ((callTarget? bytes s.node).elim (.other []) .literal) none)
  | global {g : Global} (hkind : s.node.kind = "identifier") (hnames : s.Names bytes g) :
      Yields s (.commonJS g)

variable {bytes}

theorem asked_eq_some_iff {s : Spot} {name : String} :
    s.asked bytes = some name ↔ s.AskedFor bytes name := by
  unfold asked askedFor AskedFor askedProperty
  by_cases hfield : s.node.field = some .object
  · cases hparent : s.parent? with
    | none => simp [hfield]
    | some parent =>
        by_cases hkind : parent.kind = "member_expression"
        · simp [hfield, hkind]
        · simp [hfield, hkind]
  · simp [hfield]

theorem names_iff {s : Spot} {g : Global} :
    s.Names bytes g ↔ globalOf? (textOf bytes s.node) (s.asked bytes) = some g := by
  constructor
  · intro h
    cases h with
    | dirname h => rw [h]; rfl
    | filename h => rw [h]; rfl
    | requireResolve h hasked => rw [h, asked_eq_some_iff.mpr hasked]; rfl
    | requireCache h hasked => rw [h, asked_eq_some_iff.mpr hasked]; rfl
    | requireExtensions h hasked => rw [h, asked_eq_some_iff.mpr hasked]; rfl
    | require h hasked =>
        rw [h]
        have hother : ∀ name ∈ ["resolve", "cache", "extensions"],
            s.asked bytes ≠ some name := fun name hname heq =>
          hasked name hname (asked_eq_some_iff.mp heq)
        simp only [globalOf?]
        split
        · exact absurd ‹_› (hother _ (by simp))
        · exact absurd ‹_› (hother _ (by simp))
        · exact absurd ‹_› (hother _ (by simp))
        · rfl
  · intro h
    unfold globalOf? at h
    split at h
    · cases h
      exact .dirname ‹_›
    · cases h
      exact .filename ‹_›
    · rename_i htext
      split at h
      · cases h
        exact .requireResolve htext (asked_eq_some_iff.mp ‹_›)
      · cases h
        exact .requireCache htext (asked_eq_some_iff.mp ‹_›)
      · cases h
        exact .requireExtensions htext (asked_eq_some_iff.mp ‹_›)
      · rename_i hresolve hcache hextensions
        cases h
        refine .require htext fun name hname hasked => ?_
        have heq := asked_eq_some_iff.mpr hasked
        simp only [List.mem_cons, List.not_mem_nil, or_false] at hname
        rcases hname with rfl | rfl | rfl
        · exact hresolve heq
        · exact hcache heq
        · exact hextensions heq
    · cases h

theorem isImportCall_iff {t : Tree} :
    isImportCall t = true ↔ t.kind = "call_expression" ∧
      ∃ function, t.child? .function = some function ∧ function.kind = "import" := by
  simp [isImportCall, Option.any_eq_true]

/-- What a spot yields is what stands there. -/
theorem yields_iff {s : Spot} {e : Expression} : s.Yields bytes e ↔ e ∈ s.entry bytes := by
  unfold entry entryOf
  constructor
  · intro h
    cases h with
    | call hkind hfunction himport =>
        rw [if_pos (isImportCall_iff.mpr ⟨hkind, _, hfunction, himport⟩)]
        exact List.mem_singleton_self _
    | global hkind hnames =>
        have hcall : isImportCall s.node ≠ true := by
          intro hcall
          have hother := (isImportCall_iff.mp hcall).1
          rw [hkind] at hother
          exact absurd hother (by decide)
        rw [if_neg hcall, if_pos hkind, names_iff.mp hnames]
        exact List.mem_singleton_self _
  · intro h
    split at h
    · obtain ⟨hkind, function, hfunction, himport⟩ := isImportCall_iff.mp ‹_›
      rw [List.mem_singleton.mp h]
      exact .call hkind hfunction himport
    · split at h
      · obtain ⟨g, hg, rfl⟩ := Option.map_eq_some_iff.mp (Option.mem_toList.mp h)
        exact .global ‹_› (names_iff.mpr hg)
      · cases h

/-- At most one thing stands at a spot. -/
theorem length_entry_le (s : Spot) : (s.entry bytes).length ≤ 1 := by
  unfold entry entryOf
  split
  · exact Nat.le_refl _
  · split
    · cases globalOf? (textOf bytes s.node) (s.asked bytes) <;> simp
    · exact Nat.zero_le _

/-- A spot yields at most one entry. -/
theorem Yields.unique {s : Spot} {e f : Expression} (he : s.Yields bytes e)
    (hf : s.Yields bytes f) : e = f := by
  have hlength : (s.entry bytes).length ≤ 1 := s.length_entry_le
  have hmem := yields_iff.mp hf
  obtain ⟨x, hx⟩ := List.length_eq_one_iff.mp
    (Nat.le_antisymm hlength (List.length_pos_of_mem hmem))
  rw [yields_iff, hx, List.mem_singleton] at he hf
  rw [he, hf]

theorem enumerates_entry (s : Spot) : Enumerates (Yields bytes) [s] (s.entry bytes) := by
  have hlength : (s.entry bytes).length ≤ 1 := s.length_entry_le
  cases hentry : s.entry bytes with
  | nil =>
      refine .passed (fun e he => ?_) .nil
      rw [yields_iff, hentry] at he
      cases he
  | cons e rest =>
      rw [hentry, List.length_cons] at hlength
      have hrest : rest = [] := List.length_eq_zero_iff.mp (by omega)
      rw [hrest]
      exact .found (yields_iff.mpr (by rw [hentry]; exact List.mem_cons_self)) .nil

end Spot

/-- A search from any node of a tree visits the spots at and under it in preorder, once each, and
no others. It lists one entry for each spot that yields one, in this order. What is searched
below, such as the arguments of a call that is listed itself, is listed in one piece as
if it were searched alone. -/
theorem scanAt_enumerates (bytes : ByteArray) (s : Spot) :
    (s.spots.Nodup ∧ ∀ d, d ∈ s.spots ↔ s.Below d) ∧
      Enumerates (Spot.Yields bytes) s.spots (scanAt bytes s) ∧
      (∀ (d : Spot) (e f : Expression), d.Yields bytes e → d.Yields bytes f → e = f) ∧
      ∀ d, s.Below d → d.spots <:+: s.spots ∧ scanAt bytes d <:+: scanAt bytes s := by
  refine ⟨⟨s.nodup_spots, fun _ => Spot.mem_spots_iff⟩, ?_, fun _ _ _ => Spot.Yields.unique, ?_⟩
  · have hentries : Enumerates (Spot.Yields bytes) (s.spots.flatMap fun d => [d])
        (s.spots.flatMap (Spot.entry bytes)) :=
      Enumerates.flatMap fun d _ => d.enumerates_entry
    rwa [List.flatMap_singleton', ← scanAt_eq] at hentries
  · intro d hd
    obtain ⟨before, after, heq⟩ := hd.spots_infix
    refine ⟨hd.spots_infix, before.flatMap (Spot.entry bytes), after.flatMap (Spot.entry bytes), ?_⟩
    rw [scanAt_eq, scanAt_eq, ← heq, List.flatMap_append, List.flatMap_append]

end ModuleGraph.Source
