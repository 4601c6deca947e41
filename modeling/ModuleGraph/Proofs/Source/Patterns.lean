import Mathlib.Logic.Relation
import ModuleGraph.Proofs.Source.Spots
import ModuleGraph.Source.Lower

/-!
# What patterns bind

Main statement: `boundNames_left_to_right`. The names of a pattern are those of its parts from
left to right, where the parts of a pair are its value and those of an assignment its left side.
They are the texts of the nodes to which one comes by going from part to part, each once and in
preorder. A variable declaration declares the names of its declarators in turn.

## Implementation notes

The run keeps pending patterns in one list, with the parts of a pattern in front of what
came after it. Such a run visits two lists in turn when it visits them joined, which makes the
recursion over patterns its only law.
-/

namespace ModuleGraph.Source

variable {bytes : ByteArray}

theorem bindFrom_cons (t : Tree) (rest : List Tree) (names : List String) :
    bindFrom bytes (t :: rest) names =
      if bindsItself t then bindFrom bytes rest (textOf bytes t :: names)
      else bindFrom bytes (boundParts t ++ rest) names := by
  rw [bindFrom]

/-- Joined patterns are visited in turn. -/
theorem bindFrom_append (xs ys : List Tree) (names : List String) :
    bindFrom bytes (xs ++ ys) names = bindFrom bytes ys (bindFrom bytes xs names) := by
  induction xs, names using bindFrom.induct bytes with
  | case1 names => rw [List.nil_append, bindFrom]
  | case2 names t rest hself ih =>
      rw [List.cons_append, bindFrom_cons, if_pos hself, ih, bindFrom_cons, if_pos hself]
  | case3 names t rest hself ih =>
      rw [List.cons_append, bindFrom_cons, if_neg hself, ← List.append_assoc, ih, bindFrom_cons,
        if_neg hself]

/-- Names that were found before stay behind those that are found. -/
theorem bindFrom_eq_append (pending : List Tree) (names : List String) :
    bindFrom bytes pending names = bindFrom bytes pending [] ++ names := by
  suffices h : ∀ found, bindFrom bytes pending found = bindFrom bytes pending [] ++ found from
    h names
  induction pending, names using bindFrom.induct bytes with
  | case1 names =>
      intro found
      simp only [bindFrom, List.nil_append]
  | case2 names t rest hself ih =>
      intro found
      rw [bindFrom_cons, if_pos hself, ih, bindFrom_cons, if_pos hself, ih [_], List.append_assoc]
      rfl
  | case3 names t rest hself ih =>
      intro found
      rw [bindFrom_cons, if_neg hself, ih, bindFrom_cons, if_neg hself]

/-- A run finds the names of the pending patterns, one pattern after the other. -/
theorem bindFrom_eq_flatMap (ts : List Tree) :
    bindFrom bytes ts [] = (ts.flatMap (boundNames bytes)).reverse := by
  induction ts with
  | nil => rw [bindFrom]; rfl
  | cons t rest ih =>
      rw [← List.singleton_append, bindFrom_append, bindFrom_eq_append, ih, List.flatMap_append,
        List.reverse_append, List.flatMap_singleton, boundNames, List.reverse_reverse]

/-- The recursion over patterns. -/
theorem boundNames_eq (t : Tree) :
    boundNames bytes t =
      if bindsItself t then [textOf bytes t] else (boundParts t).flatMap (boundNames bytes) := by
  rw [boundNames, bindFrom_cons]
  split
  · rw [bindFrom]
    rfl
  · rw [List.append_nil, bindFrom_eq_flatMap, List.reverse_reverse]

namespace Spot

/-- The first child in a field, where it stands. -/
def child? (s : Spot) (f : Field) : Option Spot := s.children.find? (·.node.field == some f)

/-- A spot directly below a pattern in which the pattern binds names: the value of a pair, the
left side of an assignment, or else any proper child. -/
inductive Part (s : Spot) : Spot → Prop
  | value {c : Spot} (hkind : s.node.kind = "pair_pattern") (hc : s.child? .value = some c) :
      Part s c
  | left {c : Spot}
      (hkind : s.node.kind = "assignment_pattern" ∨ s.node.kind = "object_assignment_pattern")
      (hc : s.child? .left = some c) : Part s c
  | proper {c : Spot} (hkind : s.node.kind ∉ ["identifier",
      "shorthand_property_identifier_pattern", "pair_pattern", "assignment_pattern",
      "object_assignment_pattern"]) (hc : c ∈ s.children) (hproper : c.node.isProper = true) :
      Part s c

/-- The pattern at `s` binds the name that stands at `d`: this is an identifier to which one comes
by going from part to part. -/
def Binds (s d : Spot) : Prop :=
  Relation.ReflTransGen Part s d ∧
    (d.node.kind = "identifier" ∨ d.node.kind = "shorthand_property_identifier_pattern")

/-- The variable declaration at `s` declares the name that stands at `d`: the pattern of one of
its declarators binds it. -/
def Declares (s d : Spot) : Prop :=
  ∃ v ∈ s.children, v.node.isProper = true ∧ v.node.kind = "variable_declarator" ∧
    ∃ p, v.child? .name = some p ∧ p.Binds d

/-- The parts of a pattern, where they stand. -/
def parts (s : Spot) : List Spot :=
  if s.node.kind = "pair_pattern" then (s.child? .value).toList
  else if s.node.kind = "assignment_pattern" || s.node.kind = "object_assignment_pattern" then
    (s.child? .left).toList
  else s.children.filter (·.node.isProper)

theorem map_node_child? (s : Spot) (f : Field) : (s.child? f).map node = s.node.child? f := by
  rw [Tree.child?, ← s.map_node_children, List.find?_map]
  rfl

theorem child?_sublist (s : Spot) (f : Field) : (s.child? f).toList.Sublist s.children := by
  cases hc : s.child? f with
  | none => exact List.nil_sublist _
  | some c => exact List.singleton_sublist.mpr (List.mem_of_find?_eq_some hc)

theorem map_node_parts (s : Spot) : s.parts.map node = boundParts s.node := by
  unfold parts boundParts
  split
  · rw [← s.map_node_child?]
    cases s.child? .value <;> rfl
  · split
    · rw [← s.map_node_child?]
      cases s.child? .left <;> rfl
    · rw [Tree.proper, ← s.map_node_children, List.filter_map]
      rfl

theorem parts_sublist (s : Spot) : s.parts.Sublist s.children := by
  unfold parts
  split
  · exact s.child?_sublist _
  · split
    · exact s.child?_sublist _
    · exact List.filter_sublist

theorem bindsItself_iff {t : Tree} : bindsItself t = true ↔
    t.kind = "identifier" ∨ t.kind = "shorthand_property_identifier_pattern" := by
  rw [bindsItself, Bool.or_eq_true, beq_iff_eq, beq_iff_eq]

/-- A node that is a name has no parts. -/
theorem Part.not_bindsItself {s c : Spot} (h : s.Part c) : ¬ bindsItself s.node = true := by
  rw [bindsItself_iff]
  cases h with
  | value hkind _ => rw [hkind]; decide
  | left hkind _ => rcases hkind with hkind | hkind <;> rw [hkind] <;> decide
  | proper hkind _ _ =>
      intro hself
      apply hkind
      rcases hself with hself | hself <;> rw [hself] <;> decide

theorem mem_parts_iff {s c : Spot} (hself : ¬ bindsItself s.node = true) :
    c ∈ s.parts ↔ s.Part c := by
  rw [bindsItself_iff, not_or] at hself
  unfold parts
  constructor
  · intro h
    split at h
    · exact .value ‹_› (Option.mem_toList.mp h)
    · split at h
      · rename_i hkind
        exact .left (by simpa using hkind) (Option.mem_toList.mp h)
      · rename_i hpair hassign
        obtain ⟨hc, hproper⟩ := List.mem_filter.mp h
        refine .proper ?_ hc hproper
        simpa [hself, hpair] using hassign
  · intro h
    cases h with
    | value hkind hc => rw [if_pos hkind]; exact Option.mem_toList.mpr hc
    | left hkind hc =>
        have hpair : s.node.kind ≠ "pair_pattern" := by
          rcases hkind with hkind | hkind <;> rw [hkind] <;> decide
        rw [if_neg hpair, if_pos (by simpa using hkind)]
        exact Option.mem_toList.mpr hc
    | proper hkind hc hproper =>
        simp only [List.mem_cons, List.not_mem_nil, not_or, or_false] at hkind
        rw [if_neg hkind.2.2.1, if_neg (by simp [hkind])]
        exact List.mem_filter.mpr ⟨hc, hproper⟩

theorem Part.mem_children {s c : Spot} (h : s.Part c) : c ∈ s.children :=
  s.parts_sublist.subset ((mem_parts_iff h.not_bindsItself).mpr h)

/-- A pattern stands above the names it binds. -/
theorem Binds.below {s d : Spot} (h : s.Binds d) : s.Below d := by
  obtain ⟨hway, -⟩ := h
  induction hway with
  | refl => exact .self
  | tail _ hpart ih => exact .child ih hpart.mem_children

/-- Of what is at or under a child, a pattern binds what the child binds if that is a part of it,
and else nothing. -/
theorem binds_iff_of_mem_children {s c d : Spot} (hc : c ∈ s.children) (hd : c.Below d) :
    s.Binds d ↔ s.Part c ∧ c.Binds d := by
  constructor
  · rintro ⟨hway, hname⟩
    rcases hway.cases_head with rfl | ⟨b, hpart, hrest⟩
    · exact absurd hd (not_below_of_mem_children hc)
    · have hbinds : b.Binds d := ⟨hrest, hname⟩
      have heq : b = c := Below.eq_of_mem_children hpart.mem_children hc hbinds.below hd
      exact heq ▸ ⟨hpart, hbinds⟩
  · rintro ⟨hpart, hway, hname⟩
    exact ⟨.head hpart hway, hname⟩

/-- A pattern is a name itself or binds names in its parts only. -/
theorem binds_self_iff {s : Spot} : s.Binds s ↔ bindsItself s.node = true := by
  rw [bindsItself_iff]
  exact and_iff_right .refl

end Spot

/-- A pattern has the names that it binds, in preorder. -/
theorem enumerates_boundNames (s : Spot) :
    Enumerates (fun d name => s.Binds d ∧ textOf bytes d.node = name) s.spots
      (boundNames bytes s.node) := by
  induction s using Spot.induction with
  | h s ih =>
      rw [boundNames_eq]
      by_cases hself : bindsItself s.node = true
      · rw [if_pos hself, Spot.spots_eq]
        refine .found ⟨Spot.binds_self_iff.mpr hself, rfl⟩ (Enumerates.of_forall_not ?_)
        rintro d hd name ⟨hbinds, -⟩
        obtain ⟨c, hc, hd⟩ := List.mem_flatMap.mp hd
        have hpart := ((Spot.binds_iff_of_mem_children hc (Spot.mem_spots_iff.mp hd)).mp hbinds).1
        exact hpart.not_bindsItself hself
      · rw [if_neg hself, ← s.map_node_parts, List.flatMap_map]
        apply enumerates_spots
        · rintro name ⟨hbinds, -⟩
          exact hself (Spot.binds_self_iff.mp hbinds)
        · exact s.parts_sublist
        · intro c hc
          have hpart := (Spot.mem_parts_iff hself).mp hc
          refine (ih c hpart.mem_children).congr fun d hd name => and_congr_left fun _ => ?_
          rw [Spot.binds_iff_of_mem_children hpart.mem_children (Spot.mem_spots_iff.mp hd)]
          exact (and_iff_right hpart).symm
        · rintro c hc hnot d hd name ⟨hbinds, -⟩
          have hpart := ((Spot.binds_iff_of_mem_children hc hd).mp hbinds).1
          exact hnot ((Spot.mem_parts_iff hself).mpr hpart)

namespace Spot

/-- What a pattern binds is bound by all nodes on the way to it. -/
theorem Binds.of_below {s d e : Spot} (h : s.Binds e) (hd : s.Below d) (he : d.Below e) :
    d.Binds e := by
  induction hd with
  | self => exact h
  | child _ hc ih =>
      exact ((binds_iff_of_mem_children hc he).mp (ih (.of_mem_children hc he))).2

/-- Nothing is bound in what is no part of a pattern, such as a key or a default value. -/
theorem not_binds_of_not_part {s d c e : Spot} (hd : s.Below d) (hc : c ∈ d.children)
    (hnot : ¬ d.Part c) (he : c.Below e) : ¬ s.Binds e := by
  intro h
  have hbinds : d.Binds e := h.of_below hd (.of_mem_children hc he)
  exact hnot ((binds_iff_of_mem_children hc he).mp hbinds).1

theorem mem_children_of_child? {s c : Spot} {f : Field} (h : s.child? f = some c) :
    c ∈ s.children :=
  List.mem_of_find?_eq_some h

/-- Of what is at or under a child, a declaration declares what the name of the child binds if
that is a declarator, and else nothing. -/
theorem declares_iff_of_mem_children {s v d : Spot} (hv : v ∈ s.children) (hd : v.Below d) :
    s.Declares d ↔ v.node.isProper = true ∧ v.node.kind = "variable_declarator" ∧
      ∃ p, v.child? .name = some p ∧ p.Binds d := by
  constructor
  · rintro ⟨w, hw, hproper, hkind, p, hp, hbinds⟩
    have hwd : w.Below d := .of_mem_children (mem_children_of_child? hp) hbinds.below
    have heq : w = v := Below.eq_of_mem_children hw hv hwd hd
    exact heq ▸ ⟨hproper, hkind, p, hp, hbinds⟩
  · intro h
    exact ⟨v, hv, h⟩

end Spot

/-- A declarator declares the names that its pattern binds. -/
theorem enumerates_declarator {s v : Spot} (hv : v ∈ s.children)
    (hproper : v.node.isProper = true) (hkind : v.node.kind = "variable_declarator") :
    Enumerates (fun d name => s.Declares d ∧ textOf bytes d.node = name) v.spots
      ((v.child? .name).toList.flatMap fun p => boundNames bytes p.node) := by
  apply enumerates_spots
  · rintro name ⟨hdeclares, -⟩
    obtain ⟨-, -, p, hp, hbinds⟩ := (Spot.declares_iff_of_mem_children hv .self).mp hdeclares
    exact Spot.not_below_of_mem_children (Spot.mem_children_of_child? hp) hbinds.below
  · exact v.child?_sublist _
  · intro p hp
    have hname : v.child? .name = some p := Option.mem_toList.mp hp
    have hchild := Spot.mem_children_of_child? hname
    refine (enumerates_boundNames p).congr fun d hd name => and_congr_left fun _ => ?_
    have hbelow : v.Below d := .of_mem_children hchild (Spot.mem_spots_iff.mp hd)
    rw [Spot.declares_iff_of_mem_children hv hbelow]
    constructor
    · intro hbinds
      exact ⟨hproper, hkind, p, hname, hbinds⟩
    · rintro ⟨-, -, q, hq, hbinds⟩
      cases hname.symm.trans hq
      exact hbinds
  · rintro c hc hnot d hd name ⟨hdeclares, -⟩
    have hbelow : v.Below d := .of_mem_children hc hd
    obtain ⟨-, -, p, hp, hbinds⟩ := (Spot.declares_iff_of_mem_children hv hbelow).mp hdeclares
    have heq : p = c :=
      Spot.Below.eq_of_mem_children (Spot.mem_children_of_child? hp) hc hbinds.below hd
    exact hnot (heq ▸ Option.mem_toList.mpr hp)

/-- The node is a declaration of variables. -/
def IsVariableDeclaration (t : Tree) : Prop :=
  t.kind = "lexical_declaration" ∨ t.kind = "variable_declaration"

/-- A variable declaration declares the names of its declarators, one after the other. -/
theorem declaredNames_of_variable {t : Tree} (h : IsVariableDeclaration t) :
    declaredNames bytes t =
      (t.children.filter fun v => v.isProper && v.kind == "variable_declarator").flatMap
        fun v => (v.child? .name).toList.flatMap (boundNames bytes) := by
  obtain ⟨label, children⟩ := t
  have hkind : label.kind = "lexical_declaration" ∨ label.kind = "variable_declaration" := h
  rw [declaredNames, if_pos (by simpa using hkind), variableNames,
    List.filterMap_eq_flatMap_toList, List.flatMap_assoc]
  rfl

theorem enumerates_declaredNames {s : Spot} (h : IsVariableDeclaration s.node) :
    Enumerates (fun d name => s.Declares d ∧ textOf bytes d.node = name) s.spots
      (declaredNames bytes s.node) := by
  have hnames : declaredNames bytes s.node =
      (s.children.filter fun v => v.node.isProper && v.node.kind == "variable_declarator").flatMap
        fun v => (v.child? .name).toList.flatMap fun p => boundNames bytes p.node := by
    rw [declaredNames_of_variable h, ← s.map_node_children, List.filter_map, List.flatMap_map]
    congr 1
    funext v
    rw [← v.map_node_child?]
    cases v.child? .name <;> simp
  rw [hnames]
  apply enumerates_spots
  · rintro name ⟨⟨v, hv, -, -, p, hp, hbinds⟩, -⟩
    have hbelow : v.Below s := .of_mem_children (Spot.mem_children_of_child? hp) hbinds.below
    exact Spot.not_below_of_mem_children hv hbelow
  · exact List.filter_sublist
  · intro v hv
    rw [List.mem_filter, Bool.and_eq_true, beq_iff_eq] at hv
    exact enumerates_declarator hv.1 hv.2.1 hv.2.2
  · rintro c hc hnot d hd name ⟨hdeclares, -⟩
    obtain ⟨hproper, hkind, -⟩ := (Spot.declares_iff_of_mem_children hc hd).mp hdeclares
    apply hnot
    rw [List.mem_filter, Bool.and_eq_true, beq_iff_eq]
    exact ⟨hc, hproper, hkind⟩

/-- The names of a pattern are its own text if it is an identifier, those of the value of a pair,
those of the left side of an assignment, and else those of its proper children from left to right.
They are the texts of the identifiers to which one comes by going from part to part, each listed
once and in preorder; none of them stands in anything else, such as a key or a default value. A
variable declaration declares the names of its declarators in turn. -/
theorem boundNames_left_to_right (bytes : ByteArray) :
    (∀ t : Tree, boundNames bytes t =
      if t.kind = "identifier" ∨ t.kind = "shorthand_property_identifier_pattern" then
        [textOf bytes t]
      else if t.kind = "pair_pattern" then (t.child? .value).toList.flatMap (boundNames bytes)
      else if t.kind = "assignment_pattern" ∨ t.kind = "object_assignment_pattern" then
        (t.child? .left).toList.flatMap (boundNames bytes)
      else t.proper.flatMap (boundNames bytes)) ∧
      (∀ s : Spot, s.spots.Nodup ∧
        Enumerates (fun d name => s.Binds d ∧ textOf bytes d.node = name) s.spots
          (boundNames bytes s.node)) ∧
      (∀ s d c e : Spot, s.Below d → c ∈ d.children → ¬ d.Part c → c.Below e → ¬ s.Binds e) ∧
      ∀ s : Spot, IsVariableDeclaration s.node →
        declaredNames bytes s.node =
          (s.node.children.filter fun v => v.isProper && v.kind == "variable_declarator").flatMap
            (fun v => (v.child? .name).toList.flatMap (boundNames bytes)) ∧
        Enumerates (fun d name => s.Declares d ∧ textOf bytes d.node = name) s.spots
          (declaredNames bytes s.node) := by
  refine ⟨?_, fun s => ⟨s.nodup_spots, enumerates_boundNames s⟩, ?_, ?_⟩
  · intro t
    rw [boundNames_eq, boundParts]
    by_cases hself : bindsItself t = true
    · rw [if_pos hself, if_pos (Spot.bindsItself_iff.mp hself)]
    · rw [if_neg hself, if_neg (mt Spot.bindsItself_iff.mpr hself)]
      split
      · rfl
      · split <;> rename_i hassign
        · rw [if_pos (by simpa using hassign)]
        · rw [if_neg (by simpa using hassign)]
  · intro s d c e
    exact Spot.not_binds_of_not_part
  · intro s hs
    exact ⟨declaredNames_of_variable hs, enumerates_declaredNames hs⟩

/-- Neither the key nor the default value is among the names. -/
example :
    boundNames "\x7b k: [a = d], ...b \x7d".toUTF8 ((Tree.ofPreorder? [
      (0, ⟨"object_pattern", true, none, 0, 20⟩),
      (1, ⟨"\x7b", false, none, 0, 1⟩),
      (1, ⟨"pair_pattern", true, none, 2, 12⟩),
      (2, ⟨"property_identifier", true, none, 2, 3⟩),
      (2, ⟨":", false, none, 3, 4⟩),
      (2, ⟨"array_pattern", true, some .value, 5, 12⟩),
      (3, ⟨"[", false, none, 5, 6⟩),
      (3, ⟨"assignment_pattern", true, none, 6, 11⟩),
      (4, ⟨"identifier", true, some .left, 6, 7⟩),
      (4, ⟨"=", false, none, 8, 9⟩),
      (4, ⟨"identifier", true, none, 10, 11⟩),
      (3, ⟨"]", false, none, 11, 12⟩),
      (1, ⟨",", false, none, 12, 13⟩),
      (1, ⟨"rest_pattern", true, none, 14, 18⟩),
      (2, ⟨"...", false, none, 14, 17⟩),
      (2, ⟨"identifier", true, none, 17, 18⟩),
      (1, ⟨"\x7d", false, none, 19, 20⟩)]).getD default) = ["a", "b"] := by
  decide +kernel

end ModuleGraph.Source
