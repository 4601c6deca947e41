import Mathlib.Data.List.Flatten
import Mathlib.Data.List.Infix
import Mathlib.Data.List.Nodup
import Mathlib.Data.List.Pairwise
import ModuleGraph.Source.Cursor

/-!
# Spots of syntax trees

Main statements: `nodup_spots`, `mem_spots_iff` and `enumerates_spots`. The spots of a node are its
own and those of its children, one child after the other, each with what is above it. No spot
comes twice, and exactly the spots below the node are among them. What is listed under a node
can be listed child by child.

## Implementation notes

Two nodes of a tree may look the same. Their spots differ all the same, because siblings have
different siblings after them.
-/

namespace ModuleGraph.Source

mutual

/-- The spots at and under a node, in preorder. -/
def Tree.spots (above : List Level) : Tree → List Spot
  | .node label children =>
    ⟨.node label children, above⟩ :: Tree.spotsOfList (.node label children) above children

/-- The spots at and under the last children of a node, one child after the other. -/
def Tree.spotsOfList (parent : Tree) (above : List Level) : List Tree → List Spot
  | [] => []
  | t :: rest => t.spots (⟨parent, rest⟩ :: above) ++ Tree.spotsOfList parent above rest

end

namespace Spot

/-- The node above. -/
def parent? (s : Spot) : Option Tree := s.above.head?.map Level.node

/-- The spots of the last children of a node. -/
def ofChildren (parent : Tree) (above : List Level) : List Tree → List Spot
  | [] => []
  | t :: rest => ⟨t, ⟨parent, rest⟩ :: above⟩ :: ofChildren parent above rest

/-- The spots of the children. -/
def children (s : Spot) : List Spot := ofChildren s.node s.above s.node.children

/-- The spots at and under a spot, in preorder. -/
def spots (s : Spot) : List Spot := s.node.spots s.above

/-- The spot `s` itself, and the children of all spots below it. -/
inductive Below (s : Spot) : Spot → Prop
  | self : Below s s
  | child {d c : Spot} (hd : Below s d) (hc : c ∈ d.children) : Below s c

theorem spotsOfList_eq_flatMap (parent : Tree) (above : List Level) (ts : List Tree) :
    Tree.spotsOfList parent above ts = (ofChildren parent above ts).flatMap spots := by
  induction ts with
  | nil => rfl
  | cons t rest ih => rw [Tree.spotsOfList, ih, ofChildren, List.flatMap_cons]; rfl

theorem spots_eq (s : Spot) : s.spots = s :: s.children.flatMap spots := by
  obtain ⟨⟨label, ts⟩, above⟩ := s
  rw [spots, Tree.spots, spotsOfList_eq_flatMap]
  rfl

theorem map_node_ofChildren (parent : Tree) (above : List Level) (ts : List Tree) :
    (ofChildren parent above ts).map node = ts := by
  induction ts with
  | nil => rfl
  | cons t rest ih => rw [ofChildren, List.map_cons, ih]

/-- The children of a node stand at the children of its spot. -/
theorem map_node_children (s : Spot) : s.children.map node = s.node.children :=
  map_node_ofChildren _ _ _

theorem mem_ofChildren {parent : Tree} {above : List Level} {ts : List Tree} {c : Spot}
    (h : c ∈ ofChildren parent above ts) :
    ∃ rest, c.above = ⟨parent, rest⟩ :: above ∧ rest.length < ts.length ∧
      c.node.size ≤ Tree.sizeOfList ts := by
  induction ts with
  | nil => cases h
  | cons t rest ih =>
      rcases List.mem_cons.mp h with rfl | h
      · exact ⟨rest, rfl, Nat.lt_succ_self _, Nat.le_add_right _ _⟩
      · obtain ⟨more, habove, hlength, hsize⟩ := ih h
        exact ⟨more, habove, Nat.lt_succ_of_lt hlength, Nat.le_trans hsize (Nat.le_add_left _ _)⟩

/-- A child has the parent right above it. -/
theorem exists_above_eq {s c : Spot} (h : c ∈ s.children) :
    ∃ rest, c.above = ⟨s.node, rest⟩ :: s.above := by
  obtain ⟨rest, habove, -, -⟩ := mem_ofChildren h
  exact ⟨rest, habove⟩

theorem size_lt_of_mem_children {s c : Spot} (h : c ∈ s.children) :
    c.node.size < s.node.size := by
  obtain ⟨-, -, -, hsize⟩ := mem_ofChildren h
  exact Nat.lt_of_le_of_lt hsize (Tree.sizeOfList_children_lt _)

/-- What holds of a spot when it holds of its children holds of all spots. -/
@[elab_as_elim]
theorem induction {motive : Spot → Prop} (h : ∀ s, (∀ c ∈ s.children, motive c) → motive s)
    (s : Spot) : motive s :=
  h s fun c _ => induction h c
termination_by s.node.size
decreasing_by exact size_lt_of_mem_children ‹_›

/-- Siblings are told apart by what is above them. -/
theorem pairwise_above_ne (s : Spot) : s.children.Pairwise fun c d => c.above ≠ d.above := by
  unfold children
  induction s.node.children with
  | nil => exact List.Pairwise.nil
  | cons t rest ih =>
      refine List.Pairwise.cons ?_ ih
      intro d hd heq
      obtain ⟨more, habove, hlength, -⟩ := mem_ofChildren hd
      rw [habove] at heq
      cases heq
      exact Nat.lt_irrefl _ hlength

theorem nodup_children (s : Spot) : s.children.Nodup :=
  s.pairwise_above_ne.imp fun h heq => h (congrArg above heq)

theorem mem_spots_self (s : Spot) : s ∈ s.spots := by
  rw [spots_eq]
  exact List.mem_cons_self

theorem mem_spots_child {s d c : Spot} (hd : d ∈ s.spots) (hc : c ∈ d.children) : c ∈ s.spots := by
  induction s using induction with
  | h s ih =>
      rw [spots_eq] at hd ⊢
      apply List.mem_cons_of_mem
      rcases List.mem_cons.mp hd with rfl | hd
      · exact List.mem_flatMap.mpr ⟨c, hc, c.mem_spots_self⟩
      · obtain ⟨b, hb, hd⟩ := List.mem_flatMap.mp hd
        exact List.mem_flatMap.mpr ⟨b, hb, ih b hb hd⟩

theorem Below.trans {s d e : Spot} (hd : s.Below d) (he : d.Below e) : s.Below e := by
  induction he with
  | self => exact hd
  | child _ hc ih => exact .child ih hc

/-- What is below a child is below the parent. -/
theorem Below.of_mem_children {s c d : Spot} (hc : c ∈ s.children) (hd : c.Below d) : s.Below d :=
  (Below.child .self hc).trans hd

/-- The spots at and under a node are those below it. -/
theorem mem_spots_iff {s d : Spot} : d ∈ s.spots ↔ s.Below d := by
  constructor
  · intro h
    induction s using induction with
    | h s ih =>
        rw [spots_eq] at h
        rcases List.mem_cons.mp h with rfl | h
        · exact .self
        · obtain ⟨c, hc, h⟩ := List.mem_flatMap.mp h
          exact .of_mem_children hc (ih c hc h)
  · intro h
    induction h with
    | self => exact s.mem_spots_self
    | child _ hc ih => exact mem_spots_child ih hc

/-- What is above a spot is above all spots below it. -/
theorem Below.above_suffix {s d : Spot} (h : s.Below d) : s.above <:+ d.above := by
  induction h with
  | self => exact List.suffix_rfl
  | child _ hc ih =>
      obtain ⟨rest, habove⟩ := exists_above_eq hc
      rw [habove]
      exact ih.trans (List.suffix_cons _ _)

/-- No spot is below its children. -/
theorem not_below_of_mem_children {s c : Spot} (hc : c ∈ s.children) : ¬ c.Below s := by
  intro h
  obtain ⟨rest, habove⟩ := exists_above_eq hc
  have hlength := h.above_suffix.length_le
  rw [habove, List.length_cons] at hlength
  exact Nat.not_succ_le_self _ hlength

/-- A spot is below one child only. -/
theorem Below.eq_of_mem_children {s b c d : Spot} (hb : b ∈ s.children) (hc : c ∈ s.children)
    (hbd : b.Below d) (hcd : c.Below d) : b = c := by
  obtain ⟨restB, hbAbove⟩ := exists_above_eq hb
  obtain ⟨restC, hcAbove⟩ := exists_above_eq hc
  have hlength : b.above.length = c.above.length := by rw [hbAbove, hcAbove]; rfl
  have habove : b.above = c.above :=
    (List.suffix_of_suffix_length_le hbd.above_suffix hcd.above_suffix hlength.le).eq_of_length
      hlength
  have hsymm : Std.Symm fun c d : Spot => c.above ≠ d.above := ⟨fun _ _ => Ne.symm⟩
  by_contra hne
  exact s.pairwise_above_ne.forall hb hc hne habove

/-- No spot is listed twice. -/
theorem nodup_spots (s : Spot) : s.spots.Nodup := by
  induction s using induction with
  | h s ih =>
      rw [spots_eq, List.nodup_cons, List.nodup_flatMap]
      refine ⟨?_, ih, s.nodup_children.imp_of_mem ?_⟩
      · intro hs
        obtain ⟨c, hc, hs⟩ := List.mem_flatMap.mp hs
        exact not_below_of_mem_children hc (mem_spots_iff.mp hs)
      · intro b c hb hc hne d hbd hcd
        exact hne (Below.eq_of_mem_children hb hc (mem_spots_iff.mp hbd) (mem_spots_iff.mp hcd))

/-- The spots of a node below come one after the other. -/
theorem Below.spots_infix {s d : Spot} (h : s.Below d) : d.spots <:+: s.spots := by
  induction h with
  | self => exact List.infix_rfl
  | @child d c _ hc ih =>
      refine List.IsInfix.trans ?_ ih
      rw [spots_eq d]
      obtain ⟨before, after, heq⟩ := List.append_of_mem hc
      refine ⟨d :: before.flatMap spots, after.flatMap spots, ?_⟩
      rw [heq, List.flatMap_append, List.flatMap_cons]
      simp

end Spot

/-- An entry for each member of a list that has one, in the order of the list. -/
inductive Enumerates {α ε : Type} (R : α → ε → Prop) : List α → List ε → Prop
  | nil : Enumerates R [] []
  | found {a : α} {e : ε} {as : List α} {es : List ε} (h : R a e) (hrest : Enumerates R as es) :
      Enumerates R (a :: as) (e :: es)
  | passed {a : α} {as : List α} {es : List ε} (h : ∀ e, ¬ R a e) (hrest : Enumerates R as es) :
      Enumerates R (a :: as) es

namespace Enumerates

variable {α β ε : Type} {R : α → ε → Prop}

theorem append {as bs : List α} {es fs : List ε} (ha : Enumerates R as es)
    (hb : Enumerates R bs fs) : Enumerates R (as ++ bs) (es ++ fs) := by
  induction ha with
  | nil => exact hb
  | found h _ ih => exact .found h ih
  | passed h _ ih => exact .passed h ih

/-- Only the entries of the members matter. -/
theorem congr {S : α → ε → Prop} {as : List α} {es : List ε} (h : ∀ a ∈ as, ∀ e, R a e ↔ S a e)
    (hR : Enumerates R as es) : Enumerates S as es := by
  induction hR with
  | nil => exact .nil
  | @found a e as es ha _ ih =>
      exact .found ((h a List.mem_cons_self e).mp ha)
        (ih fun b hb => h b (List.mem_cons_of_mem a hb))
  | @passed a as es ha _ ih =>
      exact .passed (fun e he => ha e ((h a List.mem_cons_self e).mpr he))
        (ih fun b hb => h b (List.mem_cons_of_mem a hb))

/-- Lists that are enumerated one by one are enumerated in turn. -/
theorem flatMap {bs : List β} {f : β → List α} {g : β → List ε}
    (h : ∀ b ∈ bs, Enumerates R (f b) (g b)) : Enumerates R (bs.flatMap f) (bs.flatMap g) := by
  induction bs with
  | nil => exact .nil
  | cons b rest ih =>
      rw [List.flatMap_cons, List.flatMap_cons]
      exact (h b List.mem_cons_self).append (ih fun c hc => h c (List.mem_cons_of_mem b hc))

/-- Nothing is found where no member has an entry. -/
theorem of_forall_not {as : List α} (h : ∀ a ∈ as, ∀ e, ¬ R a e) : Enumerates R as [] := by
  induction as with
  | nil => exact .nil
  | cons a rest ih =>
      exact .passed (h a List.mem_cons_self) (ih fun b hb => h b (List.mem_cons_of_mem a hb))

end Enumerates

/-- What is listed under a node is listed under some of its children, one after the other, when
there is nothing at the node itself or under the others. -/
theorem enumerates_spots {ε : Type} {R : Spot → ε → Prop} {s : Spot} {cs : List Spot}
    {g : Spot → List ε} (hself : ∀ e, ¬ R s e) (hsub : cs.Sublist s.children)
    (hin : ∀ c ∈ cs, Enumerates R c.spots (g c))
    (hout : ∀ c ∈ s.children, c ∉ cs → ∀ d, c.Below d → ∀ e, ¬ R d e) :
    Enumerates R s.spots (cs.flatMap g) := by
  rw [Spot.spots_eq]
  refine .passed hself ?_
  have hnodup := s.nodup_children
  generalize s.children = children at hsub hout hnodup
  induction hsub with
  | slnil => exact .nil
  | @cons cs rest c hsub ih =>
      obtain ⟨hc, hnodup⟩ := List.nodup_cons.mp hnodup
      have hnone : Enumerates R c.spots [] := Enumerates.of_forall_not fun d hd =>
        hout c List.mem_cons_self (fun h => hc (hsub.subset h)) d (Spot.mem_spots_iff.mp hd)
      rw [List.flatMap_cons]
      exact hnone.append
        (ih hin (fun b hb => hout b (List.mem_cons_of_mem c hb)) hnodup)
  | @cons_cons cs rest c hsub ih =>
      obtain ⟨hc, hnodup⟩ := List.nodup_cons.mp hnodup
      rw [List.flatMap_cons, List.flatMap_cons]
      refine (hin c List.mem_cons_self).append (ih (fun b hb => hin b (List.mem_cons_of_mem c hb))
        (fun b hb hnot => hout b (List.mem_cons_of_mem c hb) fun h => ?_) hnodup)
      rcases List.mem_cons.mp h with rfl | h
      · exact hc hb
      · exact hnot h

end ModuleGraph.Source
