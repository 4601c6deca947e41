import Mathlib.Data.List.Basic
import Mathlib.Data.List.TakeDrop
import Mathlib.Data.List.TakeWhile
import ModuleGraph.Text.Split

/-!
# Texts that are cut and joined

Main statements: `cutFirst_eq_some_iff` and `cutLast_eq_some_iff`. A text is cut in two at the first
or the last occurrence of a separator exactly when it is put together again from the two parts, and
the separator is not in the part before the first occurrence, or behind the last one. Joined pieces
are cut between any two of them.
-/

namespace ModuleGraph.Text

variable {p : Char → Bool} {cs rest : List Char}

theorem dropWhile_append_of_head (hcs : ∀ c ∈ cs, p c = true)
    (hrest : ∀ c ∈ rest.head?, p c = false) : (cs ++ rest).dropWhile p = rest := by
  rw [List.dropWhile_append_of_pos hcs]
  cases rest with
  | nil => rfl
  | cons c rest => exact List.dropWhile_cons_of_neg (by simp [hrest c rfl])

theorem takeWhile_append_of_head (hcs : ∀ c ∈ cs, p c = true)
    (hrest : ∀ c ∈ rest.head?, p c = false) : (cs ++ rest).takeWhile p = cs := by
  rw [List.takeWhile_append_of_pos hcs]
  cases rest with
  | nil => rw [List.takeWhile_nil, List.append_nil]
  | cons c rest => rw [List.takeWhile_cons_of_neg (by simp [hrest c rfl]), List.append_nil]

/-- A list is cut where a property ends that its first members have. -/
theorem exists_eq_append (p : Char → Bool) (cs : List Char) :
    ∃ front rest, cs = front ++ rest ∧ (∀ c ∈ front, p c = true) ∧
      (∀ c ∈ rest.head?, p c = false) ∧ cs.takeWhile p = front ∧ cs.dropWhile p = rest := by
  refine ⟨cs.takeWhile p, cs.dropWhile p, List.takeWhile_append_dropWhile.symm,
    fun c => List.mem_takeWhile_imp, ?_, rfl, rfl⟩
  intro c hc
  have hstop := List.head?_dropWhile_not p cs
  rw [hc] at hstop
  exact hstop

variable {sep : Char}

theorem bne_of_not_mem (h : sep ∉ cs) : ∀ c ∈ cs, (c != sep) = true := by
  intro c hc
  apply bne_iff_ne.mpr
  rintro rfl
  exact h hc

/-- The search for a separator stops at its first occurrence. -/
theorem span_append_cons {before : List Char} (h : sep ∉ before) (after : List Char) :
    (before ++ sep :: after).span (· != sep) = (before, sep :: after) := by
  have hbefore := bne_of_not_mem h
  have hstop : ∀ c ∈ (sep :: after).head?, (c != sep) = false := by
    rintro c ⟨⟩
    exact bne_self_eq_false sep
  rw [List.span_eq_takeWhile_dropWhile, takeWhile_append_of_head hbefore hstop,
    dropWhile_append_of_head hbefore hstop]

/-- The search for a separator that does not occur runs to the end. -/
theorem span_of_not_mem (h : sep ∉ cs) : cs.span (· != sep) = (cs, []) := by
  have hcs := bne_of_not_mem h
  rw [List.span_eq_takeWhile_dropWhile, List.takeWhile_eq_self_iff.mpr hcs,
    List.dropWhile_eq_nil_iff.mpr hcs]

variable {s before after : String}

theorem cutFirst_eq_some_iff :
    cutFirst sep s = some (before, after) ↔
      s.toList = before.toList ++ sep :: after.toList ∧ sep ∉ before.toList := by
  constructor
  · intro h
    by_cases hmem : sep ∈ s.toList
    · obtain ⟨cs, ds, hcut, hcs⟩ := List.eq_append_cons_of_mem hmem
      rw [cutFirst, hcut, span_append_cons hcs] at h
      cases h
      rw [String.toList_ofList, String.toList_ofList]
      exact ⟨hcut, hcs⟩
    · rw [cutFirst, span_of_not_mem hmem] at h
      cases h
  · rintro ⟨hcut, hbefore⟩
    rw [cutFirst, hcut, span_append_cons hbefore]
    simp

theorem cutLast_eq_some_iff :
    cutLast sep s = some (before, after) ↔
      s.toList = before.toList ++ sep :: after.toList ∧ sep ∉ after.toList := by
  constructor
  · intro h
    by_cases hmem : sep ∈ s.toList.reverse
    · obtain ⟨cs, ds, hcut, hcs⟩ := List.eq_append_cons_of_mem hmem
      rw [cutLast, hcut, span_append_cons hcs] at h
      cases h
      rw [List.reverse_eq_iff] at hcut
      rw [String.toList_ofList, String.toList_ofList, hcut]
      simpa using hcs
    · rw [cutLast, span_of_not_mem hmem] at h
      cases h
  · rintro ⟨hcut, hafter⟩
    have hreverse : s.toList.reverse = after.toList.reverse ++ sep :: before.toList.reverse := by
      rw [hcut]
      simp
    rw [cutLast, hreverse, span_append_cons (by simpa using hafter)]
    simp

theorem afterPrefix?_eq_some_iff {lead : String} :
    afterPrefix? lead s = some after ↔ s.toList = lead.toList ++ after.toList := by
  rw [afterPrefix?, Option.map_eq_some_iff]
  constructor
  · rintro ⟨cs, hcs, rfl⟩
    rw [String.toList_ofList, List.isPrefixOf?_eq_some_iff_append_eq.mp hcs]
  · intro h
    exact ⟨after.toList, List.isPrefixOf?_eq_some_iff_append_eq.mpr h.symm, String.ofList_toList⟩

theorem join_singleton (sep : Char) (p : String) : join sep [p] = p := by
  simp [join]

/-- What is written behind joined pieces is written behind the last of them. -/
theorem join_concat_append (sep : Char) (ps : List String) (p t : String) :
    join sep (ps ++ [p ++ t]) = join sep (ps ++ [p]) ++ t := by
  by_cases hnil : ps = []
  · simp [join, hnil]
  · have hne : ∀ q : String, [q] ≠ [] := fun q => List.cons_ne_nil q []
    rw [join, join, String.intercalate_append_of_ne_nil hnil (hne _),
      String.intercalate_append_of_ne_nil hnil (hne _)]
    simp [String.append_assoc]

/-- Pieces are written behind others after a separator. -/
theorem join_append (sep : Char) {ps qs : List String} (hps : ps ≠ []) (hqs : qs ≠ []) :
    join sep (ps ++ qs) = join sep ps ++ String.singleton sep ++ join sep qs := by
  rw [join, join, String.intercalate_append_of_ne_nil hps hqs]
  rfl

/-- What is written behind joined pieces joins the last of them with its own first piece. -/
theorem join_append_cons (sep : Char) (ps : List String) (p e : String) (es : List String) :
    join sep (ps ++ (p ++ e) :: es) = join sep (ps ++ [p]) ++ join sep (e :: es) := by
  rw [List.append_cons]
  by_cases hnil : es = []
  · rw [hnil, List.append_nil, join_concat_append, join_singleton]
  · have hcons : e :: es = [e] ++ es := rfl
    rw [join_append sep (by simp) hnil, join_concat_append, hcons,
      join_append sep (List.cons_ne_nil e []) hnil, join_singleton]
    simp only [String.append_assoc]

end ModuleGraph.Text
