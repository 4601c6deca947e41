import ModuleGraph.Proofs.Source.Preorder
import ModuleGraph.Proofs.Text.Cut

/-!
# Texts and globals that are written out

Main statements: `importTarget?_eq_some_iff` and `global?_eq_some_iff`. The target of a call of
`import()` is the text that its first argument writes, and a global is what an identifier names
where it stands.

## Implementation notes

What a node writes is stated by the characters of its text: they are the written text and the
quotes around it. A template is written between any number of back quotes, so its text begins
and ends with none.
-/

namespace ModuleGraph.Source

/-- The text that a node writes: what stands between the quotes of a string, or between the back
quotes of a template without substitutions. A string that does not stand between two characters
of one byte writes the empty text. -/
inductive Tree.Writes (bytes : ByteArray) (t : Tree) : String → Prop
  | quoted {first last : Char} {value : String} (hkind : t.kind = "string")
      (htext : (textOf bytes t).toList = first :: (value.toList ++ [last]))
      (hfirst : first.toNat < 0x80) (hlast : last.toNat < 0x80) : Tree.Writes bytes t value
  | bare (hkind : t.kind = "string")
      (hquotes : ∀ first last inner, (textOf bytes t).toList = first :: (inner ++ [last]) →
        ¬ (first.toNat < 0x80 ∧ last.toNat < 0x80)) : Tree.Writes bytes t ""
  | template {before after : List Char} {value : String} (hkind : t.kind = "template_string")
      (hwhole : ∀ c ∈ t.children, c.kind ≠ "template_substitution")
      (htext : (textOf bytes t).toList = before ++ (value.toList ++ after))
      (hbefore : ∀ c ∈ before, c = '`') (hafter : ∀ c ∈ after, c = '`')
      (hhead : value.toList.head? ≠ some '`') (hlast : value.toList.getLast? ≠ some '`') :
      Tree.Writes bytes t value

theorem unquoted_of_toList_eq {s : String} {first last : Char} {inner : List Char}
    (h : s.toList = first :: (inner ++ [last])) :
    unquoted s =
      if first.toNat < 0x80 ∧ last.toNat < 0x80 then String.ofList inner else "" := by
  rw [unquoted, h]
  dsimp only
  rw [List.getLast?_concat]
  simp

/-- A text of fewer than two characters has nothing between its ends. -/
theorem unquoted_of_forall_ne {s : String}
    (h : ∀ first last inner, s.toList ≠ first :: (inner ++ [last])) : unquoted s = "" := by
  unfold unquoted
  cases hs : s.toList with
  | nil => rfl
  | cons first rest =>
      rcases rest.eq_nil_or_concat with rfl | ⟨inner, last, rfl⟩
      · rfl
      · rw [List.concat_eq_append] at hs
        exact absurd hs (h first last inner)

/-- Without two characters of one byte at the ends there is nothing between them. -/
theorem unquoted_of_forall_not {s : String}
    (h : ∀ first last inner, s.toList = first :: (inner ++ [last]) →
      ¬ (first.toNat < 0x80 ∧ last.toNat < 0x80)) : unquoted s = "" := by
  by_cases hlong : ∃ first last inner, s.toList = first :: (inner ++ [last])
  · obtain ⟨first, last, inner, hs⟩ := hlong
    rw [unquoted_of_toList_eq hs, if_neg (h _ _ _ hs)]
  · exact unquoted_of_forall_ne fun first last inner hs => hlong ⟨_, _, _, hs⟩

theorem unquoted_eq_iff {s value : String} :
    unquoted s = value ↔
      (∃ first last, s.toList = first :: (value.toList ++ [last]) ∧ first.toNat < 0x80 ∧
        last.toNat < 0x80) ∨
      (value = "" ∧ ∀ first last inner, s.toList = first :: (inner ++ [last]) →
        ¬ (first.toNat < 0x80 ∧ last.toNat < 0x80)) := by
  constructor
  · rintro rfl
    by_cases hends : ∃ first last inner, s.toList = first :: (inner ++ [last]) ∧
        first.toNat < 0x80 ∧ last.toNat < 0x80
    · obtain ⟨first, last, inner, hs, hascii⟩ := hends
      left
      refine ⟨first, last, ?_, hascii⟩
      rw [unquoted_of_toList_eq hs, if_pos hascii, String.toList_ofList, hs]
    · right
      have hnone : ∀ first last inner, s.toList = first :: (inner ++ [last]) →
          ¬ (first.toNat < 0x80 ∧ last.toNat < 0x80) :=
        fun first last inner hs hascii => hends ⟨first, last, inner, hs, hascii⟩
      exact ⟨unquoted_of_forall_not hnone, hnone⟩
  · rintro (⟨first, last, hs, hascii⟩ | ⟨rfl, hnone⟩)
    · rw [unquoted_of_toList_eq hs, if_pos hascii, String.ofList_toList]
    · exact unquoted_of_forall_not hnone

/-- Back quotes are trimmed off a text that has none at its ends. -/
theorem trimBackQuotes_append {s : String} {before after inner : List Char}
    (hs : s.toList = before ++ (inner ++ after)) (hbefore : ∀ c ∈ before, c = '`')
    (hafter : ∀ c ∈ after, c = '`') (hhead : inner.head? ≠ some '`')
    (hlast : inner.getLast? ≠ some '`') : trimBackQuotes s = String.ofList inner := by
  have hquotes : ∀ cs : List Char, (∀ c ∈ cs, c = '`') → ∀ c ∈ cs, (c == '`') = true :=
    fun cs hcs c hc => beq_iff_eq.mpr (hcs c hc)
  have hother : ∀ o : Option Char, o ≠ some '`' → ∀ c ∈ o, (c == '`') = false := by
    rintro o ho c rfl
    exact beq_eq_false_iff_ne.mpr fun heq => ho (congrArg some heq)
  rw [trimBackQuotes, hs]
  congr 1
  by_cases hnil : inner = []
  · rw [hnil, List.nil_append, List.dropWhile_append_of_pos (hquotes _ hbefore),
      List.dropWhile_eq_nil_iff.mpr (hquotes _ hafter)]
    rfl
  · have hfront : (inner ++ after).head? = inner.head? := by
      cases inner with
      | nil => exact absurd rfl hnil
      | cons c rest => rfl
    rw [Text.dropWhile_append_of_head (hquotes _ hbefore) (hother _ (hfront ▸ hhead)),
      List.reverse_append,
      Text.dropWhile_append_of_head
        (fun c hc => hquotes _ hafter c (List.mem_reverse.mp hc))
        (hother _ (by rwa [List.head?_reverse])),
      List.reverse_reverse]

/-- A text without the back quotes at both ends is what stands between them. -/
theorem trimBackQuotes_eq_iff {s value : String} :
    trimBackQuotes s = value ↔
      ∃ before after, s.toList = before ++ (value.toList ++ after) ∧ (∀ c ∈ before, c = '`') ∧
        (∀ c ∈ after, c = '`') ∧ value.toList.head? ≠ some '`' ∧
        value.toList.getLast? ≠ some '`' := by
  constructor
  · rintro rfl
    obtain ⟨before, rest, hs, hbefore, hhead, -, hdrop⟩ :=
      Text.exists_eq_append (· == '`') s.toList
    obtain ⟨after, inner, hrest, hafter, hlast, -, hdrop'⟩ :=
      Text.exists_eq_append (· == '`') rest.reverse
    have hsplit : rest = inner.reverse ++ after.reverse := by
      rw [← List.reverse_append, ← hrest, List.reverse_reverse]
    have hvalue : (trimBackQuotes s).toList = inner.reverse := by
      rw [trimBackQuotes, hdrop, hdrop', String.toList_ofList]
    rw [hvalue]
    refine ⟨before, after.reverse, ?_, fun c hc => by simpa using hbefore c hc,
      fun c hc => by simpa using hafter c (List.mem_reverse.mp hc), ?_, ?_⟩
    · rw [← hsplit, hs]
    · intro hbad
      rw [hsplit, List.head?_append, hbad] at hhead
      cases hhead '`' rfl
    · rw [List.getLast?_reverse]
      intro hbad
      rw [hbad] at hlast
      cases hlast '`' rfl
  · rintro ⟨before, after, hs, hbefore, hafter, hhead, hlast⟩
    rw [trimBackQuotes_append hs hbefore hafter hhead hlast, String.ofList_toList]

/-- A literal is read as the text that it writes. -/
theorem Tree.writes_iff {bytes : ByteArray} {t : Tree} {value : String} :
    t.Writes bytes value ↔ literal? bytes t = some value := by
  unfold literal?
  constructor
  · intro h
    cases h with
    | quoted hkind htext hfirst hlast =>
        rw [if_pos hkind, unquoted_eq_iff.mpr (Or.inl ⟨_, _, htext, hfirst, hlast⟩)]
    | bare hkind hquotes =>
        rw [if_pos hkind, unquoted_eq_iff.mpr (Or.inr ⟨rfl, hquotes⟩)]
    | template hkind hwhole htext hbefore hafter hhead hlast =>
        have hstring : t.kind ≠ "string" := by rw [hkind]; decide
        have hnone : t.childOfKind? "template_substitution" = none :=
          List.find?_eq_none.mpr fun c hc => by simpa using hwhole c hc
        rw [if_neg hstring, if_pos (by rw [hkind, hnone]; rfl),
          trimBackQuotes_eq_iff.mpr ⟨_, _, htext, hbefore, hafter, hhead, hlast⟩]
  · intro h
    split at h
    · rename_i hkind
      obtain ⟨_, _, htext, hfirst, hlast⟩ | ⟨rfl, hquotes⟩ :=
        unquoted_eq_iff.mp (Option.some.inj h)
      · exact .quoted hkind htext hfirst hlast
      · exact .bare hkind hquotes
    · split at h
      · rename_i hkind
        rw [Bool.and_eq_true, decide_eq_true_eq, Option.isNone_iff_eq_none] at hkind
        obtain ⟨before, after, htext, hbefore, hafter, hhead, hlast⟩ :=
          trimBackQuotes_eq_iff.mp (Option.some.inj h)
        exact .template hkind.1 (fun c hc => by simpa using List.find?_eq_none.mp hkind.2 c hc)
          htext hbefore hafter hhead hlast
      · cases h

namespace Place

variable (bytes : ByteArray)

/-- The place as a spot with no more above it than its parent. -/
def spot (p : Place) : Spot := ⟨p.node, p.parent.toList.map fun parent => ⟨parent, []⟩⟩

/-- A call of `import()` stands here, and its first argument writes `target`. -/
def Imports (p : Place) (target : String) : Prop :=
  p.node.kind = "call_expression" ∧
    (∃ function, p.node.child? .function = some function ∧ function.kind = "import") ∧
    ∃ arguments argument, p.node.child? .arguments = some arguments ∧
      arguments.proper.head? = some argument ∧ argument.Writes bytes target

/-- An identifier stands here that names the CommonJS global `g`. -/
def Uses (p : Place) (g : Global) : Prop := p.node.kind = "identifier" ∧ p.spot.Names bytes g

variable {bytes} {p : Place}

theorem importTarget?_eq_some_iff {target : String} :
    p.importTarget? bytes = some target ↔ p.Imports bytes target := by
  rw [importTarget?_eq, Option.ite_none_right_eq_some, Spot.isImportCall_iff, and_assoc, Imports]
  apply and_congr_right'
  apply and_congr_right'
  simp only [callTarget?, Option.bind_eq_some_iff, Tree.writes_iff]
  constructor
  · rintro ⟨argument, ⟨arguments, harguments, hargument⟩, hvalue⟩
    exact ⟨arguments, argument, harguments, hargument, hvalue⟩
  · rintro ⟨arguments, argument, harguments, hargument, hvalue⟩
    exact ⟨argument, ⟨arguments, harguments, hargument⟩, hvalue⟩

theorem asked_spot (bytes : ByteArray) (p : Place) : p.spot.asked bytes = p.asked bytes := by
  obtain ⟨parent, node⟩ := p
  cases parent <;> rfl

theorem global?_eq_some_iff {g : Global} : p.global? bytes = some g ↔ p.Uses bytes g := by
  rw [global?, Option.ite_none_right_eq_some, Uses, Spot.names_iff, asked_spot]
  rfl

end Place

end ModuleGraph.Source
