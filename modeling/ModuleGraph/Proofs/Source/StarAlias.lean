import ModuleGraph.Proofs.Extraction.Erasure
import ModuleGraph.Proofs.Text.Cut
import ModuleGraph.Source.Lower

/-!
# The name of a star export

Main statement: `exportItem_star`. A star export without a namespace node in its tree takes its
name from its text: a name is read if the word `as` and the name follow the first star of the
text. Comments behind the star of the statement are never taken for that, but a comment before
it can be: its own star comes first, and what it says right behind that star is read.

## Implementation notes

The text of a statement is searched for a star without regard to its comments. The reading that
starts there never crosses a second star. So when a comment holds the first star, all that stands
behind the next one is of no account, be that the end of the comment or the star of the statement.
-/

namespace ModuleGraph.Source

open Text (isBlank skipBlanks)

/-- What stands around the word `as` and behind it: blanks that may be missing, blanks that may not,
and a name that is not empty and goes on for as long as it can. -/
structure AroundAs (gap blanks : List Char) (name : String) (after : List Char) : Prop where
  gap_blank : ∀ c ∈ gap, isBlank c = true
  blanks_blank : ∀ c ∈ blanks, isBlank c = true
  blanks_ne : blanks ≠ []
  name_chars : ∀ c ∈ name.toList, isNameChar c = true
  name_ne : name ≠ ""
  stops : ∀ c ∈ after.head?, isNameChar c = false

/-- The characters read `as name`. -/
def ReadsAs (cs : List Char) (name : String) : Prop :=
  ∃ gap blanks after : List Char,
    cs = gap ++ 'a' :: 's' :: (blanks ++ (name.toList ++ after)) ∧ AroundAs gap blanks name after

/-- Behind the first star of the text stands `as name`. -/
def NamesStar (text name : String) : Prop :=
  ∃ before after : List Char, text.toList = before ++ '*' :: after ∧ '*' ∉ before ∧
    ReadsAs after name

/-- What may stand between two words of a statement: blanks, and comments of both kinds. -/
inductive IsGap : List Char → Prop
  | nil : IsGap []
  | blank {c : Char} {rest : List Char} (hc : isBlank c = true) (hrest : IsGap rest) :
    IsGap (c :: rest)
  | line {body rest : List Char} {stop : Char}
    (hstop : stop ∈ ['\n', '\r', '\u2028', '\u2029']) (hrest : IsGap rest) :
    IsGap ('/' :: '/' :: (body ++ stop :: rest))
  | block {body rest : List Char} (hbody : ¬ ['*', '/'] <:+: body) (hrest : IsGap rest) :
    IsGap ('/' :: '*' :: (body ++ '*' :: '/' :: rest))

/-- The code points of blanks. -/
def blankCodes : List Nat :=
  [9, 10, 11, 12, 13, 0x20, 0x85, 0xa0, 0x1680, 0x2000, 0x2001, 0x2002, 0x2003, 0x2004, 0x2005,
    0x2006, 0x2007, 0x2008, 0x2009, 0x200a, 0x2028, 0x2029, 0x202f, 0x205f, 0x3000]

theorem mem_blankCodes {c : Char} (h : isBlank c = true) : c.toNat ∈ blankCodes := by
  simp only [isBlank, Bool.or_eq_true, Bool.and_eq_true, decide_eq_true_eq, beq_iff_eq] at h
  simp only [blankCodes, List.mem_cons, List.not_mem_nil, or_false]
  omega

/-- No blank belongs to a name. -/
theorem isNameChar_of_isBlank {c : Char} (h : isBlank c = true) : isNameChar c = false := by
  have hcode := mem_blankCodes h
  have hnone : ∀ n ∈ blankCodes,
      (Text.alphanumericRanges.any fun r => r.1 ≤ n && n ≤ r.2) = false := by decide +kernel
  have hother : ∀ d : Char, d.toNat ∉ blankCodes → (c == d) = false := by
    intro d hd
    apply beq_eq_false_iff_ne.mpr
    rintro rfl
    exact hd hcode
  rw [isNameChar, Text.isAlphanumeric, hnone _ hcode, hother '_' (by decide),
    hother '$' (by decide)]
  rfl

theorem isBlank_of_isNameChar {c : Char} (h : isNameChar c = true) : isBlank c = false := by
  rw [← Bool.not_eq_true]
  intro hblank
  rw [isNameChar_of_isBlank hblank] at h
  exact Bool.false_ne_true h

/-- The name begins with a character that is not blank. -/
theorem AroundAs.not_blank {gap blanks after : List Char} {name : String}
    (h : AroundAs gap blanks name after) :
    ∀ c ∈ (name.toList ++ after).head?, isBlank c = false := by
  have hname := h.name_chars
  obtain ⟨d, ds, hds⟩ := List.exists_cons_of_ne_nil (mt String.toList_eq_nil_iff.mp h.name_ne)
  rw [hds] at hname ⊢
  rintro c ⟨⟩
  exact isBlank_of_isNameChar (hname d List.mem_cons_self)

/-- A reading skips blanks, then the word, then blanks again, and takes the name. -/
theorem ReadsAs.iff_skipBlanks {cs : List Char} {name : String} :
    ReadsAs cs name ↔ ∃ rest, skipBlanks cs = 'a' :: 's' :: rest ∧
      rest.head?.any isBlank = true ∧ (skipBlanks rest).takeWhile isNameChar = name.toList ∧
      name ≠ "" := by
  constructor
  · rintro ⟨gap, blanks, after, rfl, h⟩
    refine ⟨blanks ++ (name.toList ++ after), ?_, ?_, ?_, h.name_ne⟩
    · exact Text.dropWhile_append_of_head h.gap_blank (by rintro c ⟨⟩; decide)
    · obtain ⟨b, bs, hbs⟩ := List.exists_cons_of_ne_nil h.blanks_ne
      rw [hbs]
      exact h.blanks_blank b (hbs ▸ List.mem_cons_self)
    · rw [skipBlanks, Text.dropWhile_append_of_head h.blanks_blank h.not_blank,
        Text.takeWhile_append_of_head h.name_chars h.stops]
  · rintro ⟨rest, hrest, hblank, hname, hnonempty⟩
    obtain ⟨gap, word, rfl, hgap, _, _, hword⟩ := Text.exists_eq_append isBlank cs
    obtain ⟨blanks, tail, rfl, hblanks, hstop, _, htail⟩ := Text.exists_eq_append isBlank rest
    obtain ⟨front, after, rfl, hfront, hafter, hfront', _⟩ :=
      Text.exists_eq_append isNameChar tail
    rw [skipBlanks, htail, hfront'] at hname
    rw [skipBlanks, hword] at hrest
    subst hname hrest
    refine ⟨gap, blanks, after, rfl, hgap, hblanks, ?_, hfront, hnonempty, hafter⟩
    rintro rfl
    -- without blanks the name itself would begin with one
    cases hhead : (name.toList ++ after).head? with
    | none => rw [List.nil_append, hhead] at hblank; cases hblank
    | some c =>
        rw [List.nil_append, hhead] at hblank
        exact Bool.false_ne_true ((hstop c hhead).symm.trans hblank)

/-- A name is read from the first star of a text. -/
theorem starAlias?_eq_some_iff {text name : String} :
    starAlias? text = some name ↔ NamesStar text name := by
  rw [starAlias?, Option.bind_eq_some_iff]
  constructor
  · rintro ⟨⟨before, after⟩, hcut, hname⟩
    obtain ⟨htext, hbefore⟩ := Text.cutFirst_eq_some_iff.mp hcut
    obtain ⟨rest, hrest, hname⟩ := Option.bind_eq_some_iff.mp hname
    rw [Text.afterPrefix?_eq_some_iff, String.toList_ofList] at hrest
    refine ⟨before.toList, after.toList, htext, hbefore,
      ReadsAs.iff_skipBlanks.mpr ⟨rest.toList, hrest, ?_⟩⟩
    dsimp only at hname
    split at hname
    · rename_i hblank
      split at hname
      · cases hname
      · rename_i hnonempty
        cases hname
        rw [String.toList_ofList]
        refine ⟨hblank, rfl, fun hnil => hnonempty ?_⟩
        rw [List.isEmpty_iff]
        exact String.ofList_eq_empty_iff.mp hnil
    · cases hname
  · rintro ⟨before, after, htext, hbefore, hreads⟩
    obtain ⟨rest, hrest, hblank, hname, hnonempty⟩ := ReadsAs.iff_skipBlanks.mp hreads
    have hcut : Text.cutFirst '*' text = some (String.ofList before, String.ofList after) := by
      rw [Text.cutFirst_eq_some_iff, String.toList_ofList, String.toList_ofList]
      exact ⟨htext, hbefore⟩
    have has : Text.afterPrefix? "as" (String.ofList ('a' :: 's' :: rest)) =
        some (String.ofList rest) := by
      simp [Text.afterPrefix?_eq_some_iff]
    have hfull : name.toList.isEmpty = false := by simpa using hnonempty
    refine ⟨_, hcut, ?_⟩
    dsimp only
    rw [String.toList_ofList, hrest, has, Option.bind_some, String.toList_ofList, if_pos hblank,
      hname, hfull, if_neg Bool.false_ne_true, String.ofList_toList]

/-- What is written in front of a separator and does not have it stands in front of every
separator. -/
theorem exists_of_append_eq {sep : Char} {xs after cs rest : List Char}
    (h : xs ++ after = cs ++ sep :: rest) (hxs : sep ∉ xs) :
    ∃ more, after = more ++ sep :: rest ∧ cs = xs ++ more := by
  rcases List.append_eq_append_iff.mp h with ⟨more, hcs, hafter⟩ | ⟨more, rfl, hmore⟩
  · exact ⟨more, hafter, hcs⟩
  · cases more with
    | nil => exact ⟨[], hmore.symm, by rw [List.append_nil, List.append_nil]⟩
    | cons c more =>
        obtain rfl : sep = c := (List.cons.inj hmore).1
        exact absurd (List.mem_append_right _ List.mem_cons_self) hxs

/-- A reading ends before the next star. -/
theorem ReadsAs.append_star_iff {cs rest : List Char} {name : String} :
    ReadsAs (cs ++ '*' :: rest) name ↔ ReadsAs cs name := by
  have hstar : isNameChar '*' = false := by decide +kernel
  constructor
  · rintro ⟨gap, blanks, after, heq, h⟩
    have hfree : '*' ∉ gap ++ 'a' :: 's' :: (blanks ++ name.toList) := by
      have hblank : isBlank '*' = false := by decide
      simp only [List.mem_append, List.mem_cons, not_or]
      refine ⟨fun hmem => ?_, by decide, by decide, fun hmem => ?_, fun hmem => ?_⟩
      · exact Bool.false_ne_true (hblank.symm.trans (h.gap_blank _ hmem))
      · exact Bool.false_ne_true (hblank.symm.trans (h.blanks_blank _ hmem))
      · exact Bool.false_ne_true (hstar.symm.trans (h.name_chars _ hmem))
    have hread : gap ++ 'a' :: 's' :: (blanks ++ name.toList) ++ after = cs ++ '*' :: rest := by
      rw [heq]
      simp
    obtain ⟨more, rfl, rfl⟩ := exists_of_append_eq hread hfree
    refine ⟨gap, blanks, more, by simp, { h with stops := ?_ }⟩
    cases more with
    | nil => rintro c ⟨⟩
    | cons c more => exact h.stops
  · rintro ⟨gap, blanks, after, rfl, h⟩
    refine ⟨gap, blanks, after ++ '*' :: rest, by simp, { h with stops := ?_ }⟩
    cases after with
    | nil => rintro c ⟨⟩; exact hstar
    | cons a after => exact h.stops

/-- Nothing is read where a gap stands before a word that does not begin with the letter of
`as`. -/
theorem IsGap.not_readsAs {gap : List Char} (h : IsGap gap) {tail : List Char} {name : String}
    (htail : (skipBlanks tail).head? ≠ some 'a') : ¬ ReadsAs (gap ++ tail) name := by
  intro hreads
  obtain ⟨rest, hrest, _⟩ := ReadsAs.iff_skipBlanks.mp hreads
  have hhead : (skipBlanks (gap ++ tail)).head? = some 'a' := by rw [hrest]; rfl
  clear hreads hrest
  induction h with
  | nil => exact htail hhead
  | blank hc _ ih =>
      rw [List.cons_append, skipBlanks, List.dropWhile_cons_of_pos hc] at hhead
      exact ih hhead
  | line | block =>
      rw [List.cons_append, skipBlanks, List.dropWhile_cons_of_neg (by decide)] at hhead
      cases hhead

namespace NamesStar

variable {text lead gap tail name : String}

/-- Only what follows the first star is read. -/
theorem iff_readsAs {before after : List Char} (htext : text.toList = before ++ '*' :: after)
    (hbefore : '*' ∉ before) : NamesStar text name ↔ ReadsAs after name := by
  constructor
  · rintro ⟨before', after', htext', hbefore', hreads⟩
    rw [htext] at htext'
    obtain ⟨more, hmore, heq⟩ := exists_of_append_eq htext' hbefore
    obtain ⟨more', hmore', heq'⟩ := exists_of_append_eq htext'.symm hbefore'
    obtain rfl : more = [] := by
      have hlen := congrArg List.length heq
      have hlen' := congrArg List.length heq'
      rw [List.length_append] at hlen hlen'
      exact List.length_eq_zero_iff.mp (by omega)
    cases hmore
    exact hreads
  · intro hreads
    exact ⟨before, after, htext, hbefore, hreads⟩

/-- Nothing behind the second star is read. -/
theorem append_star_iff (hlead : '*' ∈ lead.toList) {rest : List Char}
    (htext : text.toList = lead.toList ++ '*' :: rest) :
    NamesStar text name ↔ NamesStar lead name := by
  obtain ⟨before, after, hcut, hbefore⟩ := List.eq_append_cons_of_mem hlead
  have htext' : text.toList = before ++ '*' :: (after ++ '*' :: rest) := by
    rw [htext, hcut, List.append_assoc, List.cons_append]
  rw [iff_readsAs htext' hbefore, ReadsAs.append_star_iff, ← iff_readsAs hcut hbefore]

theorem star_mem (h : NamesStar text name) : '*' ∈ text.toList := by
  obtain ⟨before, after, htext, _⟩ := h
  rw [htext]
  exact List.mem_append_right _ List.mem_cons_self

/-- Comments behind the star of a statement are not read, and what stands before it is read by
itself. -/
theorem iff_lead (htext : text = lead ++ "*" ++ gap ++ "from" ++ tail) (hgap : IsGap gap.toList) :
    NamesStar text name ↔ NamesStar lead name := by
  have hchars : text.toList =
      lead.toList ++ '*' :: (gap.toList ++ ("from".toList ++ tail.toList)) := by
    rw [htext]
    simp
  by_cases hlead : '*' ∈ lead.toList
  · exact append_star_iff hlead hchars
  · rw [iff_readsAs hchars hlead]
    refine iff_of_false (hgap.not_readsAs ?_) fun h => hlead h.star_mem
    have hblank : ¬ isBlank 'f' = true := by decide
    have hfrom : skipBlanks ("from".toList ++ tail.toList) = "from".toList ++ tail.toList :=
      List.dropWhile_cons_of_neg hblank
    rw [hfrom]
    exact fun h => absurd (Option.some.inj h) (by decide)

/-- A block comment that holds the first star is read by itself. -/
theorem iff_comment {body rest : String} (htext : text = lead ++ "/*" ++ body ++ "*/" ++ rest)
    (hlead : '*' ∉ lead.toList) : NamesStar text name ↔ ReadsAs body.toList name := by
  have hchars : text.toList =
      (lead.toList ++ ['/']) ++ '*' :: (body.toList ++ '*' :: ('/' :: rest.toList)) := by
    rw [htext]
    simp
  have hfree : '*' ∉ lead.toList ++ ['/'] := by simpa using hlead
  rw [iff_readsAs hchars hfree, ReadsAs.append_star_iff]

end NamesStar

variable {bytes : ByteArray} {t : Tree}

/-- Without a namespace node the name is that of the text. -/
theorem exportItem_eq_all (hstar : t.hasToken "*" = true)
    (hplain : t.childOfKind? "namespace_export" = none) :
    exportItem bytes t =
      .exporting (.all (((t.child? .source).bind (literal? bytes)).getD "")
        (starAlias? (textOf bytes t)) (isTypeExport bytes t)) := by
  have hexport : isStarExport bytes t = true := by simp [isStarExport, hstar]
  have halias : exportAlias? bytes t = starAlias? (textOf bytes t) := by
    rw [exportAlias?, hplain, Option.bind_none, Option.map_none, Option.none_or]
  simp only [exportItem, hexport, halias, if_true]

/-- A star export is one of the edges of its module, whose kind tells whether it has a name. -/
theorem exists_edge_of_star {items : List Item} {source : String} {asName : Option String}
    {typeOnly : Bool} (hitem : .exporting (.all source asName typeOnly) ∈ items) (file : Path)
    (table : Extension.Table) :
    ∃ x, Extraction.ofItems file items table = .ok x ∧ ∃ e ∈ x.edges,
      e.specifier.path = (Specifier.normalize source file table).path ∧
        e.kind = asName.elim .reexportAll fun _ => .reexportNamespace := by
  obtain ⟨x, hx, _, hrecords, hmerge⟩ := Extraction.exists_ofItems_eq_ok file items table
  rw [hrecords, Record.filterMap_added?_ofItems] at hmerge
  let use : Use := ⟨source, asName.elim .reexportAll fun _ => .reexportNamespace, typeOnly⟩
  have huse : use ∈ items.flatMap Item.uses := by
    apply List.mem_flatMap.mpr
    exact ⟨_, hitem, by cases asName <;> exact List.mem_cons_self⟩
  have hkey : (use.contribution file table).key ∈ x.edges.map Edge.key := by
    rw [hmerge.keys.mem_iff]
    exact List.mem_map_of_mem (List.mem_map_of_mem huse)
  obtain ⟨e, he, hkey⟩ := List.mem_map.mp hkey
  exact ⟨x, hx, e, he, congrArg Prod.fst hkey, congrArg Prod.snd hkey⟩

/-- A star export whose tree has no namespace node has the name that stands behind the first
star of its text, and makes an edge to a namespace exactly when there is one. Comments behind
the star of the statement are never read, and a block comment before it that holds the first star
is all that is read. -/
theorem exportItem_star (bytes : ByteArray) (t : Tree) (hstar : t.hasToken "*" = true)
    (hplain : t.childOfKind? "namespace_export" = none) :
    ∃ source asName typeOnly, exportItem bytes t = .exporting (.all source asName typeOnly) ∧
      (∀ name, asName = some name ↔ NamesStar (textOf bytes t) name) ∧
      (∀ (file : Path) (table : Extension.Table) (items : List Item), exportItem bytes t ∈ items →
        ∃ x, Extraction.ofItems file items table = .ok x ∧ ∃ e ∈ x.edges,
          e.specifier.path = (Specifier.normalize source file table).path ∧
            e.kind = asName.elim .reexportAll fun _ => .reexportNamespace) ∧
      (∀ lead gap tail : String, textOf bytes t = lead ++ "*" ++ gap ++ "from" ++ tail →
        IsGap gap.toList → ∀ name, asName = some name ↔ NamesStar lead name) ∧
      ∀ lead body rest : String, textOf bytes t = lead ++ "/*" ++ body ++ "*/" ++ rest →
        '*' ∉ lead.toList → ∀ name, asName = some name ↔ ReadsAs body.toList name := by
  refine ⟨_, _, _, exportItem_eq_all hstar hplain, fun name => starAlias?_eq_some_iff, ?_, ?_, ?_⟩
  · intro file table items hitem
    rw [exportItem_eq_all hstar hplain] at hitem
    exact exists_edge_of_star hitem file table
  · intro lead gap tail htext hgap name
    rw [starAlias?_eq_some_iff, NamesStar.iff_lead htext hgap]
  · intro lead body rest htext hlead name
    rw [starAlias?_eq_some_iff, NamesStar.iff_comment htext hlead]

/-- A star export with a comment before its star. -/
def commentedBytes (body : String) : ByteArray :=
  ("export /*" ++ body ++ "*/ * from './a';").toUTF8

/-- The tree of a star export with a comment before its star. -/
def commentedStar (body : String) : Tree :=
  let stop := body.utf8ByteSize + 11
  .node ⟨"export_statement", true, none, 0, stop + 14⟩ [
    .node ⟨"export", false, none, 0, 6⟩ [],
    .node ⟨"comment", true, none, 7, stop⟩ [],
    .node ⟨"*", false, none, stop + 1, stop + 2⟩ [],
    .node ⟨"from", false, none, stop + 3, stop + 7⟩ [],
    .node ⟨"string", true, some .source, stop + 8, stop + 13⟩ [
      .node ⟨"'", false, none, stop + 8, stop + 9⟩ [],
      .node ⟨"string_fragment", true, none, stop + 9, stop + 12⟩ [],
      .node ⟨"'", false, none, stop + 12, stop + 13⟩ []],
    .node ⟨";", false, none, stop + 13, stop + 14⟩ []]

/-- A comment that does not begin with `as` gives no name. -/
theorem exportItem_star_commented :
    (commentedStar " all ").hasToken "*" = true ∧
    (commentedStar " all ").childOfKind? "namespace_export" = none ∧
    ∃ source typeOnly, exportItem (commentedBytes " all ") (commentedStar " all ") =
      .exporting (.all source none typeOnly) := by
  have hstar : (commentedStar " all ").hasToken "*" = true := by decide
  have hplain : (commentedStar " all ").childOfKind? "namespace_export" = none := rfl
  have htext : textOf (commentedBytes " all ") (commentedStar " all ") =
      "export " ++ "/*" ++ " all " ++ "*/" ++ " * from './a';" := by decide +kernel
  obtain ⟨source, asName, typeOnly, hitem, _, _, _, hcomment⟩ :=
    exportItem_star (commentedBytes " all ") (commentedStar " all ") hstar hplain
  refine ⟨hstar, hplain, source, typeOnly, ?_⟩
  cases asName with
  | none => exact hitem
  | some name =>
      have hreads := (hcomment _ _ _ htext (by decide) name).mp rfl
      obtain ⟨rest, hrest, _⟩ := ReadsAs.iff_skipBlanks.mp hreads
      cases hrest

/-- A comment that begins with `as` gives a star export a name. -/
theorem not_nameless_behind_comment :
    ¬ ∀ (bytes : ByteArray) (t : Tree), t.kind = "export_statement" → t.hasToken "*" = true →
      t.childOfKind? "namespace_export" = none → t.childOfKind? "ERROR" = none →
      ∃ source typeOnly, exportItem bytes t = .exporting (.all source none typeOnly) := by
  intro h
  obtain ⟨source, typeOnly, hnone⟩ := h (commentedBytes " as ns ") (commentedStar " as ns ")
    rfl (by decide) rfl rfl
  have hsome : starAlias? (textOf (commentedBytes " as ns ") (commentedStar " as ns ")) =
      some "ns" := by decide +kernel
  rw [exportItem_eq_all (by decide) rfl, hsome] at hnone
  cases hnone

end ModuleGraph.Source
