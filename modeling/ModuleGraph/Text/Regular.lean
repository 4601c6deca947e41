/-!
# Regular expressions

Sets of words that are built from single symbols by sequence, choice and repetition. Whether
a word is in such a set is found out by reading it once, with a mark on each place of the
expression that can have been reached. Main statement: `accepts_iff`, the procedure answers
what `Matches` says.

## Implementation notes

A symbol is described by a test and not by itself, so that a class of symbols is one symbol.
The expression does not change while a word is read, only its marks do, so that a symbol takes
no more time than the expression has parts.
-/

namespace ModuleGraph.Text

/-- A regular expression over symbols of type `α`. -/
inductive Regular (α : Type)
  /-- No word. -/
  | never
  /-- The empty word. -/
  | nothing
  /-- One symbol that passes the test. -/
  | one (test : α → Bool)
  /-- A word of the first, then a word of the second. -/
  | next (first second : Regular α)
  /-- A word of either. -/
  | either (left right : Regular α)
  /-- Words of the same set, one after the other. -/
  | repeated (each : Regular α)

namespace Regular

variable {α : Type}

instance : Inhabited (Regular α) := ⟨.never⟩

/-- The word is in the set. -/
inductive Matches : Regular α → List α → Prop
  | nothing : Matches .nothing []
  | one {test : α → Bool} {a : α} (h : test a = true) : Matches (.one test) [a]
  | next {r s : Regular α} {u v : List α} (hr : Matches r u) (hs : Matches s v) :
      Matches (.next r s) (u ++ v)
  | left {r s : Regular α} {u : List α} (h : Matches r u) : Matches (.either r s) u
  | right {r s : Regular α} {u : List α} (h : Matches s u) : Matches (.either r s) u
  | done {r : Regular α} : Matches (.repeated r) []
  | again {r : Regular α} {u v : List α} (h : Matches r u) (t : Matches (.repeated r) v) :
      Matches (.repeated r) (u ++ v)

/-- The empty word is in the set. -/
def hasEmpty : Regular α → Bool
  | .never => false
  | .nothing => true
  | .one _ => false
  | .next r s => r.hasEmpty && s.hasEmpty
  | .either r s => r.hasEmpty || s.hasEmpty
  | .repeated _ => true

/-- Any symbol. -/
def any : Regular α := .one fun _ => true

/-- Any word. -/
def all : Regular α := .repeated any

/-- The word of these symbols alone. -/
def word [DecidableEq α] : List α → Regular α
  | [] => .nothing
  | a :: rest => .next (.one fun b => b = a) (word rest)

/-- The empty word is in a set just when the test says so. -/
theorem hasEmpty_iff {r : Regular α} : r.hasEmpty = true ↔ r.Matches [] := by
  constructor
  · intro h
    induction r with
    | never | one => simp [hasEmpty] at h
    | nothing => exact .nothing
    | next r s ihr ihs =>
      simp only [hasEmpty, Bool.and_eq_true] at h
      exact .next (u := []) (v := []) (ihr h.1) (ihs h.2)
    | either r s ihr ihs =>
      simp only [hasEmpty, Bool.or_eq_true] at h
      exact h.elim (fun h => .left (ihr h)) fun h => .right (ihs h)
    | repeated => exact .done
  · intro h
    generalize hw : ([] : List α) = w at h
    induction h with
    | nothing | done | again => rfl
    | one => simp at hw
    | next _ _ ihr ihs =>
      obtain ⟨hu, hv⟩ := List.append_eq_nil_iff.1 hw.symm
      simp [hasEmpty, ihr hu.symm, ihs hv.symm]
    | left _ ih => simp [hasEmpty, ih hw]
    | right _ ih => simp [hasEmpty, ih hw]

theorem matches_next_iff {r s : Regular α} {w : List α} :
    (r.next s).Matches w ↔ ∃ u v, w = u ++ v ∧ r.Matches u ∧ s.Matches v := by
  constructor
  · rintro (_ | _ | ⟨hr, hs⟩)
    exact ⟨_, _, rfl, hr, hs⟩
  · rintro ⟨u, v, rfl, hr, hs⟩
    exact .next hr hs

theorem matches_either_iff {r s : Regular α} {w : List α} :
    (r.either s).Matches w ↔ r.Matches w ∨ s.Matches w := by
  constructor
  · rintro (_ | _ | _ | h | h)
    · exact .inl h
    · exact .inr h
  · exact fun h => h.elim .left .right

/-- A word of a repetition that is not empty begins with a word that is not. -/
theorem matches_repeated_cons_iff {r : Regular α} {a : α} {w : List α} :
    (Regular.repeated r).Matches (a :: w) ↔
      ∃ u v, w = u ++ v ∧ r.Matches (a :: u) ∧ (Regular.repeated r).Matches v := by
  constructor
  · intro h
    generalize hx : a :: w = x at h
    generalize hq : Regular.repeated r = q at h
    induction h with
    | nothing | one | next | left | right => simp at hq
    | done => simp at hx
    | @again r' u v hu hv _ ih =>
      obtain rfl := Regular.repeated.inj hq
      cases u with
      | nil => exact ih (by simpa using hx) rfl
      | cons b u =>
        obtain ⟨rfl, rfl⟩ := List.cons.inj hx
        exact ⟨u, v, rfl, hu, hv⟩
  · rintro ⟨u, v, rfl, hu, hv⟩
    exact .again hu hv

/-- An expression with marks on the symbols that have just been read. -/
inductive Marked (α : Type)
  | never
  | nothing
  | one (mark : Bool) (test : α → Bool)
  | next (first second : Marked α)
  | either (left right : Marked α)
  | repeated (each : Marked α)

/-- The expression without a mark. -/
def unmarked : Regular α → Marked α
  | .never => .never
  | .nothing => .nothing
  | .one test => .one false test
  | .next r s => .next r.unmarked s.unmarked
  | .either r s => .either r.unmarked s.unmarked
  | .repeated r => .repeated r.unmarked

namespace Marked

/-- The expression that is marked. -/
def plain : Marked α → Regular α
  | .never => .never
  | .nothing => .nothing
  | .one _ test => .one test
  | .next r s => .next r.plain s.plain
  | .either r s => .either r.plain s.plain
  | .repeated r => .repeated r.plain

/-- The empty word is in the set. -/
def hasEmpty : Marked α → Bool
  | .never => false
  | .nothing => true
  | .one _ _ => false
  | .next r s => r.hasEmpty && s.hasEmpty
  | .either r s => r.hasEmpty || s.hasEmpty
  | .repeated _ => true

/-- A word of the set can end at one of the marks. -/
def isFinal : Marked α → Bool
  | .never => false
  | .nothing => false
  | .one mark _ => mark
  | .next r s => r.isFinal && s.hasEmpty || s.isFinal
  | .either r s => r.isFinal || s.isFinal
  | .repeated r => r.isFinal

/-- The marks after the symbol `a`; words of the set can also begin with it if `entered`. -/
def read (a : α) (entered : Bool) : Marked α → Marked α
  | .never => .never
  | .nothing => .nothing
  | .one _ test => .one (entered && test a) test
  | .next r s => .next (r.read a entered) (s.read a (entered && r.hasEmpty || r.isFinal))
  | .either r s => .either (r.read a entered) (s.read a entered)
  | .repeated r => .repeated (r.read a (entered || r.isFinal))

/-- The word leads from one of the marks to the end of a word of the set. -/
def Rests : Marked α → List α → Prop
  | .never, _ => False
  | .nothing, _ => False
  | .one mark _, w => mark = true ∧ w = []
  | .next r s, w => (∃ u v, w = u ++ v ∧ r.Rests u ∧ s.plain.Matches v) ∨ s.Rests w
  | .either r s, w => r.Rests w ∨ s.Rests w
  | .repeated r, w => ∃ u v, w = u ++ v ∧ r.Rests u ∧ (Regular.repeated r.plain).Matches v

end Marked

/-- The word is accepted. -/
def accepts (r : Regular α) : List α → Bool
  | [] => r.hasEmpty
  | a :: w => (w.foldl (fun m b => m.read b false) (r.unmarked.read a true)).isFinal

theorem plain_unmarked (r : Regular α) : r.unmarked.plain = r := by
  induction r <;> simp_all [unmarked, Marked.plain]

namespace Marked

theorem hasEmpty_plain (m : Marked α) : m.plain.hasEmpty = m.hasEmpty := by
  induction m <;> simp_all [plain, hasEmpty, Regular.hasEmpty]

/-- Reading changes the marks alone. -/
theorem plain_read (m : Marked α) (a : α) (entered : Bool) :
    (m.read a entered).plain = m.plain := by
  induction m generalizing entered with
  | never | nothing | one => rfl
  | next r s ihr ihs => simp only [read, plain, ihr, ihs]
  | either r s ihr ihs => simp only [read, plain, ihr, ihs]
  | repeated r ih => simp only [read, plain, ih]

/-- The empty word is in the set just when the test says so. -/
theorem hasEmpty_iff {m : Marked α} : m.hasEmpty = true ↔ m.plain.Matches [] := by
  rw [← hasEmpty_plain, Regular.hasEmpty_iff]

theorem exists_nil_append_iff {p : List α → List α → Prop} :
    (∃ u v, [] = u ++ v ∧ p u v) ↔ p [] [] := by
  constructor
  · rintro ⟨u, v, he, h⟩
    obtain ⟨rfl, rfl⟩ := List.append_eq_nil_iff.1 he.symm
    exact h
  · exact fun h => ⟨[], [], rfl, h⟩

/-- A word can end at a mark just when the empty word leads from one to an end. -/
theorem isFinal_iff {m : Marked α} : m.isFinal = true ↔ m.Rests [] := by
  induction m with
  | never | nothing | one => simp [isFinal, Rests]
  | next r s ihr ihs =>
    simp only [isFinal, Rests, exists_nil_append_iff, Bool.or_eq_true, Bool.and_eq_true,
      hasEmpty_iff, ihr, ihs]
  | either r s ihr ihs => simp only [isFinal, Rests, Bool.or_eq_true, ihr, ihs]
  | repeated r ih =>
    simp only [isFinal, Rests, exists_nil_append_iff, ih, Matches.done, and_true]

/-- A word that is split after its first symbol at the earliest, or before it. -/
theorem exists_cons_append_iff {a : α} {w : List α} {p : List α → List α → Prop} :
    (∃ u v, a :: w = u ++ v ∧ p u v) ↔
      (∃ u v, w = u ++ v ∧ p (a :: u) v) ∨ p [] (a :: w) := by
  constructor
  · rintro ⟨_ | ⟨b, u⟩, v, he, h⟩
    · exact .inr (he ▸ h)
    · obtain ⟨rfl, rfl⟩ := List.cons.inj he
      exact .inl ⟨u, v, rfl, h⟩
  · rintro (⟨u, v, rfl, h⟩ | h)
    · exact ⟨a :: u, v, rfl, h⟩
    · exact ⟨[], a :: w, rfl, h⟩

/-- After a symbol, a word leads to an end if it did so together with the symbol. -/
theorem rests_read_iff {m : Marked α} {a : α} {entered : Bool} {w : List α} :
    (m.read a entered).Rests w ↔
      m.Rests (a :: w) ∨ entered = true ∧ m.plain.Matches (a :: w) := by
  induction m generalizing entered w with
  | never | nothing =>
    simp only [read, Rests, plain, false_or, false_iff, not_and]
    rintro - ⟨⟩
  | one mark test =>
    have : (Regular.one test).Matches (a :: w) ↔ test a = true ∧ w = [] := by
      constructor
      · rintro ⟨⟩
        exact ⟨by assumption, rfl⟩
      · rintro ⟨h, rfl⟩
        exact .one h
    simp [read, Rests, plain, this, and_assoc]
  | next r s ihr ihs =>
    simp only [read, Rests, plain, plain_read, ihr, ihs, matches_next_iff,
      exists_cons_append_iff, Bool.or_eq_true, Bool.and_eq_true, isFinal_iff, hasEmpty_iff]
    grind
  | either r s ihr ihs =>
    simp only [read, Rests, plain, ihr, ihs, matches_either_iff]
    grind
  | repeated r ih =>
    simp only [read, Rests, plain, plain_read, ih, exists_cons_append_iff, Bool.or_eq_true,
      isFinal_iff, matches_repeated_cons_iff]
    grind

theorem not_rests_unmarked (r : Regular α) (w : List α) : ¬r.unmarked.Rests w := by
  induction r generalizing w <;> simp_all [unmarked, Rests]

/-- Reading a word symbol by symbol leads to an end just when the word does. -/
theorem isFinal_foldl_iff {m : Marked α} {w : List α} :
    (w.foldl (fun m b => m.read b false) m).isFinal = true ↔ m.Rests w := by
  induction w generalizing m with
  | nil => exact isFinal_iff
  | cons a w ih => simp [ih, rests_read_iff]

end Marked

/-- The words that are accepted are those that match. -/
theorem accepts_iff {r : Regular α} {w : List α} : r.accepts w = true ↔ r.Matches w := by
  cases w with
  | nil => exact hasEmpty_iff
  | cons a w =>
    simp [accepts, Marked.isFinal_foldl_iff, Marked.rests_read_iff, plain_unmarked,
      Marked.not_rests_unmarked]

end Regular

end ModuleGraph.Text
