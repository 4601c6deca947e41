import ModuleGraph.Proofs.Extension.Keys
import ModuleGraph.Proofs.Firsts

/-!
# Tables as sums of insertions

Main statement: `insertAll_exact`. A table is known by the insertions that made it. It says of a key
what the last insertion under it said, and it keeps the keys in the order of their first insertions.
So a key keeps its place when its kind changes, and an extension that stops being one of modules
and is one again later is tried where it was tried before.

## Implementation notes

The keys are stated apart from the table: an extension is entered plain, in small letters and
without the dots it begins with, and a question is asked in small letters with its dots.
-/

namespace ModuleGraph.Extension.Table

/-- The capital letters, each with its small one. -/
def letters : List (Char × Char) :=
  "ABCDEFGHIJKLMNOPQRSTUVWXYZ".toList.zip "abcdefghijklmnopqrstuvwxyz".toList

/-- The small letter of a capital one; any other character is its own. -/
def smallLetter (c : Char) : Char := (letters.lookup c).getD c

/-- A text in small letters. -/
def small (s : String) : String := String.ofList (s.toList.map smallLetter)

/-- Characters after the dots that they begin with. -/
def afterDots : List Char → List Char
  | '.' :: rest => afterDots rest
  | cs => cs

/-- An extension in small letters, without the dots it begins with. -/
def plain (ext : String) : String := String.ofList ((afterDots ext.toList).map smallLetter)

/-- The plain extensions of some insertions, one for each of them. -/
def keysOf (pairs : List (String × Kind)) : List String := pairs.map fun p => plain p.1

/-- What the last of some insertions under a key says. -/
def lastKind? (pairs : List (String × Kind)) (key : String) : Option Kind :=
  (pairs.filter fun p => plain p.1 = key).getLast?.map (·.2)

/-- The table sums up these insertions: its keys stand in the order of their first insertions, and
each of them has the kind of its last insertion. -/
structure SumsUp (pairs : List (String × Kind)) (t : Table) : Prop where
  keys : IsFirsts (keysOf pairs) t.keys
  kind : ∀ e ∈ t.entries, lastKind? pairs e.1 = some e.2

variable {pairs : List (String × Kind)} {t : Table}

/-- The characters that are moved to lower case are the capital letters. -/
theorem mem_letters_of_le {c : Char} (hlow : 65 ≤ c.toNat) (hhigh : c.toNat ≤ 90) :
    c ∈ letters.map (·.1) := by
  have hall : ∀ k : Fin 26, Char.ofNat (65 + k.val) ∈ letters.map (·.1) := by decide
  have hc : 65 + (c.toNat - 65) = c.toNat := by omega
  have hmem := hall ⟨c.toNat - 65, by omega⟩
  rwa [hc, Char.ofNat_toNat] at hmem

theorem smallLetter_eq (c : Char) : smallLetter c = c.toLower := by
  have hletters : ∀ p ∈ letters, p.1.toLower = p.2 := by decide
  rw [smallLetter]
  cases h : letters.lookup c with
  | some d =>
      obtain ⟨before, after, hsplit, _⟩ := List.lookup_eq_some_iff.mp h
      have hmem : (c, d) ∈ letters := by
        rw [hsplit]
        exact List.mem_append_right _ List.mem_cons_self
      exact (hletters _ hmem).symm
  | none =>
      have hnot : c ∉ letters.map (·.1) := by
        intro hmem
        obtain ⟨p, hp, rfl⟩ := List.mem_map.mp hmem
        simpa using List.lookup_eq_none_iff.mp h p hp
      rw [Option.getD_none]
      unfold Char.toLower
      rw [dif_neg fun hupper => hnot (mem_letters_of_le hupper.1 hupper.2)]

theorem small_eq (s : String) : small s = Text.lower s := by
  rw [← String.toList_inj, small, String.toList_ofList, Text.toList_lower]
  exact List.map_congr_left fun c _ => smallLetter_eq c

theorem afterDots_eq (cs : List Char) : afterDots cs = cs.dropWhile (· == '.') := by
  fun_induction afterDots cs with
  | case1 rest ih => rw [ih, List.dropWhile_cons_of_pos (by decide)]
  | case2 cs h =>
      cases cs with
      | nil => rfl
      | cons c rest =>
          have hdot : c ≠ '.' := fun hdot => h rest (by rw [hdot])
          rw [List.dropWhile_cons_of_neg (by simpa using hdot)]

/-- Extensions are entered under their plain ones. -/
theorem keyOf_eq_plain (ext : String) : keyOf ext = plain ext := by
  rw [keyOf, ← small_eq, small, Text.toList_trimDots, ← afterDots_eq]
  rfl

theorem lastKind?_concat (pairs : List (String × Kind)) (p : String × Kind) (key : String) :
    lastKind? (pairs ++ [p]) key = if plain p.1 = key then some p.2 else lastKind? pairs key := by
  by_cases hkey : plain p.1 = key <;> simp [lastKind?, List.filter_append, hkey]

theorem lastKind?_eq_none_iff {key : String} :
    lastKind? pairs key = none ↔ key ∉ keysOf pairs := by
  simp [lastKind?, keysOf]

namespace SumsUp

theorem empty : SumsUp [] .empty := ⟨.nil, by simp [Table.empty]⟩

/-- One more insertion is the last one under its key and changes nothing under the others. -/
theorem insert (h : SumsUp pairs t) (ext : String) (kind : Kind) :
    SumsUp (pairs ++ [(ext, kind)]) (t.insert ext kind) := by
  have hkeys : keysOf (pairs ++ [(ext, kind)]) = keysOf pairs ++ [keyOf ext] := by
    rw [keyOf_eq_plain]
    exact List.map_append
  by_cases hknown : keyOf ext ∈ t.keys
  · constructor
    · rw [hkeys, keys_insert_of_mem hknown]
      exact h.keys.append_of_mem hknown
    · intro e he
      rw [entries_insert_of_mem hknown] at he
      obtain ⟨old, hold, rfl⟩ := List.mem_map.mp he
      rw [lastKind?_concat, ← keyOf_eq_plain]
      by_cases hkey : keyOf ext = old.1
      · simp [hkey]
      · have hother : old.1 ≠ keyOf ext := Ne.symm hkey
        simpa [hkey, hother] using h.kind old hold
  · constructor
    · rw [hkeys, keys_insert_of_not_mem hknown]
      exact h.keys.append_of_not_mem hknown
    · intro e he
      rw [entries_insert_of_not_mem hknown] at he
      rw [lastKind?_concat, ← keyOf_eq_plain]
      rcases List.mem_append.mp he with he | he
      · have hother : keyOf ext ≠ e.1 := by
          intro hkey
          rw [hkey] at hknown
          exact hknown (mem_keys_of_mem he)
        rw [if_neg hother]
        exact h.kind e he
      · rw [List.mem_singleton.mp he, if_pos rfl]

theorem insertAll (h : SumsUp pairs t) (more : List (String × Kind)) :
    SumsUp (pairs ++ more) (t.insertAll more) := by
  induction more generalizing pairs t with
  | nil =>
      rw [List.append_nil]
      exact h
  | cons p rest ih =>
      rw [List.append_cons]
      exact ih (h.insert p.1 p.2)

/-- A question is answered by the last insertion under it. -/
theorem get?_eq (h : SumsUp pairs t) (hgrown : t.Grown) (q : String) :
    t.get? q = lastKind? pairs (small q) := by
  rw [get?, hgrown.find?_eq, small_eq]
  cases hfind : t.entries.find? (·.1 == Text.lower q) with
  | some e =>
      have hkey : e.1 = Text.lower q := by simpa using List.find?_some hfind
      rw [← hkey, h.kind e (List.mem_of_find?_eq_some hfind)]
      rfl
  | none =>
      symm
      apply lastKind?_eq_none_iff.mpr
      rw [← h.keys.mem_iff]
      intro hmem
      obtain ⟨e, he, hkey⟩ := List.mem_map.mp hmem
      simpa [hkey] using List.find?_eq_none.mp hfind e he

theorem size_eq (h : SumsUp pairs t) : t.size = (keysOf pairs).toFinset.card := by
  have hsize : t.size = t.keys.length := (List.length_map _).symm
  rw [hsize, h.keys.length_eq]

/-- The extensions of modules are the keys under which the last insertion says so. -/
theorem modules_eq (h : SumsUp pairs t) :
    t.modules = t.keys.filter fun key => (lastKind? pairs key).any Kind.isModule := by
  rw [modules, Table.keys, List.filter_map]
  congr 1
  apply List.filter_congr
  intro e he
  rw [Function.comp_apply, h.kind e he]
  rfl

end SumsUp

/-- Insertions under known keys move no key and add none. -/
theorem keys_insertAll_of_known {more : List (String × Kind)}
    (h : ∀ key ∈ keysOf more, key ∈ t.keys) : (t.insertAll more).keys = t.keys := by
  induction more generalizing t with
  | nil => rfl
  | cons p rest ih =>
      have hfirst : (t.insert p.1 p.2).keys = t.keys :=
        keys_insert_of_mem (keyOf_eq_plain p.1 ▸ h (plain p.1) List.mem_cons_self)
      calc
        (t.insertAll (p :: rest)).keys = ((t.insert p.1 p.2).insertAll rest).keys := rfl
        _ = (t.insert p.1 p.2).keys :=
          ih fun key hkey => hfirst.symm ▸ h key (List.mem_cons_of_mem _ hkey)
        _ = t.keys := hfirst

theorem insertAll_append (t : Table) (pairs more : List (String × Kind)) :
    t.insertAll (pairs ++ more) = (t.insertAll pairs).insertAll more :=
  List.foldl_append

/-- A table that is made by insertions answers by the last insertion under a key, has as many
entries as there were keys, and tries the extensions of modules in the order in which their keys
were first inserted, also after some of the keys were given other kinds. The tables of all
projects are made so. -/
theorem insertAll_exact :
    (∀ pairs : List (String × Kind),
      let t := Table.empty.insertAll pairs
      (∀ q, t.get? q = lastKind? pairs (small q)) ∧
        t.size = (keysOf pairs).toFinset.card ∧
        IsFirsts (keysOf pairs) t.keys ∧
        (t.modules = t.keys.filter fun key => (lastKind? pairs key).any Kind.isModule) ∧
        ∀ overrides, (∀ key ∈ keysOf overrides, key ∈ t.keys) →
          (t.insertAll overrides).modules =
            t.keys.filter fun key => (lastKind? (pairs ++ overrides) key).any Kind.isModule) ∧
      ∃ base, standard = Table.empty.insertAll base ∧
        ∀ s : Settings, s.table = Table.empty.insertAll (base ++ s.extensions.getD []) := by
  constructor
  · intro pairs t
    have h : SumsUp pairs t := SumsUp.empty.insertAll pairs
    refine ⟨h.get?_eq (Grown.empty.insertAll pairs), h.size_eq, h.keys, h.modules_eq, ?_⟩
    intro overrides hknown
    rw [(h.insertAll overrides).modules_eq, keys_insertAll_of_known hknown]
  · refine ⟨_, rfl, fun s => ?_⟩
    rw [insertAll_append]
    rfl

/-- An extension keeps its place while it is one of assets. -/
example :
    let pairs : List (String × Kind) :=
      [(".SVG", .asset .image), ("ts", .module .typescript), ("Vue", .module .javascript),
        ("svg", .module .javascript), (".vue", .asset .data), ("..VUE", .module .typescript)]
    (Table.empty.insertAll pairs).modules = ["svg", "ts", "vue"] := by
  cbv

end ModuleGraph.Extension.Table
