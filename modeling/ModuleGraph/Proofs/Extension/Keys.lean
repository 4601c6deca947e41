import Mathlib.Data.List.DropRight
import Mathlib.Data.List.Nodup
import ModuleGraph.Settings

/-!
# The keys of extension tables

Main statements: `Grown.nodup_modules`, `Grown.trimDots_of_mem_modules` and `Grown.find?_eq`. Every
table is made out of the empty one by insertions. No insertion enters a key that is there a second
time, one that begins with a dot or one with capital letters. So no extension is tried twice, each
is tried as it stands, and a lookup that disregards case finds what its question finds in lower
case.
-/

namespace ModuleGraph

theorem Text.toLower_toLower (c : Char) : c.toLower.toLower = c.toLower := by
  unfold Char.toLower
  split
  · rename_i hupper
    split
    · rename_i htwice
      have hlow : 65 ≤ c.val := hupper.1
      have hhigh : c.val ≤ 90 := hupper.2
      have hmoved : c.val + 32 ≤ 90 := htwice.2
      grind
    · rfl
  · rfl

theorem Text.lower_lower (s : String) : lower (lower s) = lower s := by
  rw [← String.toList_inj, toList_lower, toList_lower, List.map_map]
  exact List.map_congr_left fun c _ => toLower_toLower c

/-- Lowering makes no dots. -/
theorem Text.toLower_eq_dot_iff {c : Char} : c.toLower = '.' ↔ c = '.' := by
  unfold Char.toLower
  split
  · rename_i hupper
    constructor
    · intro hdot
      have hval : c.val + 32 = 46 := congrArg Char.val hdot
      have hlow : 65 ≤ c.val := hupper.1
      have hhigh : c.val ≤ 90 := hupper.2
      grind
    · rintro rfl
      exact absurd hupper (by decide)
  · rfl

namespace Extension.Table

/-- The keys in the order of their first insertion. -/
def keys (t : Table) : List String := t.entries.map (·.1)

/-- The tables that insertions make out of the empty one. -/
inductive Grown : Table → Prop
  | empty : Grown empty
  | insert {t : Table} (ext : String) (kind : Kind) : Grown t → Grown (t.insert ext kind)

theorem Grown.insertAll {t : Table} (h : t.Grown) (pairs : List (String × Kind)) :
    (t.insertAll pairs).Grown := by
  induction pairs generalizing t with
  | nil => exact h
  | cons p rest ih => exact ih (.insert p.1 p.2 h)

theorem grown_standard : standard.Grown := .insertAll .empty _

section Insert

variable {t : Table} {ext : String} {kind : Kind}

theorem mem_keys_of_mem {e : String × Kind} (h : e ∈ t.entries) : e.1 ∈ t.keys :=
  List.mem_map_of_mem h

theorem any_iff_mem_keys {key : String} : t.entries.any (·.1 == key) = true ↔ key ∈ t.keys := by
  simp [keys, List.any_eq_true]

/-- Under a known key an insertion changes the kind in its place. -/
theorem entries_insert_of_mem (h : keyOf ext ∈ t.keys) :
    (t.insert ext kind).entries =
      t.entries.map fun e => if e.1 == keyOf ext then (e.1, kind) else e := by
  unfold insert
  dsimp only
  rw [if_pos (any_iff_mem_keys.mpr h)]

/-- A new key comes last. -/
theorem entries_insert_of_not_mem (h : keyOf ext ∉ t.keys) :
    (t.insert ext kind).entries = t.entries ++ [(keyOf ext, kind)] :=
  insert_entries_of_new (Bool.eq_false_iff.mpr fun hany => h (any_iff_mem_keys.mp hany))

theorem keys_insert_of_mem (h : keyOf ext ∈ t.keys) : (t.insert ext kind).keys = t.keys := by
  rw [keys, keys, entries_insert_of_mem h, List.map_map]
  apply List.map_congr_left
  intro e _
  rw [Function.comp_apply]
  split <;> rfl

theorem keys_insert_of_not_mem (h : keyOf ext ∉ t.keys) :
    (t.insert ext kind).keys = t.keys ++ [keyOf ext] := by
  rw [keys, keys, entries_insert_of_not_mem h, List.map_append]
  rfl

end Insert

theorem Grown.nodup_keys {t : Table} (h : t.Grown) : t.keys.Nodup := by
  induction h with
  | empty => exact List.nodup_nil
  | @insert t ext kind _ ih =>
      by_cases hknown : keyOf ext ∈ t.keys
      · rw [keys_insert_of_mem hknown]
        exact ih
      · rw [keys_insert_of_not_mem hknown, ← List.concat_eq_append]
        exact ih.concat hknown

/-- No extension of a module is tried twice. -/
theorem Grown.nodup_modules {t : Table} (h : t.Grown) : t.modules.Nodup :=
  h.nodup_keys.sublist (List.filter_sublist.map _)

theorem trimDots_keyOf (ext : String) : Text.trimDots (keyOf ext) = keyOf ext := by
  have hdot : ((· == '.') ∘ Char.toLower) = (· == '.') := by
    funext c
    rw [Function.comp_apply, Bool.eq_iff_iff, beq_iff_eq, beq_iff_eq, Text.toLower_eq_dot_iff]
  rw [← String.toList_inj, Text.toList_trimDots, keyOf, Text.toList_lower, Text.toList_trimDots,
    List.dropWhile_map, hdot, List.dropWhile_idempotent]

theorem lower_keyOf (ext : String) : Text.lower (keyOf ext) = keyOf ext :=
  Text.lower_lower _

theorem Grown.exists_eq_keyOf {t : Table} (h : t.Grown) {key : String} (hkey : key ∈ t.keys) :
    ∃ ext, key = keyOf ext := by
  induction h with
  | empty => cases hkey
  | @insert t ext kind _ ih =>
      by_cases hknown : keyOf ext ∈ t.keys
      · rw [keys_insert_of_mem hknown] at hkey
        exact ih hkey
      · rw [keys_insert_of_not_mem hknown] at hkey
        rcases List.mem_append.mp hkey with hkey | hkey
        · exact ih hkey
        · exact ⟨ext, List.mem_singleton.mp hkey⟩

/-- No key begins with a dot. -/
theorem Grown.trimDots_of_mem_keys {t : Table} (h : t.Grown) {key : String} (hkey : key ∈ t.keys) :
    Text.trimDots key = key := by
  obtain ⟨ext, rfl⟩ := h.exists_eq_keyOf hkey
  exact trimDots_keyOf ext

/-- All keys are in lower case. -/
theorem Grown.lower_of_mem_keys {t : Table} (h : t.Grown) {key : String} (hkey : key ∈ t.keys) :
    Text.lower key = key := by
  obtain ⟨ext, rfl⟩ := h.exists_eq_keyOf hkey
  exact lower_keyOf ext

/-- Only the question of a lookup has to be lowered. -/
theorem Grown.find?_eq {t : Table} (h : t.Grown) (q : String) :
    t.entries.find? (fun e => Text.eqIgnoringCase e.1 q) =
      t.entries.find? (·.1 == Text.lower q) := by
  rw [← List.head?_filter, ← List.head?_filter]
  congr 1
  apply List.filter_congr
  intro e he
  rw [Text.eqIgnoringCase, h.lower_of_mem_keys (mem_keys_of_mem he)]

/-- Extensions of modules are written behind a dot as they stand. -/
theorem Grown.trimDots_of_mem_modules {t : Table} (h : t.Grown) {ext : String}
    (hext : ext ∈ t.modules) : Text.trimDots ext = ext :=
  h.trimDots_of_mem_keys ((List.filter_sublist.map _).subset hext)

end Extension.Table

/-- Whatever the settings of a project say, its table is made by insertions. -/
theorem Settings.grown_table (s : Settings) : s.table.Grown :=
  Extension.Table.grown_standard.insertAll _

end ModuleGraph
