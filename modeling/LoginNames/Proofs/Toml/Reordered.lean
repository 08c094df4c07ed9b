import LoginNames.Toml.Range
import Mathlib

/-! # Values up to the order of keys

Two values reorder each other when they differ at most in the order of the keys in their tables and
in how their tables and arrays came about. Sorted by key, the entries of reordered tables
correspond one to one. -/

set_option autoImplicit false

namespace LoginNames.Toml

/-- The tables of both values have the same keys, with reordered values under the same key. -/
inductive Value.Reordered : Value → Value → Prop
  | refl (value : Value) : Reordered value value
  | array {kind kind' : ArrayKind} {items items' : List Value}
    (hlength : items.length = items'.length)
    (hitems : ∀ pair ∈ items.zip items', Reordered pair.1 pair.2) :
    Reordered (.array kind items) (.array kind' items')
  | table {kind kind' : TableKind} {entries entries' : List (String × Value)}
    (hkeys : (entries.map Prod.fst).Perm (entries'.map Prod.fst))
    (hvalues : ∀ key value value', (key, value) ∈ entries → (key, value') ∈ entries' →
      Reordered value value') :
    Reordered (.table kind entries) (.table kind' entries')

namespace Entries

structure Reordered (entries entries' : Entries) : Prop where
  keys : (entries.map Prod.fst).Perm (entries'.map Prod.fst)
  values : ∀ key value value', (key, value) ∈ entries → (key, value') ∈ entries' →
    value.Reordered value'

theorem Reordered.of_perm {entries entries' : Entries} (hnodup : (entries.map Prod.fst).Nodup)
    (h : entries.Perm entries') : entries.Reordered entries' where
  keys := h.map Prod.fst
  values key value value' hmem hmem' := by
    have heq := List.inj_on_of_nodup_map hnodup hmem (h.mem_iff.mpr hmem') rfl
    exact (Prod.mk.inj heq).2 ▸ .refl value

theorem Reordered.table {entries entries' : Entries} (h : entries.Reordered entries')
    (kind kind' : TableKind) : (Value.table kind entries).Reordered (.table kind' entries') :=
  .table h.keys h.values

/-- The entries have the same key and reordered values. -/
def Corresponds (entry entry' : String × Value) : Prop :=
  entry.1 = entry'.1 ∧ entry.2.Reordered entry'.2

theorem forall₂_of_keys_eq {entries entries' : Entries}
    (hkeys : entries.map Prod.fst = entries'.map Prod.fst)
    (hvalues : ∀ key value value', (key, value) ∈ entries → (key, value') ∈ entries' →
      value.Reordered value') : List.Forall₂ Corresponds entries entries' := by
  induction entries generalizing entries' with
  | nil =>
    obtain rfl := List.map_eq_nil_iff.mp hkeys.symm
    exact .nil
  | cons entry rest ih =>
    obtain ⟨key, value⟩ := entry
    cases entries' with
    | nil => cases hkeys
    | cons entry' rest' =>
      obtain ⟨key', value'⟩ := entry'
      rw [List.map_cons, List.map_cons, List.cons.injEq] at hkeys
      obtain ⟨rfl, hrest⟩ := hkeys
      refine .cons ⟨rfl, hvalues key value value' List.mem_cons_self List.mem_cons_self⟩ ?_
      exact ih hrest fun key value value' h h' =>
        hvalues key value value' (List.mem_cons_of_mem _ h) (List.mem_cons_of_mem _ h')

theorem mem_sorted {entries : Entries} {entry : String × Value} :
    entry ∈ entries.sorted ↔ entry ∈ entries :=
  (List.mergeSort_perm _ _).mem_iff

theorem keys_sorted (entries : Entries) :
    entries.sorted.map Prod.fst =
      (entries.map Prod.fst).mergeSort fun a b => !decide (b < a) :=
  List.map_mergeSort fun _ _ _ _ => rfl

/-- Keys are sorted in one way only. -/
theorem keys_sorted_eq {entries entries' : Entries}
    (h : (entries.map Prod.fst).Perm (entries'.map Prod.fst)) :
    entries.sorted.map Prod.fst = entries'.sorted.map Prod.fst := by
  rw [keys_sorted, keys_sorted]
  have hsorted (keys : List String) :
      (keys.mergeSort fun a b => !decide (b < a)).Pairwise (· ≤ ·) := by
    have hle (a b : String) : (!decide (b < a)) = true ↔ a ≤ b := by
      rw [Bool.not_eq_true', decide_eq_false_iff_not, String.not_lt]
    refine (List.pairwise_mergeSort ?_ ?_ keys).imp fun h => (hle _ _).mp h
    · simp only [hle]
      exact fun _ _ _ => String.le_trans
    · simp only [Bool.or_eq_true, hle]
      exact String.le_total
  refine List.Perm.eq_of_pairwise (fun _ _ _ _ => String.le_antisymm) (hsorted _) (hsorted _) ?_
  exact ((List.mergeSort_perm _ _).trans h).trans (List.mergeSort_perm _ _).symm

theorem Reordered.forall₂_sorted {entries entries' : Entries} (h : entries.Reordered entries') :
    List.Forall₂ Corresponds entries.sorted entries'.sorted :=
  forall₂_of_keys_eq (keys_sorted_eq h.keys) fun key value value' hmem hmem' =>
    h.values key value value' (mem_sorted.mp hmem) (mem_sorted.mp hmem')

end Entries

namespace Value

theorem allInRange_eq (items : List Value) : allInRange items = items.all inRange := by
  induction items with
  | nil => rfl
  | cons item rest ih => rw [allInRange, ih, List.all_cons]

theorem entriesInRange_eq (entries : List (String × Value)) :
    entriesInRange entries = entries.all fun entry => entry.2.inRange := by
  induction entries with
  | nil => rfl
  | cons entry rest ih =>
    obtain ⟨key, value⟩ := entry
    rw [entriesInRange, ih, List.all_cons]

theorem inRange_array (kind : ArrayKind) (items : List Value) :
    (array kind items).inRange = items.all inRange :=
  allInRange_eq items

theorem inRange_table (kind : TableKind) (entries : List (String × Value)) :
    (table kind entries).inRange = entries.all fun entry => entry.2.inRange :=
  entriesInRange_eq entries

theorem Reordered.inRange_eq {value value' : Value} (h : value.Reordered value') :
    value.inRange = value'.inRange := by
  induction h with
  | refl value => rfl
  | @array kind kind' items items' hlength hitems ih =>
    have hmap : items.map inRange = items'.map inRange := by
      rw [← List.forall₂_eq_eq_eq, List.forall₂_map_left_iff, List.forall₂_map_right_iff]
      exact List.forall₂_iff_zip.mpr ⟨hlength, fun hpair => ih _ hpair⟩
    calc (Value.array kind items).inRange
        = (items.map inRange).all id := by rw [inRange_array, List.all_map]; rfl
      _ = (items'.map inRange).all id := by rw [hmap]
      _ = (Value.array kind' items').inRange := by rw [inRange_array, List.all_map]; rfl
  | @table kind kind' entries entries' hkeys hvalues ih =>
    rw [inRange_table, inRange_table, Bool.eq_iff_iff, List.all_eq_true, List.all_eq_true]
    constructor
    · rintro hall ⟨key, value'⟩ hmem'
      obtain ⟨⟨_, value⟩, hmem, rfl⟩ :=
        List.mem_map.mp (hkeys.mem_iff.mpr (List.mem_map_of_mem hmem'))
      rw [← ih _ value value' hmem hmem']
      exact hall _ hmem
    · rintro hall ⟨key, value⟩ hmem
      obtain ⟨⟨_, value'⟩, hmem', rfl⟩ :=
        List.mem_map.mp (hkeys.mem_iff.mp (List.mem_map_of_mem hmem))
      rw [ih _ value value' hmem hmem']
      exact hall _ hmem'

end Value

end LoginNames.Toml
