import Mathlib.Logic.Function.Basic
import Paho.Library.TreeSearch

/-!
# Ordered tables

A finite map as the list of its values in the order of their keys.
-/

namespace Paho

namespace RedBlack

universe u v

variable {α : Type u} {Order : Type v} [LinearOrder Order]

/-- The values in order are those of the map. -/
structure Tabulates (key : α → Order) (values : List α) (map : Order → Option α) : Prop where
  ordered : Ordered key values
  eq_some_iff : ∀ k value, map k = some value ↔ key value = k ∧ value ∈ values

namespace Tabulates

variable {key : α → Order} {values xs ys : List α} {map : Order → Option α}
  {value old : α} {k : Order}

theorem empty : Tabulates key [] fun _ => none where
  ordered := List.Pairwise.nil
  eq_some_iff := by simp

theorem lookup (tabulates : Tabulates key values map) (mem : value ∈ values) :
    map (key value) = some value :=
  (tabulates.eq_some_iff _ _).mpr ⟨rfl, mem⟩

/-- Between smaller and larger keys, a key is missing. -/
theorem lookup_none (tabulates : Tabulates key (xs ++ ys) map)
    (smaller : ∀ value ∈ xs, key value < k) (larger : ∀ value ∈ ys, k < key value) :
    map k = none := by
  rw [Option.eq_none_iff_forall_not_mem]
  intro value mem
  rcases (tabulates.eq_some_iff k value).mp mem with ⟨rfl, isThere⟩
  rcases List.mem_append.mp isThere with isThere | isThere
  · exact lt_irrefl _ (smaller value isThere)
  · exact lt_irrefl _ (larger value isThere)

/-- A value with a new key. -/
theorem insert (value : α) (tabulates : Tabulates key (xs ++ ys) map)
    (smaller : ∀ other ∈ xs, key other < key value) (larger : ∀ other ∈ ys, key value < key other) :
    Tabulates key (xs ++ value :: ys) (Function.update map (key value) (some value)) where
  ordered := by
    have ordered := tabulates.ordered
    simp only [Ordered, List.map_append, List.map_cons, List.pairwise_append, List.pairwise_cons,
      List.mem_map, List.mem_cons, forall_exists_index, and_imp,
        forall_apply_eq_imp_iff₂] at ordered ⊢
    refine ⟨ordered.1, ⟨larger, ordered.2.1⟩, ?_⟩
    rintro other mem _ (rfl | ⟨other', mem', rfl⟩)
    · exact smaller other mem
    · exact ordered.2.2 other mem other' mem'
  eq_some_iff := by
    intro k other
    by_cases same : k = key value
    · subst same
      rw [Function.update_self, Option.some.injEq]
      constructor
      · rintro rfl
        exact ⟨rfl, by simp⟩
      · rintro ⟨same, mem⟩
        rcases List.mem_append.mp mem with mem | mem
        · exact absurd (smaller other mem) (by rw [same]; exact lt_irrefl _)
        · rcases List.mem_cons.mp mem with rfl | mem
          · rfl
          · exact absurd (larger other mem) (by rw [same]; exact lt_irrefl _)
    · rw [Function.update_of_ne same, tabulates.eq_some_iff]
      simp only [List.mem_append, List.mem_cons]
      constructor
      · rintro ⟨isKey, mem | mem⟩
        · exact ⟨isKey, .inl mem⟩
        · exact ⟨isKey, .inr (.inr mem)⟩
      · rintro ⟨isKey, mem | rfl | mem⟩
        · exact ⟨isKey, .inl mem⟩
        · exact absurd isKey.symm same
        · exact ⟨isKey, .inr mem⟩

/-- A value is removed. -/
theorem erase (tabulates : Tabulates key (xs ++ value :: ys) map) :
    Tabulates key (xs ++ ys) (Function.update map (key value) none) ∧
      (∀ other ∈ xs, key other < key value) ∧
      ∀ other ∈ ys, key value < key other := by
  have ordered := tabulates.ordered
  simp only [Ordered, List.map_append, List.map_cons, List.pairwise_append,
    List.pairwise_cons, List.mem_map,
    List.mem_cons, forall_exists_index, and_imp, forall_apply_eq_imp_iff₂] at ordered
  have smaller (other : α) (mem : other ∈ xs) : key other < key value :=
    ordered.2.2 other mem _ (.inl rfl)
  have larger (other : α) (mem : other ∈ ys) : key value < key other := ordered.2.1.1 other mem
  refine ⟨⟨?_, ?_⟩, smaller, larger⟩
  · simp only [Ordered, List.map_append, List.pairwise_append, List.mem_map,
      forall_exists_index, and_imp,
      forall_apply_eq_imp_iff₂]
    exact ⟨ordered.1, ordered.2.1.2,
      fun other mem other' mem' => (smaller other mem).trans (larger other' mem')⟩
  · intro k other
    by_cases same : k = key value
    · subst same
      rw [Function.update_self]
      constructor
      · intro none
        cases none
      · rintro ⟨isKey, mem⟩
        rcases List.mem_append.mp mem with mem | mem
        · exact absurd (smaller other mem) (by rw [isKey]; exact lt_irrefl _)
        · exact absurd (larger other mem) (by rw [isKey]; exact lt_irrefl _)
    · rw [Function.update_of_ne same, tabulates.eq_some_iff]
      simp only [List.mem_append, List.mem_cons]
      constructor
      · rintro ⟨isKey, mem | rfl | mem⟩
        · exact ⟨isKey, .inl mem⟩
        · exact absurd isKey.symm same
        · exact ⟨isKey, .inr mem⟩
      · rintro ⟨isKey, mem | mem⟩
        · exact ⟨isKey, .inl mem⟩
        · exact ⟨isKey, .inr (.inr mem)⟩

/-- A value is exchanged for one with the same key. -/
theorem exchange (value : α) (tabulates : Tabulates key (xs ++ old :: ys) map)
    (same : key value = key old) :
    Tabulates key (xs ++ value :: ys) (Function.update map (key value) (some value)) := by
  rcases tabulates.erase with ⟨erased, smaller, larger⟩
  rw [← same] at erased smaller larger
  have inserted := erased.insert _ smaller larger
  rwa [Function.update_idem] at inserted

end Tabulates

end RedBlack

end Paho
