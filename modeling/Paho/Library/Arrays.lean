import Mathlib.Data.List.Sort
import Paho.Library.Memory

/-!
# Sorted arrays

`qsort`, `bsearch` and `memmove` on an array, which is the list of its elements. What would use an
index outside of the array has no result.
-/

namespace Paho

namespace Arrays

universe u

variable {α : Type u}

/-- `qsort` of the first elements. -/
def qsort (compare : α → α → Int) (base : List α) (nmemb : Nat) : Option (List α) :=
  if nmemb ≤ base.length then
    some ((base.take nmemb).insertionSort (fun x y => compare x y ≤ 0) ++ base.drop nmemb)
  else none

/-- The search in the middle of the elements from one index up to another one. -/
def search (compare : α → Int) (base : List α) : Nat → Nat → Nat → Option Nat
  | 0, _, _ => none
  | fuel + 1, low, high =>
      if low < high then
        match base[(low + high) / 2]? with
        | none => none
        | some x =>
            if compare x = 0 then some ((low + high) / 2)
            else if 0 < compare x then search compare base fuel ((low + high) / 2 + 1) high
            else search compare base fuel low ((low + high) / 2)
      else none

/-- `bsearch` in the first elements: an index with this key. The comparison with the key is positive
where the key is behind. -/
def bsearch (compare : α → Int) (base : List α) (nmemb : Nat) : Option (Option Nat) :=
  if nmemb ≤ base.length then some (search compare base nmemb 0 nmemb) else none

/-- `memmove` of some elements. -/
def memmove (base : List α) (dest src n : Nat) : Option (List α) :=
  if src + n ≤ base.length ∧ dest + n ≤ base.length then
    some (Memory.overwrite base dest ((base.drop src).take n))
  else none

variable {compare : α → Int} {base : List α} {fuel low high i : Nat}

/-- The elements in front of the key come first, and those behind it last. -/
def Ascends (compare : α → Int) (base : List α) : Prop :=
  base.Pairwise fun x y => (0 < compare y → 0 < compare x) ∧ (compare x < 0 → compare y < 0)

theorem Ascends.getElem (ascends : Ascends compare base) {j : Nat} {x y : α} (less : i < j)
    (first : base[i]? = some x) (second : base[j]? = some y) :
    (0 < compare y → 0 < compare x) ∧ (compare x < 0 → compare y < 0) := by
  rcases List.getElem?_eq_some_iff.mp first with ⟨inside, rfl⟩
  rcases List.getElem?_eq_some_iff.mp second with ⟨inside', rfl⟩
  exact List.pairwise_iff_getElem.mp ascends i j inside inside' less

/-- What is found is equal. -/
theorem compare_search (found : search compare base fuel low high = some i) :
    ∃ x, base[i]? = some x ∧ compare x = 0 := by
  induction fuel generalizing low high with
  | zero => cases found
  | succ fuel ih =>
      rw [search] at found
      split at found
      case isTrue =>
        split at found
        case h_1 => cases found
        case h_2 x isThere =>
          split at found
          case isTrue equal =>
            cases found
            exact ⟨x, isThere, equal⟩
          case isFalse =>
            split at found
            case isTrue => exact ih found
            case isFalse => exact ih found
      case isFalse => cases found

/-- What is equal is found. -/
theorem search_ne_none (ascends : Ascends compare base) (inside : high ≤ base.length)
    (enough : high - low ≤ fuel) {x : α} (isThere : base[i]? = some x) (equal : compare x = 0)
    (first : low ≤ i) (last : i < high) :
    search compare base fuel low high ≠ none := by
  induction fuel generalizing low high with
  | zero => omega
  | succ fuel ih =>
      rw [search, if_pos (by omega)]
      have middle : (low + high) / 2 < base.length := by omega
      rw [List.getElem?_eq_getElem middle]
      dsimp only
      have isMiddle := List.getElem?_eq_getElem middle
      split
      case isTrue => exact Option.some_ne_none _
      case isFalse other =>
        split
        case isTrue less =>
          -- the key is behind the middle
          have behind : (low + high) / 2 < i := by
            by_contra notBehind
            rcases Nat.lt_or_eq_of_le (Nat.le_of_not_lt notBehind) with inFront | rfl
            · have positive := (ascends.getElem inFront isThere isMiddle).1 less
              omega
            · cases isThere.symm.trans isMiddle
              exact other equal
          exact ih inside (by omega) (by omega) last
        case isFalse notLess =>
          have inFront : i < (low + high) / 2 := by
            by_contra notInFront
            rcases Nat.lt_or_eq_of_le (Nat.le_of_not_lt notInFront) with behind | rfl
            · have negative := (ascends.getElem behind isMiddle isThere).2 (by omega)
              omega
            · cases isThere.symm.trans isMiddle
              exact other equal
          exact ih (by omega) (by omega) first inFront

/-- `bsearch` in all elements. -/
theorem bsearch_spec (ascends : Ascends compare base) :
    (∃ i x, bsearch compare base base.length = some (some i) ∧ base[i]? = some x ∧ compare x = 0) ∨
      bsearch compare base base.length = some none ∧ ∀ x ∈ base, compare x ≠ 0 := by
  rw [bsearch, if_pos (Nat.le_refl _)]
  cases found : search compare base base.length 0 base.length with
  | some i =>
      rcases compare_search found with ⟨x, isThere, equal⟩
      exact .inl ⟨i, x, rfl, isThere, equal⟩
  | none =>
      refine .inr ⟨rfl, fun x mem equal => ?_⟩
      rcases List.mem_iff_getElem?.mp mem with ⟨i, isThere⟩
      rcases List.getElem?_eq_some_iff.mp isThere with ⟨inside, -⟩
      exact search_ne_none ascends (Nat.le_refl _) (Nat.le_refl _) isThere equal
        (Nat.zero_le i) inside found

/-- The elements behind one are moved to its place, and the last place is dropped. -/
theorem memmove_eraseIdx (inside : i < base.length) :
    ∃ moved, memmove base i (i + 1) (base.length - 1 - i) = some moved ∧
      moved.take (base.length - 1) = base.eraseIdx i := by
  have rest : ((base.drop (i + 1)).take (base.length - 1 - i)) = base.drop (i + 1) := by
    refine List.take_of_length_le ?_
    rw [List.length_drop]
    omega
  refine ⟨_, if_pos (by omega), ?_⟩
  rw [rest, Memory.overwrite, List.take_left', List.eraseIdx_eq_take_drop_succ]
  rw [List.length_append, List.length_take, List.length_drop]
  omega

/-- `qsort` of all elements. -/
theorem qsort_spec {compare : α → α → Int} (base : List α)
    (total : ∀ x y, compare x y ≤ 0 ∨ compare y x ≤ 0)
    (trans : ∀ x y z, compare x y ≤ 0 → compare y z ≤ 0 → compare x z ≤ 0) :
    ∃ sorted, qsort compare base base.length = some sorted ∧ sorted.Perm base ∧
      sorted.Pairwise fun x y => compare x y ≤ 0 := by
  have isTotal : Std.Total fun x y : α => compare x y ≤ 0 := ⟨total⟩
  have isTrans : IsTrans α fun x y => compare x y ≤ 0 := ⟨trans⟩
  refine ⟨_, if_pos (Nat.le_refl _), ?_, ?_⟩
  · rw [List.take_length, List.drop_length, List.append_nil]
    exact List.perm_insertionSort _ base
  · rw [List.take_length, List.drop_length, List.append_nil]
    exact List.pairwise_insertionSort _ base

end Arrays

end Paho
