import Mathlib.Order.Basic
import Mathlib.Order.Lattice
import Paho.Library.RedBlack

/-!
# Search in ordered trees

The ways down a tree: to a value, or to the place where it is missing, and to the first value. A
tree is ordered by a key of its values.
-/

namespace Paho

namespace RedBlack

open RedBlack.RBTree

universe u v

variable {α : Type u}

/-- The way down from a focus. `compare` is 0 at the value, and more than 0 where it is at the
right. -/
def seek (compare : α → Int) : TreePath α → RBTree α → TreePath α × RBTree α
  | path, nil => (path, nil)
  | path, node red left value right =>
      if compare value = 0 then (path, node red left value right)
      else if 0 < compare value then seek compare (⟨red, value, true, left⟩ :: path) right
      else seek compare (⟨red, value, false, right⟩ :: path) left

/-- The way to the first value. -/
def seekFirst : TreePath α → RBTree α → TreePath α × RBTree α
  | path, nil => (path, nil)
  | path, node red nil value right => (path, node red nil value right)
  | path, node red (node leftRed left' left'' right') value right =>
      seekFirst (⟨red, value, false, right⟩ :: path) (node leftRed left' left'' right')

variable {compare : α → Int} {path : TreePath α} {t left right : RBTree α} {red : Bool} {value : α}

theorem plug_seek (compare : α → Int) (path : TreePath α) (t : RBTree α) :
    plug (seek compare path t).1 (seek compare path t).2 = plug path t := by
  induction t generalizing path with
  | nil => rfl
  | node red left value right leftIh rightIh =>
      rw [seek]
      split
      · rfl
      · split
        · exact rightIh _
        · exact leftIh _

theorem plug_seekFirst (path : TreePath α) (t : RBTree α) :
    plug (seekFirst path t).1 (seekFirst path t).2 = plug path t := by
  induction path, t using seekFirst.induct with
  | case1 path => rfl
  | case2 path red value right => rfl
  | case3 path red leftRed left' left'' right' value right ih => exact ih

/-- The frames above the focus stay. -/
theorem seekFirst_append (path : TreePath α) (t : RBTree α) :
    seekFirst path t = ((seekFirst [] t).1 ++ path, (seekFirst [] t).2) := by
  have further (above path : TreePath α) :
      seekFirst (path ++ above) t = ((seekFirst path t).1 ++ above, (seekFirst path t).2) := by
    induction path, t using seekFirst.induct with
    | case1 path => rfl
    | case2 path red value right => rfl
    | case3 path red leftRed left' left'' right' value right ih => exact ih
  exact further path []

/-- The first value has no left child, and nothing is in front of it below the focus. -/
theorem seekFirst_spec (path : TreePath α) (isNode : t ≠ nil) : ∃ red value right,
    (seekFirst path t).2 = node red nil value right ∧ before (seekFirst path t).1 = before path ∧
      t.toList ++ behind path = value :: right.toList ++ behind (seekFirst path t).1 := by
  induction path, t using seekFirst.induct with
  | case1 path => exact absurd rfl isNode
  | case2 path red value right => exact ⟨red, value, right, rfl, rfl, by simp [seekFirst, toList]⟩
  | case3 path red leftRed left' left'' right' value right ih =>
      rcases ih (by simp) with ⟨red', value', right'', isFirst, front, back⟩
      refine ⟨red', value', right'', isFirst, front.trans ?_, ?_⟩
      · simp [before]
      · rw [seekFirst, ← back]
        simp [toList, behind]

/-- Every value is at a focus. -/
theorem exists_focus {xs ys : List α} (split : t.toList = xs ++ value :: ys) :
    ∃ path red left right, t = plug path (node red left value right) ∧
      before path ++ left.toList = xs ∧ right.toList ++ behind path = ys := by
  have below (t : RBTree α) (above : TreePath α) : ∀ xs ys, t.toList = xs ++ value :: ys →
      ∃ path red left right, plug above t = plug path (node red left value right) ∧
        before path ++ left.toList = before above ++ xs ∧ right.toList ++ behind path =
          ys ++ behind above := by
    induction t generalizing above with
    | nil =>
        intro xs ys split
        simp [toList] at split
    | node red left root right leftIh rightIh =>
        intro xs ys split
        rw [toList, List.append_eq_append_iff] at split
        rcases split with ⟨front, isFront, isBack⟩ | ⟨back, isFront, isBack⟩
        · rcases front with _ | ⟨first, front⟩
          · rw [List.append_nil] at isFront
            rw [List.nil_append, List.cons.injEq] at isBack
            rcases isBack with ⟨rfl, rfl⟩
            exact ⟨above, red, left, right, rfl, by rw [isFront], rfl⟩
          · rw [List.cons_append, List.cons.injEq] at isBack
            rcases isBack with ⟨rfl, isBack⟩
            rcases rightIh (⟨red, root, true, left⟩ :: above) front ys isBack with
              ⟨path, red', left', right', whole, isBefore, isBehind⟩
            refine ⟨path, red', left', right', whole, ?_, ?_⟩
            · rw [isBefore, isFront]
              simp [before]
            · rw [isBehind]
              simp [behind]
        · rcases back with _ | ⟨first, back⟩
          · rw [List.nil_append, List.cons.injEq] at isBack
            rcases isBack with ⟨rfl, rfl⟩
            rw [List.append_nil] at isFront
            exact ⟨above, red, left, right, rfl, by rw [isFront], rfl⟩
          · rw [List.cons_append, List.cons.injEq] at isBack
            rcases isBack with ⟨rfl, rfl⟩
            rcases leftIh (⟨red, root, false, right⟩ :: above) xs back isFront with
              ⟨path, red', left', right', whole, isBefore, isBehind⟩
            refine ⟨path, red', left', right', whole, ?_, ?_⟩
            · rw [isBefore]
              simp [before]
            · rw [isBehind]
              simp [behind]
  rcases below t [] xs ys split with ⟨path, red, left, right, whole, isBefore, isBehind⟩
  refine ⟨path, red, left, right, whole, ?_, ?_⟩
  · simpa [before] using isBefore
  · simpa [behind] using isBehind

section Order

variable {Order : Type v} [LinearOrder Order] {key : α → Order} {goal : Order}

/-- The keys ascend. -/
def Ordered (key : α → Order) (values : List α) : Prop :=
  (values.map key).Pairwise (· < ·)

/-- The comparison with this key. -/
def Compares (key : α → Order) (goal : Order) (compare : α → Int) : Prop :=
  ∀ value, (0 < compare value ↔ key value < goal) ∧ (compare value = 0 ↔ key value = goal)

/-- Where the search ends: at the value with the key, or between the values with smaller and larger
ones. -/
theorem seek_spec (path : TreePath α) (compares : Compares key goal compare)
    (ordered : Ordered key (plug path t).toList) (smaller : ∀ value ∈ before path, key value < goal)
    (larger : ∀ value ∈ behind path, goal < key value) :
    (∃ red left value right, (seek compare path t).2 = node red left value right ∧
      key value = goal) ∨
      (seek compare path t).2 = nil ∧ (∀ value ∈ before (seek compare path t).1, key value < goal) ∧
        ∀ value ∈ behind (seek compare path t).1, goal < key value := by
  induction t generalizing path with
  | nil => exact .inr ⟨rfl, smaller, larger⟩
  | node red left value right leftIh rightIh =>
      rw [seek]
      split
      case isTrue found => exact .inl ⟨red, left, value, right, rfl, (compares value).2.mp found⟩
      case isFalse other =>
        have sides := ordered
        rw [toList_plug, toList, Ordered] at sides
        simp only [List.append_assoc, List.cons_append, List.map_append, List.map_cons,
          List.pairwise_append,
          List.pairwise_cons, List.mem_append, List.mem_cons, List.mem_map] at sides
        split
        case isTrue isRight =>
          have less : key value < goal := (compares value).1.mp isRight
          refine rightIh _ ordered ?_ ?_
          · intro value' mem
            simp only [before, if_true, List.mem_append, List.mem_singleton] at mem
            rcases mem with mem | mem | rfl
            · exact smaller value' mem
            · exact (sides.2.1.2.2 _ ⟨value', mem, rfl⟩ _ (.inl rfl)).trans less
            · exact less
          · simpa [behind] using larger
        case isFalse isLeft =>
          have greater : goal < key value := by
            rcases lt_trichotomy (key value) goal with less | same | greater
            · exact absurd ((compares value).1.mpr less) isLeft
            · exact absurd ((compares value).2.mpr same) other
            · exact greater
          refine leftIh _ ordered ?_ ?_
          · simpa [before] using smaller
          · intro value' mem
            simp only [behind, Bool.false_eq_true, if_false, List.cons_append, List.mem_cons,
              List.mem_append] at mem
            rcases mem with rfl | mem | mem
            · exact greater
            · exact greater.trans (sides.2.1.2.1.1 _ (.inl ⟨value', mem, rfl⟩))
            · exact larger value' mem

end Order

end RedBlack

end Paho
