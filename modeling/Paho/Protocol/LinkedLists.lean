import Mathlib.Data.List.InsertIdx
import Mathlib.Data.List.Perm.Basic

/-!
# Linked lists

`LinkedList.c`: a list remembers the element that was found last, and looks there first.
-/

namespace Paho

universe u

/-- `List`: the contents of the elements, and the place of `current`. -/
structure LinkedList (α : Type u) where
  items : List α := []
  current : Option Nat := none
  deriving DecidableEq, Repr

namespace LinkedList

variable {α : Type u}

/-- `ListAppend`. -/
def append (l : LinkedList α) (content : α) : LinkedList α :=
  { l with items := l.items ++ [content] }

/-- `ListInsert`, before the element at `index`. -/
def insert (l : LinkedList α) (content : α) (index : Nat) : LinkedList α where
  items := l.items.insertIdx index content
  current := l.current.map fun current => if index ≤ current then current + 1 else current

/-- The place of an element and its content. -/
def element (l : LinkedList α) (index : Nat) : Option (Nat × α) :=
  (l.items[index]?).map fun content => (index, content)

/-- `ListFindItem`. The element that was found last is tried first. -/
def findItem (l : LinkedList α) (callback : α → Bool) : Option (Nat × α) :=
  let index :=
    if l.current.any fun current => (l.items[current]?).any callback then l.current
    else l.items.findIdx? callback
  index.bind l.element

/-- What `ListFindItem` leaves when it has found an element. -/
def found (l : LinkedList α) (index : Nat) : LinkedList α :=
  { l with current := some index }

/-- `ListUnlink`, of the element at `index`. -/
def unlink (l : LinkedList α) (index : Nat) : LinkedList α where
  items := l.items.eraseIdx index
  current :=
    l.current.bind fun saved =>
      if saved = index then
        if index + 1 < l.items.length then some index else none
      else if index < saved then some (saved - 1)
      else some saved

/-- `ListEmpty`. -/
def empty : LinkedList α :=
  {}

theorem findItem_eq_some {l : LinkedList α} {callback : α → Bool} {index : Nat} {content : α}
    (isFound : l.findItem callback = some (index, content)) : l.items[index]? = some content := by
  rcases Option.bind_eq_some_iff.mp isFound with ⟨place, -, isElement⟩
  rcases Option.map_eq_some_iff.mp isElement with ⟨other, isItem, same⟩
  injection same with isPlace isContent
  rw [← isPlace, ← isContent]
  exact isItem

/-- An element that is taken out. -/
theorem unlink_perm {l : LinkedList α} {index : Nat} {content : α}
    (isItem : l.items[index]? = some content) :
    (content :: (l.unlink index).items).Perm l.items := by
  rcases List.getElem?_eq_some_iff.mp isItem with ⟨inside, rfl⟩
  exact List.getElem_cons_eraseIdx_perm inside

/-- An element that takes the place of another one. -/
theorem insert_unlink_perm {l : LinkedList α} {index : Nat} {content : α} (new : α)
    (isItem : l.items[index]? = some content) :
    (content :: ((l.insert new index).unlink (index + 1)).items).Perm (new :: l.items) := by
  rcases List.getElem?_eq_some_iff.mp isItem with ⟨inside, -⟩
  have moved : (l.insert new index).items[index + 1]? = some content := by
    rw [← isItem]
    exact List.getElem?_insertIdx_of_gt (Nat.lt_succ_self index)
  exact (unlink_perm moved).trans (List.perm_insertIdx new l.items (Nat.le_of_lt inside))

end LinkedList

end Paho
