import Mathlib.Data.List.Nodup
import Mathlib.Data.Multiset.AddSub

/-!
# Cells that are owned once

Allocated cells with a reference count, and the references to them that a program holds. When every
cell is referenced exactly once, this goes on as long as each cell that is allocated gets a
reference, and each reference that is given up frees its cell.
-/

namespace Paho

universe u v

/-- An allocated cell. -/
structure Cell (Address : Type u) (Content : Type v) where
  address : Address
  refcount : Int
  content : Content
  deriving DecidableEq, Repr

namespace Cell

variable {Address : Type u} {Content : Type v}

def addresses (cells : List (Cell Address Content)) : List Address :=
  cells.map Cell.address

section Operations

variable [DecidableEq Address]

/-- The cell at an address. -/
def at? (cells : List (Cell Address Content)) (p : Address) : Option (Cell Address Content) :=
  cells.find? (·.address == p)

/-- Take the cell at an address out, and free it. -/
def free (cells : List (Cell Address Content)) (p : Address) : List (Cell Address Content) :=
  cells.eraseP (·.address == p)

/-- Add to the reference count of the cell at an address. -/
def count (cells : List (Cell Address Content)) (p : Address) (references : Int) :
    List (Cell Address Content) :=
  cells.map fun cell =>
    if cell.address = p then { cell with refcount := cell.refcount + references } else cell

end Operations

/-- The references go to the cells, one to each, and the counts say so. -/
structure OwnedOnce (cells : List (Cell Address Content))
    (references : Multiset Address) : Prop where
  referenced : references = addresses cells
  distinct : (addresses cells).Nodup
  single : ∀ cell ∈ cells, cell.refcount = 1

namespace OwnedOnce

variable {cells : List (Cell Address Content)} {references : Multiset Address} {p : Address}

theorem empty : OwnedOnce ([] : List (Cell Address Content)) 0 where
  referenced := rfl
  distinct := List.nodup_nil
  single := by simp

theorem mem_iff (owned : OwnedOnce cells references) : p ∈ references ↔ p ∈ addresses cells := by
  rw [owned.referenced, Multiset.mem_coe]

theorem nodup (owned : OwnedOnce cells references) : references.Nodup := by
  rw [owned.referenced, Multiset.coe_nodup]
  exact owned.distinct

/-- A new cell is referenced by whoever has allocated it. -/
theorem alloc (owned : OwnedOnce cells references) (fresh : p ∉ addresses cells)
    (content : Content) :
    OwnedOnce (cells ++ [⟨p, 1, content⟩]) (p ::ₘ references) := by
  have added : addresses (cells ++ [⟨p, 1, content⟩]) = addresses cells ++ [p] := List.map_append
  constructor
  · rw [added, owned.referenced, ← Multiset.coe_add, Multiset.add_comm]
    rfl
  · rw [added]
    exact List.nodup_append_comm.mp (List.nodup_cons.mpr ⟨fresh, owned.distinct⟩)
  · intro cell mem
    rcases List.mem_append.mp mem with old | new
    · exact owned.single cell old
    · rw [List.mem_singleton.mp new]

variable [DecidableEq Address]

/-- A cell that is referenced is there, and its count is one. -/
theorem exists_cell (owned : OwnedOnce cells (p ::ₘ references)) :
    ∃ cell, at? cells p = some cell ∧ cell.refcount = 1 := by
  have mem : p ∈ addresses cells := owned.mem_iff.mp (Multiset.mem_cons_self p references)
  rcases List.mem_map.mp mem with ⟨cell, isCell, address⟩
  have found : (at? cells p).isSome = true :=
    List.find?_isSome.mpr ⟨cell, isCell, beq_iff_eq.mpr address⟩
  rcases Option.isSome_iff_exists.mp found with ⟨first, isFirst⟩
  exact ⟨first, isFirst, owned.single first (List.mem_of_find?_eq_some isFirst)⟩

/-- A reference is given up with its cell. -/
theorem free (owned : OwnedOnce cells (p ::ₘ references)) :
    OwnedOnce (free cells p) references := by
  have erased : addresses (Cell.free cells p) = (addresses cells).erase p := by
    rw [addresses, addresses, List.erase_eq_eraseP', List.eraseP_map]
    rfl
  constructor
  · rw [erased, ← Multiset.coe_erase, ← owned.referenced, Multiset.erase_cons_head]
  · rw [erased]
    exact owned.distinct.erase p
  · exact fun cell mem => owned.single cell (List.mem_of_mem_eraseP mem)

end OwnedOnce

end Cell

end Paho
