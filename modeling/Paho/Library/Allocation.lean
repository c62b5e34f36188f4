import Mathlib.Algebra.BigOperators.Group.List.Basic
import Mathlib.Algebra.GroupWithZero.Nat
import Mathlib.Logic.Function.Basic
import Paho.Library.Memory

/-!
# Allocated blocks

The live blocks of `malloc`, `realloc` and `free` in an address space of 64 bits. They do not
overlap, so that together they are not larger than the address space.
-/

namespace Paho

namespace Allocation

universe u

variable {Byte : Type u}

/-- The contents of the live blocks at their addresses, which are not NULL. -/
@[ext]
structure Blocks (Byte : Type u) where
  contents : UInt64 → Option (List Byte)
  inside : ∀ ptr block, contents ptr = some block → ptr ≠ 0 ∧ ptr.toNat + block.length ≤
    18446744073709551616
  apart : ∀ ptr block ptr' block', contents ptr = some block → contents ptr' = some block' →
    ptr.toNat < ptr'.toNat → ptr.toNat + block.length ≤ ptr'.toNat

/-- There is room for a block of this size. -/
structure Room (blocks : Blocks Byte) (ptr : UInt64) (size : Nat) : Prop where
  nonnull : ptr ≠ 0
  inside : ptr.toNat + size ≤ 18446744073709551616
  new : blocks.contents ptr = none
  behind : ∀ other block, blocks.contents other = some block → other.toNat < ptr.toNat →
    other.toNat + block.length ≤ ptr.toNat
  front : ∀ other block, blocks.contents other = some block → ptr.toNat < other.toNat →
    ptr.toNat + size ≤ other.toNat

namespace Blocks

/-- No block is live. -/
def empty : Blocks Byte where
  contents _ := none
  inside _ _ isThere := by cases isThere
  apart _ _ _ _ isThere := by cases isThere

/-- The block at an address is not live any more. -/
def free (blocks : Blocks Byte) (ptr : UInt64) : Blocks Byte where
  contents := Function.update blocks.contents ptr none
  inside other block isThere := by
    by_cases same : other = ptr
    · rw [same, Function.update_self] at isThere
      cases isThere
    · rw [Function.update_of_ne same] at isThere
      exact blocks.inside other block isThere
  apart first block second block' isFirst isSecond less := by
    by_cases same : first = ptr
    · rw [same, Function.update_self] at isFirst
      cases isFirst
    · by_cases same' : second = ptr
      · rw [same', Function.update_self] at isSecond
        cases isSecond
      · rw [Function.update_of_ne same] at isFirst
        rw [Function.update_of_ne same'] at isSecond
        exact blocks.apart first block second block' isFirst isSecond less

/-- A block where there is room. -/
def put (blocks : Blocks Byte) (ptr : UInt64) (block : List Byte)
    (room : Room blocks ptr block.length) :
    Blocks Byte where
  contents := Function.update blocks.contents ptr (some block)
  inside other block' isThere := by
    by_cases same : other = ptr
    · rw [same, Function.update_self] at isThere
      cases isThere
      rw [same]
      exact ⟨room.nonnull, room.inside⟩
    · rw [Function.update_of_ne same] at isThere
      exact blocks.inside other block' isThere
  apart first block' second block'' isFirst isSecond less := by
    by_cases same : first = ptr
    · subst same
      rw [Function.update_self] at isFirst
      cases isFirst
      have other : second ≠ first := by
        rintro rfl
        exact Nat.lt_irrefl _ less
      rw [Function.update_of_ne other] at isSecond
      exact room.front second block'' isSecond less
    · rw [Function.update_of_ne same] at isFirst
      by_cases same' : second = ptr
      · subst same'
        exact room.behind first block' isFirst less
      · rw [Function.update_of_ne same'] at isSecond
        exact blocks.apart first block' second block'' isFirst isSecond less

variable {blocks : Blocks Byte} {ptr : UInt64} {block : List Byte} {size : Nat}

@[simp]
theorem contents_free : (blocks.free ptr).contents = Function.update blocks.contents ptr none :=
  rfl

@[simp]
theorem contents_put (room : Room blocks ptr block.length) :
    (blocks.put ptr block room).contents = Function.update blocks.contents ptr (some block) :=
  rfl

/-- Where a block was, there is room for one that is not larger. -/
theorem room_free (isThere : blocks.contents ptr = some block) (smaller : size ≤ block.length) :
    Room (blocks.free ptr) ptr size := by
  have inside := blocks.inside ptr block isThere
  refine ⟨inside.1, by omega, by rw [contents_free, Function.update_self], ?_, ?_⟩
  · intro other block' isOther less
    have different : other ≠ ptr := by
      rintro rfl
      exact Nat.lt_irrefl _ less
    rw [contents_free, Function.update_of_ne different] at isOther
    exact blocks.apart other block' ptr block isOther isThere less
  · intro other block' isOther less
    have different : other ≠ ptr := by
      rintro rfl
      exact Nat.lt_irrefl _ less
    rw [contents_free, Function.update_of_ne different] at isOther
    have apart := blocks.apart ptr block other block' isThere isOther less
    omega

/-- A store of some bytes in the block at an address. -/
def store (blocks : Blocks Byte) (ptr : UInt64) (place : Nat) (bytes : List Byte) :
    Option (Blocks Byte) :=
  match isThere : blocks.contents ptr with
  | none => none
  | some block =>
      if inside : place + bytes.length ≤ block.length then
        some ((blocks.free ptr).put ptr (Memory.overwrite block place bytes)
          (room_free isThere (Nat.le_of_eq (Memory.length_overwrite inside))))
      else none

theorem store_outside {place : Nat} {bytes : List Byte} (isThere : blocks.contents ptr = some block)
    (outside : block.length < place + bytes.length) : blocks.store ptr place bytes = none := by
  rw [store]
  split
  case h_1 => rfl
  case h_2 block' isThere' =>
    cases isThere.symm.trans isThere'
    exact dif_neg (Nat.not_le.mpr outside)

theorem store_eq {place : Nat} {bytes : List Byte} (isThere : blocks.contents ptr = some block)
    (inside : place + bytes.length ≤ block.length) :
    ∃ blocks', blocks.store ptr place bytes = some blocks' ∧
      blocks'.contents = Function.update blocks.contents ptr
      (some (Memory.overwrite block place bytes)) := by
  rw [store]
  split
  case h_1 none => cases isThere.symm.trans none
  case h_2 block' isThere' =>
    cases isThere.symm.trans isThere'
    refine ⟨_, dif_pos inside, ?_⟩
    rw [contents_put, contents_free, Function.update_idem]

end Blocks

/-- What a call of `malloc` gives: NULL, or an address where there is room. -/
structure Malloc (Byte : Type u) where
  result : Blocks Byte → Nat → Option UInt64
  room : ∀ blocks size ptr, result blocks size = some ptr → Room blocks ptr size

/-- `malloc` for this block. -/
def Malloc.run (malloc : Malloc Byte) (blocks : Blocks Byte) (block : List Byte) :
    Option (UInt64 × Blocks Byte) :=
  match isResult : malloc.result blocks block.length with
  | none => none
  | some ptr => some (ptr, blocks.put ptr block (malloc.room blocks block.length ptr isResult))

/-- What a call of `realloc` gives: NULL, or an address where there is room without the block. The
bytes behind its contents are not set. -/
structure Realloc (Byte : Type u) where
  result : Blocks Byte → UInt64 → Nat → Option UInt64
  room : ∀ blocks ptr size ptr', result blocks ptr size = some ptr' →
    Room (blocks.free ptr) ptr' size
  unset : Byte

/-- The contents of a block after `realloc`. -/
def Realloc.resize (realloc : Realloc Byte) (block : List Byte) (size : Nat) : List Byte :=
  block.take size ++ List.replicate (size - block.length) realloc.unset

theorem Realloc.length_resize (realloc : Realloc Byte) (block : List Byte) (size : Nat) :
    (realloc.resize block size).length = size := by
  rw [resize, List.length_append, List.length_take, List.length_replicate]
  omega

/-- `realloc`. It has no outcome for an address where no block is. -/
def Realloc.run (realloc : Realloc Byte) (blocks : Blocks Byte) (ptr : UInt64) (size : Nat) :
    Option (Option (UInt64 × Blocks Byte)) :=
  match blocks.contents ptr with
  | none => none
  | some block =>
      match isResult : realloc.result blocks ptr size with
      | none => some none
      | some ptr' =>
          some (some (ptr', (blocks.free ptr).put ptr' (realloc.resize block size) (by
            rw [realloc.length_resize block size]
            exact realloc.room blocks ptr size ptr' isResult)))

section Allocators

/-- `realloc` with nothing to give. -/
def Realloc.refuse (unset : Byte) : Realloc Byte where
  result _ _ _ := none
  room _ _ _ _ isResult := by cases isResult
  unset := unset

open Classical in
/-- `malloc` with this one address to give. -/
noncomputable def Malloc.only (ptr : UInt64) : Malloc Byte where
  result blocks size := if Room blocks ptr size then some ptr else none
  room blocks size ptr' isResult := by
    split at isResult
    case isTrue room =>
      cases isResult
      exact room
    case isFalse => cases isResult

theorem Malloc.only_eq {ptr : UInt64} {size : Nat} (nonnull : ptr ≠ 0)
    (inside : ptr.toNat + size ≤ 18446744073709551616) :
    (only ptr).result (Blocks.empty : Blocks Byte) size = some ptr := by
  refine if_pos ⟨nonnull, inside, rfl, ?_, ?_⟩
  · intro other block isThere
    cases isThere
  · intro other block isThere
    cases isThere

end Allocators

section Rules

variable {blocks : Blocks Byte} {ptr : UInt64} {block : List Byte} {size : Nat}

theorem Malloc.run_cases (malloc : Malloc Byte) (blocks : Blocks Byte) (block : List Byte) :
    (malloc.result blocks block.length = none ∧ malloc.run blocks block = none) ∨
      ∃ ptr blocks', malloc.result blocks block.length = some ptr ∧ malloc.run blocks block =
      some (ptr, blocks') ∧
        Room blocks ptr block.length ∧ blocks'.contents = Function.update blocks.contents
        ptr (some block) := by
  rw [run]
  split
  case h_1 isResult => exact .inl ⟨isResult, rfl⟩
  case h_2 ptr isResult => exact .inr ⟨ptr, _, isResult, rfl, malloc.room _ _ _ isResult, rfl⟩

theorem Realloc.run_cases (realloc : Realloc Byte)
    (isThere : blocks.contents ptr = some block) (size : Nat) :
    (realloc.result blocks ptr size = none ∧ realloc.run blocks ptr size = some none) ∨
      ∃ ptr' blocks', realloc.result blocks ptr size = some ptr' ∧
        realloc.run blocks ptr size = some (some (ptr', blocks')) ∧
        Room (blocks.free ptr) ptr' size ∧
        blocks'.contents = Function.update (Function.update blocks.contents ptr none) ptr'
          (some (realloc.resize block size)) := by
  rw [run, isThere]
  dsimp only
  split
  case h_1 isResult => exact .inl ⟨isResult, rfl⟩
  case h_2 ptr' isResult => exact .inr ⟨ptr', _, isResult, rfl, realloc.room _ _ _ _ isResult, rfl⟩

/-- The blocks at these addresses, in order, are not larger than the address space. -/
theorem total_le (ptr : UInt64) (ptrs : List UInt64) {size : UInt64 → Nat}
    (ascending : ((ptr :: ptrs).map UInt64.toNat).Pairwise (· < ·))
    (live : ∀ other ∈ ptr :: ptrs, ∃ block, blocks.contents other = some block ∧
      block.length = size other) :
    ptr.toNat + ((ptr :: ptrs).map size).sum ≤ 18446744073709551616 := by
  induction ptrs generalizing ptr with
  | nil =>
      rcases live ptr List.mem_cons_self with ⟨block, isThere, length⟩
      have inside := (blocks.inside ptr block isThere).2
      rw [length] at inside
      simpa using inside
  | cons next ptrs ih =>
      rcases live ptr List.mem_cons_self with ⟨block, isThere, length⟩
      rcases live next (by simp) with ⟨block', isThere', -⟩
      rw [List.map_cons, List.pairwise_cons] at ascending
      have apart := blocks.apart ptr block next block' isThere isThere' (ascending.1 _ (by simp))
      have rest := ih next ascending.2 fun other mem => live other (List.mem_cons_of_mem _ mem)
      rw [List.map_cons, List.sum_cons]
      omega

end Rules

end Allocation

end Paho
