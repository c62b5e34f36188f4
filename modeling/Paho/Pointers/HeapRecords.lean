import Mathlib.Algebra.Order.BigOperators.Group.List
import Mathlib.Algebra.Order.Group.Nat
import Paho.Pointers.HeapTracker

/-!
# The records of the heap tracker

What the parts of the functions of `Heap.c` do to the heap, and how the records in the tree agree
with the live blocks.
-/

namespace Paho

open Records RedBlack Trees Allocation

namespace HeapTracker

section Programs

variable {α β : Type} {heap heap' : Heap} {ptr size : UInt64} {block : Bytes}

theorem bind_eq {program : HeapProgram α} {result : α} (continuation : α → HeapProgram β)
    (done : program heap = some (result, heap')) :
    (program >>= continuation) heap = continuation result heap' := by
  change (program heap).bind (fun outcome => continuation outcome.1 outcome.2) = _
  rw [done]
  rfl

theorem bind_none {program : HeapProgram α} (continuation : α → HeapProgram β)
    (fails : program heap = none) : (program >>= continuation) heap = none := by
  change (program heap).bind (fun outcome => continuation outcome.1 outcome.2) = _
  rw [fails]
  rfl

theorem modify_bind (change : Heap → Heap) (continuation : PUnit → HeapProgram β) :
    (modify change >>= continuation) heap = continuation ⟨⟩ (change heap) :=
  rfl

theorem onTree_bind {program : TreeProgram StorageElement α} {result : α}
    {tree tree' : Memory Place (Node StorageElement) TreeVars} (continuation : α → HeapProgram β)
    (done : program tree = some (result, tree')) (current_size max_size : UInt64)
    (blocks : Blocks UInt8) : (onTree program >>= continuation) ⟨tree, current_size,
      max_size, blocks⟩ =
      continuation result ⟨tree', current_size, max_size, blocks⟩ := by
  refine bind_eq continuation ?_
  rw [onTree, done]
  rfl

theorem readEyecatcher_eq {place : UInt64} (isThere : heap.blocks.contents ptr = some block)
    (inside : place.toNat + 8 ≤ block.length) : readEyecatcher ptr place heap =
    some ((), heap) := by
  rw [readEyecatcher, isThere, Option.bind_some, if_pos inside]

theorem storeEyecatcher_eq {place : UInt64} (isThere : heap.blocks.contents ptr = some block)
    (inside : place.toNat + eyecatcher.length ≤ block.length) :
    ∃ blocks, storeEyecatcher ptr place heap =
      some ((), { heap with blocks := blocks }) ∧ blocks.contents =
        Function.update heap.blocks.contents ptr
          (some (Memory.overwrite block place.toNat eyecatcher)) := by
  rcases Blocks.store_eq isThere inside with ⟨blocks, stored, contents⟩
  refine ⟨blocks, ?_, contents⟩
  rw [storeEyecatcher, stored]
  rfl

theorem storeEyecatcher_outside {place : UInt64} (isThere : heap.blocks.contents ptr = some block)
    (outside : block.length < place.toNat + eyecatcher.length) :
    storeEyecatcher ptr place heap = none := by
  rw [storeEyecatcher, Blocks.store_outside isThere outside]
  rfl

/-- The end of a block of this size. -/
theorem toNat_end (heap : Heap) (isThere : heap.blocks.contents ptr = some block)
    (length : block.length = size.toNat + 16) : (8 + size).toNat = 8 + size.toNat := by
  have inside := heap.blocks.inside ptr block isThere
  have positive : ptr.toNat ≠ 0 := fun zero => inside.1 (UInt64.toNat_inj.mp zero)
  rw [UInt64.toNat_add]
  change (8 + size.toNat) % 18446744073709551616 = _
  omega

theorem checkEyecatchers_eq {p : UInt64} (isThere : heap.blocks.contents (p - 8) = some block)
    (length : block.length = size.toNat + 16) : checkEyecatchers p size heap = some ((), heap) := by
  have front : (0 : UInt64).toNat + 8 ≤ block.length := by
    rw [length, UInt64.toNat_zero]
    omega
  have behind : (8 + size).toNat + 8 ≤ block.length := by
    rw [toNat_end heap isThere length, length]
    omega
  rw [checkEyecatchers, bind_eq _ (readEyecatcher_eq isThere front),
    readEyecatcher_eq isThere behind]

/-- The eyecatchers at both ends of a block. -/
theorem storeEyecatchers_eq (isThere : heap.blocks.contents ptr = some block)
    (length : block.length = size.toNat + 16) : ∃ blocks block', block'.length = block.length ∧
      blocks.contents = Function.update heap.blocks.contents ptr (some block') ∧
        ∀ continuation : HeapProgram UInt64, (do
          storeEyecatcher ptr 0
          storeEyecatcher ptr (8 + size)
          continuation) heap = continuation { heap with blocks := blocks } := by
  have front : (0 : UInt64).toNat + eyecatcher.length ≤ block.length := by
    rw [length, UInt64.toNat_zero, eyecatcher, List.length_replicate]
    omega
  rcases storeEyecatcher_eq isThere front with ⟨blocks, stored, contents⟩
  have isThere' : ({ heap with blocks := blocks } : Heap).blocks.contents ptr =
      some (Memory.overwrite block (0 : UInt64).toNat eyecatcher) := by
    rw [contents, Function.update_self]
  have length' := Memory.length_overwrite front
  have behind : (8 + size).toNat + eyecatcher.length ≤
      (Memory.overwrite block (0 : UInt64).toNat eyecatcher).length := by
    rw [toNat_end heap isThere length, length', length, eyecatcher, List.length_replicate]
    omega
  rcases storeEyecatcher_eq isThere' behind with ⟨blocks', stored', contents'⟩
  refine ⟨blocks', _, (Memory.length_overwrite behind).trans length', ?_, ?_⟩
  · rw [contents', contents, Function.update_idem]
  · intro continuation
    rw [bind_eq _ stored, bind_eq _ stored']

theorem freeBlock_eq (heap : Heap) (isThere : heap.blocks.contents ptr = some block) :
    freeBlock ptr heap = some ((), { heap with blocks := heap.blocks.free ptr }) := by
  rw [freeBlock, isThere]
  rfl

theorem grow_bind (heap : Heap) (more : UInt64) : ∃ max_size : UInt64,
    max_size.toNat = max heap.max_size.toNat (heap.current_size + more).toNat ∧
      ∀ continuation : HeapProgram UInt64, (do
        grow ((← get).current_size + more)
        continuation) heap =
          continuation { heap with
            current_size := heap.current_size + more
            max_size := max_size } := by
  refine ⟨_, ?_, fun continuation => rfl⟩
  split
  case isTrue greater =>
    have less := UInt64.lt_iff_toNat_lt.mp greater
    omega
  case isFalse notGreater =>
    have le := UInt64.le_iff_toNat_le.mp (UInt64.not_lt.mp notGreater)
    omega

end Programs

section Matching

variable {contents : UInt64 → Option Bytes} {xs ys values : List (StorageElement × UInt64)}
  {s : StorageElement} {space ptr : UInt64} {block : Bytes}

/-- There is a record for each block, and a block for each record. -/
structure Matches (contents : UInt64 → Option Bytes) (values : List (StorageElement × UInt64)) :
    Prop where
  live : ∀ value ∈ values, ∃ block, contents value.1.ptr = some block ∧ block.length =
    value.1.size.toNat + 16
  tracked : ∀ ptr block, contents ptr = some block → ∃ value ∈ values, value.1.ptr = ptr

/-- The sum of the sizes. -/
def total (values : List (StorageElement × UInt64)) : Nat :=
  (values.map fun value => value.1.size.toNat).sum

theorem total_middle : total (xs ++ (s, space) :: ys) = s.size.toNat + total (xs ++ ys) := by
  simp only [total, List.map_append, List.map_cons, List.sum_append, List.sum_cons]
  omega

namespace Matches

theorem absent (isMatching : Matches contents values) (isFree : contents ptr = none) :
    ∀ value ∈ values, value.1.ptr ≠ ptr := by
  rintro value mem rfl
  rcases isMatching.live value mem with ⟨block, isThere, -⟩
  cases isFree.symm.trans isThere

/-- One more block with its record. -/
theorem insert (isMatching : Matches contents (xs ++ ys)) (isFree : contents s.ptr = none)
    (length : block.length = s.size.toNat + 16) :
    Matches (Function.update contents s.ptr (some block)) (xs ++ (s, space) :: ys) := by
  have others := isMatching.absent isFree
  constructor
  case live =>
    intro value mem
    rcases List.mem_cons.mp (List.perm_middle.mem_iff.mp mem) with rfl | mem
    · exact ⟨block, Function.update_self .., length⟩
    · rw [Function.update_of_ne (others value mem)]
      exact isMatching.live value mem
  case tracked =>
    intro other block' isThere
    by_cases same : other = s.ptr
    · exact ⟨(s, space), List.mem_append_right _ List.mem_cons_self, same.symm⟩
    · rw [Function.update_of_ne same] at isThere
      rcases isMatching.tracked other block' isThere with ⟨value, mem, isPtr⟩
      exact ⟨value, List.perm_middle.mem_iff.mpr (List.mem_cons_of_mem _ mem), isPtr⟩

/-- A block and its record are gone. -/
theorem erase (isMatching : Matches contents (xs ++ (s, space) :: ys))
    (ordered : Ordered heapIndex.keyOf (xs ++ (s, space) :: ys)) :
    Matches (Function.update contents s.ptr none) (xs ++ ys) := by
  have others : ∀ value ∈ xs ++ ys, value.1.ptr ≠ s.ptr := by
    intro value mem same
    rw [Ordered] at ordered
    have nodup := ordered.imp fun less => less.ne
    rw [List.map_append, List.map_cons] at nodup
    have notMem := (List.nodup_cons.mp (List.perm_middle.nodup_iff.mp nodup)).1
    rw [← List.map_append] at notMem
    exact notMem (List.mem_map.mpr ⟨value, mem, congrArg UInt64.toNat same⟩)
  constructor
  case live =>
    intro value mem
    rw [Function.update_of_ne (others value mem)]
    exact isMatching.live value (List.perm_middle.mem_iff.mpr (List.mem_cons_of_mem _ mem))
  case tracked =>
    intro other block' isThere
    by_cases same : other = s.ptr
    · rw [same, Function.update_self] at isThere
      cases isThere
    · rw [Function.update_of_ne same] at isThere
      rcases isMatching.tracked other block' isThere with ⟨value, mem, isPtr⟩
      rcases List.mem_cons.mp (List.perm_middle.mem_iff.mp mem) with rfl | mem
      · exact absurd isPtr.symm same
      · exact ⟨value, mem, isPtr⟩

/-- The sizes fit in the address space. -/
theorem total_lt {blocks : Blocks UInt8} (isMatching : Matches blocks.contents values)
    (ordered : Ordered heapIndex.keyOf values) : total values < 18446744073709551616 := by
  rcases values with _ | ⟨value, values⟩
  · simp [total]
  · let size (ptr : UInt64) : Nat := ((blocks.contents ptr).map List.length).getD 0
    have sizes : ∀ other ∈ value :: values, other.1.size.toNat ≤ size other.1.ptr := by
      intro other mem
      rcases isMatching.live other mem with ⟨block, isThere, length⟩
      rw [show size other.1.ptr = block.length by simp only [size, isThere]; rfl, length]
      omega
    have bound : value.1.ptr.toNat +
      (((value :: values).map fun other => other.1.ptr).map size).sum ≤
        18446744073709551616 := by
      have live : ∀ ptr ∈ (value :: values).map fun other => other.1.ptr,
          ∃ block, blocks.contents ptr = some block ∧ block.length = size ptr := by
        intro ptr mem
        rcases List.mem_map.mp mem with ⟨other, isOther, rfl⟩
        rcases isMatching.live other isOther with ⟨block, isThere, -⟩
        exact ⟨block, isThere, by simp only [size, isThere]; rfl⟩
      refine total_le value.1.ptr (values.map fun other : StorageElement × UInt64 =>
        other.1.ptr) ?_ live
      rw [show value.1.ptr :: values.map (fun other => other.1.ptr) =
        (value :: values).map (fun other => other.1.ptr) from rfl, List.map_map]
      exact ordered
    have le : total (value :: values) ≤
      (((value :: values).map fun other => other.1.ptr).map size).sum := by
      rw [total, List.map_map]
      exact List.sum_le_sum sizes
    have positive : value.1.ptr.toNat ≠ 0 := by
      rcases isMatching.live value List.mem_cons_self with ⟨block, isThere, -⟩
      exact fun zero => (blocks.inside _ block isThere).1 (UInt64.toNat_inj.mp zero)
    omega

/-- Where a block is, there is one record. -/
theorem filter_eq (isMatching : Matches contents values) (ordered : Ordered heapIndex.keyOf values)
    (isThere : contents ptr = some block) :
    (values.filter fun value => value.1.ptr = ptr).map (fun value => value.1.size.toNat + 16) =
    [block.length] := by
  rcases isMatching.tracked ptr block isThere with ⟨⟨s, space⟩, mem, rfl⟩
  rcases List.append_of_mem mem with ⟨xs, ys, rfl⟩
  have others := (isMatching.erase ordered).absent (Function.update_self ..)
  rcases isMatching.live _ mem with ⟨block', isThere', length⟩
  cases isThere.symm.trans isThere'
  have before : xs.filter (fun value => value.1.ptr = s.ptr) = [] := by
    refine List.filter_eq_nil_iff.mpr fun value mem => ?_
    simpa using others value (List.mem_append_left _ mem)
  have behind : ys.filter (fun value => value.1.ptr = s.ptr) = [] := by
    refine List.filter_eq_nil_iff.mpr fun value mem => ?_
    simpa using others value (List.mem_append_right _ mem)
  rw [List.filter_append, before, List.filter_cons_of_pos (by simp), behind, length]
  rfl

end Matches

end Matching

section Records

variable {tree : Memory Place (Node StorageElement) TreeVars}
  {t : RBTree (Trees.Entry StorageElement)} {contents : UInt64 → Option Bytes} {heap : Heap}
  {s : StorageElement}

/-- A record is in the tree. -/
theorem tracks_iff (wellFormed : WellFormed heapIndex heap.tree t) (ptr : UInt64) :
    heap.Tracks ptr ↔ ∃ value ∈ valuesOf t, value.1.ptr = ptr := by
  constructor
  · rintro ⟨place, node, s, isThere, isContent, rfl⟩
    rcases wellFormed.exists_focus isThere with ⟨path, red, left, entry, right, rfl, -, rfl⟩
    cases isContent
    refine ⟨entry.value, List.mem_map.mpr ⟨entry, ?_, rfl⟩, rfl⟩
    rw [toList_plug]
    simp [RBTree.toList]
  · rintro ⟨value, mem, rfl⟩
    rcases List.mem_map.mp mem with ⟨entry, inTree, rfl⟩
    rcases List.append_of_mem inTree with ⟨xs, ys, split⟩
    rcases RedBlack.exists_focus split with ⟨path, red, left, right, focus, -, -⟩
    exact ⟨entry.place, _, entry.content, wellFormed.node path red left entry right focus, rfl, rfl⟩

/-- A live block without a record. -/
theorem not_accounts {ptr : UInt64} {block : Bytes}
    (isThere : heap.blocks.contents ptr = some block) (untracked : ¬heap.Tracks ptr) :
    ¬heap.Accounts := by
  rintro ⟨t, wellFormed, -, -, blocks⟩
  have absent : ∀ value ∈ valuesOf t, value.1.ptr ≠ ptr := by
    intro value mem isPtr
    exact untracked ((tracks_iff wellFormed ptr).mpr ⟨value, mem, isPtr⟩)
  have one := blocks ptr block isThere
  rw [List.filter_eq_nil_iff.mpr fun value mem => by simpa using absent value mem] at one
  cases one

/-- A record and its block are there at an address, or there is no record. -/
theorem removeRecord (inMemory : InMemory heapIndex tree t)
    (isMatching : Matches contents (valuesOf t)) (p : UInt64) :
    (∃ s tree' t' block, treeRemoveKey heapIndex.compareKey p tree =
      some (some s, tree') ∧ s.ptr = p ∧
      InMemory heapIndex tree' t' ∧ contents p = some block ∧ block.length = s.size.toNat + 16 ∧
        Matches (Function.update contents p none) (valuesOf t') ∧
          total (valuesOf t) = s.size.toNat + total (valuesOf t')) ∨
      treeRemoveKey heapIndex.compareKey p tree = some (none, tree) ∧
      ∀ value ∈ valuesOf t, value.1.ptr ≠ p := by
  have ordered := inMemory.ordered
  rcases inMemory.removeKey p with
    ⟨tree', t', xs, s, space, ys, removed, inMemory', split, after, isKey⟩ | ⟨removed, absent⟩
  · left
    have isPtr : s.ptr = p := UInt64.toNat_inj.mp isKey
    rw [split] at isMatching ordered
    have isThere := isMatching.live (s, space) (List.mem_append_right _ List.mem_cons_self)
    rcases isThere with ⟨block, isThere, length⟩
    refine ⟨s, tree', t', block, removed, isPtr, inMemory', isPtr ▸ isThere, length, ?_, ?_⟩
    · rw [after, ← isPtr]
      exact isMatching.erase ordered
    · rw [split, after, total_middle]
  · right
    refine ⟨removed, fun value mem same => ?_⟩
    exact absent value mem (congrArg UInt64.toNat same)

/-- A record of a block that is new, or there is no storage for its node. -/
theorem addRecord (inMemory : InMemory heapIndex tree t)
    (isMatching : Matches contents (valuesOf t)) (isFree : contents s.ptr = none)
    (node : NodeMalloc StorageElement) (space : UInt64) {block : Bytes}
    (length : block.length = s.size.toNat + 16) : (node.result tree.records ≠ none ∧ ∃ tree' t',
      treeAdd node heapIndex.compare s space tree = some (some s, tree') ∧
      InMemory heapIndex tree' t' ∧ Matches (Function.update contents s.ptr (some block))
      (valuesOf t') ∧
        total (valuesOf t') = s.size.toNat + total (valuesOf t)) ∨
      node.result tree.records = none ∧ treeAdd node heapIndex.compare s space tree =
      some (none, tree) := by
  have absent : ∀ value ∈ valuesOf t, heapIndex.keyOf value ≠ heapIndex.order s := by
    intro value mem same
    exact isMatching.absent isFree value mem (UInt64.toNat_inj.mp same)
  rcases inMemory.add node space absent with ⟨gives, tree', t', xs, ys, added, inMemory', split,
    after⟩ | refused
  · rw [split] at isMatching
    refine .inl ⟨gives, tree', t', added, inMemory', ?_, ?_⟩
    · rw [after]
      exact isMatching.insert isFree length
    · rw [split, after, total_middle]
  · exact .inr refused

end Records

end HeapTracker

end Paho
