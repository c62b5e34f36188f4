import Paho.Codec.Native
import Paho.Library.Allocation
import Paho.Library.Run
import Paho.Pointers.TreeValues

/-!
# The heap tracker

`mymalloc`, `myrealloc` and `myfree` of `Heap.c`, with the tree of the allocation records in memory
and the blocks that the system has given. The records and file names themselves are in storage that
nothing else uses. A store or a read outside of a block has no outcome; what is logged has no
effect.
-/

namespace Paho

open Records Trees Allocation

namespace HeapTracker

/-- `storageElement`. -/
structure StorageElement where
  file : CString
  line : Int
  ptr : UInt64
  size : UInt64
  deriving DecidableEq

/-- `sizeof(storageElement)`. -/
def sizeofStorageElement : UInt64 := 32

/-- `eyecatcher`, in memory. -/
def eyecatcher : Bytes := List.replicate 8 0x88

/-- `heap`, `state` and the live blocks. -/
structure Heap where
  tree : Memory Place (Node StorageElement) TreeVars
  current_size : UInt64
  max_size : UInt64
  blocks : Blocks UInt8

/-- A function of `Heap.c`. -/
abbrev HeapProgram :=
  StateT Heap Option

/-- `Heap_roundup`. -/
def heapRoundup (size : UInt64) : UInt64 :=
  if size % 16 ≠ 0 then size + (16 - size % 16) else size

/-- `ptrCompare`. -/
def ptrCompare (a b : UInt64) : Int :=
  if a > b then -1 else if a = b then 0 else 1

theorem ptrCompare_pos (a b : UInt64) : 0 < ptrCompare a b ↔ a.toNat < b.toNat := by
  rw [ptrCompare]
  split
  case isTrue greater =>
    have less := UInt64.lt_iff_toNat_lt.mp greater
    omega
  case isFalse notGreater =>
    have le := UInt64.le_iff_toNat_le.mp (UInt64.not_lt.mp notGreater)
    split
    case isTrue same =>
      subst same
      omega
    case isFalse other =>
      have different : a.toNat ≠ b.toNat := fun same => other (UInt64.toNat_inj.mp same)
      omega

theorem ptrCompare_eq_zero (a b : UInt64) : ptrCompare a b = 0 ↔ a.toNat = b.toNat := by
  rw [ptrCompare, UInt64.toNat_inj]
  split
  case isTrue greater =>
    have different : a ≠ b := by
      rintro rfl
      exact UInt64.lt_irrefl a greater
    simp [different]
  case isFalse =>
    split
    case isTrue same => simp [same]
    case isFalse other => simp [other]

/-- The order of the tree. -/
def heapIndex : Index StorageElement UInt64 Nat where
  compare a b := ptrCompare a.ptr b.ptr
  compareKey a key := ptrCompare a.ptr key
  order a := a.ptr.toNat
  orderKey key := key.toNat
  compare_pos a b := ptrCompare_pos a.ptr b.ptr
  compare_eq_zero a b := ptrCompare_eq_zero a.ptr b.ptr
  compareKey_pos a key := ptrCompare_pos a.ptr key
  compareKey_eq_zero a key := ptrCompare_eq_zero a.ptr key

/-- A function of `Tree.c` on the tree. -/
def onTree {α : Type} (program : TreeProgram StorageElement α) : HeapProgram α :=
  fun heap => (program heap.tree).map fun (result, tree) => (result, { heap with tree := tree })

/-- An eyecatcher is stored in the block at `ptr`. -/
def storeEyecatcher (ptr place : UInt64) : HeapProgram Unit :=
  fun heap => (heap.blocks.store ptr place.toNat eyecatcher).map fun blocks =>
    ((), { heap with blocks := blocks })

/-- An eyecatcher is read in the block at `ptr`. -/
def readEyecatcher (ptr place : UInt64) : HeapProgram Unit :=
  fun heap => (heap.blocks.contents ptr).bind fun block =>
    if place.toNat + 8 ≤ block.length then some ((), heap) else none

/-- `checkEyecatchers`, which logs what it finds. -/
def checkEyecatchers (p size : UInt64) : HeapProgram Unit := do
  readEyecatcher (p - 8) 0
  readEyecatcher (p - 8) (8 + size)

/-- `state.current_size` changes, and `state.max_size` follows. -/
def grow (current_size : UInt64) : HeapProgram Unit :=
  modify fun heap =>
    { heap with
      current_size := current_size
      max_size := if current_size > heap.max_size then current_size else heap.max_size }

/-- What the system allocator does for `mymalloc`: whether it gives storage for the record and for
the file name, and what it gives for the block and for the node of the tree. -/
structure Mallocs where
  element : Bool
  file : Bool
  block : Malloc UInt8
  node : NodeMalloc StorageElement

/-- What it does for `myrealloc`. -/
structure Reallocs where
  block : Realloc UInt8
  file : Bool
  node : NodeMalloc StorageElement

/-- `strlen(file) + 1`. -/
def filenamelen (file : CString) : UInt64 :=
  UInt64.ofNat (file.bytes.length + 1)

/-- `malloc` of a block, and `memset`. -/
def mallocBlock (malloc : Malloc UInt8) (size : UInt64) : HeapProgram UInt64 :=
  fun heap =>
    match malloc.run heap.blocks (List.replicate size.toNat 0) with
    | none => some (0, heap)
    | some (ptr, blocks) => some (ptr, { heap with blocks := blocks })

/-- `realloc` of a block. -/
def reallocBlock (realloc : Realloc UInt8) (ptr size : UInt64) : HeapProgram UInt64 :=
  fun heap =>
    match realloc.run heap.blocks ptr size.toNat with
    | none => none
    | some none => some (0, heap)
    | some (some (ptr, blocks)) => some (ptr, { heap with blocks := blocks })

/-- `free` of a block. -/
def freeBlock (ptr : UInt64) : HeapProgram Unit :=
  fun heap =>
    if (heap.blocks.contents ptr).isSome then
      some ((), { heap with blocks := heap.blocks.free ptr }) else none

/-- `mymalloc` behind the storage for the record. -/
def mallocRecord (mallocs : Mallocs) (file : CString) (line : Int) (size : UInt64) :
    HeapProgram UInt64 := do
  let space := sizeofStorageElement + filenamelen file
  let ptr ← mallocBlock mallocs.block (size + 16)
  if ptr = 0 then return 0
  else
    let space := space + (size + 16)
    storeEyecatcher ptr 0
    storeEyecatcher ptr (8 + size)
    let _ ← onTree (treeAdd mallocs.node heapIndex.compare ⟨file, line, ptr, size⟩ space)
    grow ((← get).current_size + size)
    return ptr + 8

/-- `mymalloc`. -/
def mymalloc (mallocs : Mallocs) (file : CString) (line : Int) (size : UInt64) :
    HeapProgram UInt64 := do
  let size := heapRoundup size
  if !mallocs.element then return 0
  else if !mallocs.file then return 0
  -- `memset` stores `sizeof(filenamelen)` bytes in the buffer of the name
  else if filenamelen file < 8 then failure
  else mallocRecord mallocs file line size

/-- `Internal_heap_unlink`. -/
def heapUnlink (p : UInt64) : HeapProgram Bool := do
  let e ← onTree (treeFind heapIndex.compareKey (p - 8))
  if e = none then return false
  else
    let node ← onTree (load e)
    match node.content with
    | none => failure
    | some s =>
        checkEyecatchers p s.size
        modify fun heap => { heap with current_size := heap.current_size - s.size }
        let _ ← onTree (treeRemoveNode e)
        return true

/-- `myfree`. -/
def myfree (p : UInt64) : HeapProgram Unit := do
  if p ≠ 0 then
    if ← heapUnlink p then freeBlock (p - 8)

/-- `myrealloc` behind the removal of the record from the tree. -/
def reallocRecord (reallocs : Reallocs) (file : CString) (line : Int) (s : StorageElement)
    (p size : UInt64) :
    HeapProgram UInt64 := do
  checkEyecatchers p s.size
  let size := heapRoundup size
  grow ((← get).current_size + (size - s.size))
  let ptr ← reallocBlock reallocs.block s.ptr (size + 16)
  if ptr = 0 then return 0
  else
    let space := sizeofStorageElement + (size + 16 - s.size)
    storeEyecatcher ptr 0
    storeEyecatcher ptr (8 + size)
    -- the result of `realloc` for the name goes to `strcpy`
    if !reallocs.file then failure
    else
      let space := space - UInt64.ofNat s.file.bytes.length + filenamelen file
      let _ ← onTree (treeAdd reallocs.node heapIndex.compare ⟨file, line, ptr, size⟩ space)
      return ptr + 8

/-- `myrealloc`. -/
def myrealloc (reallocs : Reallocs) (file : CString) (line : Int) (p size : UInt64) :
    HeapProgram UInt64 := do
  let s ← onTree (treeRemoveKey heapIndex.compareKey (p - 8))
  match s with
  | none => return 0
  | some s => reallocRecord reallocs file line s p size

/-- `Heap_initialize`. -/
def initial : Heap :=
  ⟨emptyTree, 0, 0, Blocks.empty⟩

/-- A call. -/
inductive Call where
  | malloc (mallocs : Mallocs) (file : CString) (line : Int) (size : UInt64)
  | realloc (reallocs : Reallocs) (file : CString) (line : Int) (p size : UInt64)
  | free (p : UInt64)

/-- Make a call. What it returns is 0 for NULL. -/
def Call.perform : Call → HeapProgram UInt64
  | .malloc mallocs file line size => mymalloc mallocs file line size
  | .realloc reallocs file line p size => myrealloc reallocs file line p size
  | .free p => do
      myfree p
      return 0

/-- The tracker has a record of the block at an address. -/
def Heap.Tracks (heap : Heap) (ptr : UInt64) : Prop :=
  ∃ place node s, heap.tree.records place = some node ∧ node.content = some s ∧ s.ptr = ptr

/-- A call that fails: NULL is returned, or what is to be freed is not tracked. -/
def Call.Fails (heap : Heap) (result : UInt64) : Call → Prop
  | .malloc _ _ _ _ => result = 0
  | .realloc _ _ _ _ _ => result = 0
  | .free p => ¬heap.Tracks (p - 8)

/-- No allocation fails behind which the tracker has changed something: that of a node, and of a
block or a name in `myrealloc`. The buffer of a name has the 8 bytes that `memset` stores, and a
block has those of the eyecatchers. -/
def Call.Careful (heap : Heap) : Call → Prop
  | .malloc mallocs file _ size =>
      mallocs.element = true → mallocs.file = true →
        8 ≤ filenamelen file ∧
        (mallocs.block.result heap.blocks (heapRoundup size + 16).toNat ≠ none →
          heapRoundup size + 16 ≠ 0 ∧ mallocs.node.result heap.tree.records ≠ none)
  | .realloc reallocs _ _ p size =>
      heap.Tracks (p - 8) →
        reallocs.block.result heap.blocks (p - 8) (heapRoundup size + 16).toNat ≠ none ∧
          heapRoundup size + 16 ≠ 0 ∧ reallocs.file = true ∧
            ∀ s tree, treeRemoveKey heapIndex.compareKey (p - 8) heap.tree = some (s, tree) →
              reallocs.node.result tree.records ≠ none
  | .free _ => True

/-- One more call, where there has been an outcome so far. -/
def step (heap : Option Heap) (call : Call) : Option Heap :=
  heap.bind fun heap => (call.perform heap).map Prod.snd

/-- The guard of a run. -/
def IsCareful (heap : Option Heap) (call : Call) : Prop :=
  ∀ before, heap = some before → call.Careful before

/-- The accounts are right: `current_size` is the sum of the sizes of the tracked blocks, which are
live, and each live block is tracked once, under its address and its size without the eyecatchers.
-/
def Heap.Accounts (heap : Heap) : Prop :=
  ∃ t, WellFormed heapIndex heap.tree t ∧
    heap.current_size.toNat = ((valuesOf t).map fun value => value.1.size.toNat).sum ∧
    (∀ value ∈ valuesOf t, (heap.blocks.contents value.1.ptr).isSome) ∧
    ∀ ptr block, heap.blocks.contents ptr = some block →
      ((valuesOf t).filter fun value => value.1.ptr = ptr).map
        (fun value => value.1.size.toNat + 16) = [block.length]

end HeapTracker

end Paho
