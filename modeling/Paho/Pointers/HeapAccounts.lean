import Mathlib.Order.Bounds.Basic
import Paho.Pointers.HeapRecords

/-!
# The accounts of the heap tracker

The accounts of the tracker are right as long as nothing fails behind a change of the tracker. After
such a failure there is a block without a record.
-/

namespace Paho

open Records RedBlack Trees Allocation

namespace HeapTracker

section Operations

variable {heap : Heap} {t : RBTree (Trees.Entry StorageElement)}

theorem toNat_heapRoundup_mod (size : UInt64) : (heapRoundup size).toNat % 16 = 0 := by
  have toNat_mod : (size % 16).toNat = size.toNat % 16 := UInt64.toNat_mod size 16
  rw [heapRoundup]
  split
  case isTrue =>
    have le : size % 16 ≤ 16 := by
      rw [UInt64.le_iff_toNat_le, toNat_mod]
      change size.toNat % 16 ≤ 16
      omega
    rw [UInt64.toNat_add, UInt64.toNat_sub_of_le _ _ le, toNat_mod]
    change (size.toNat + (16 - size.toNat % 16)) % 18446744073709551616 % 16 = 0
    omega
  case isFalse isZero =>
    rw [← toNat_mod, not_not.mp isZero]
    rfl

/-- The size of a block. -/
theorem toNat_heapRoundup_add {size : UInt64} (fits : heapRoundup size + 16 ≠ 0) :
    (heapRoundup size + 16).toNat = (heapRoundup size).toNat + 16 := by
  have multiple := toNat_heapRoundup_mod size
  have bound := (heapRoundup size).toNat_lt
  have wraps : (heapRoundup size + 16).toNat = ((heapRoundup size).toNat + 16) %
    18446744073709551616 :=
    UInt64.toNat_add ..
  have nonzero : (heapRoundup size + 16).toNat ≠ 0 := fun zero => fits (UInt64.toNat_inj.mp zero)
  omega

/-- The state between two calls. -/
structure Sound (heap : Heap) (t : RBTree (Trees.Entry StorageElement)) : Prop where
  inMemory : InMemory heapIndex heap.tree t
  isMatching : Matches heap.blocks.contents (valuesOf t)
  current : heap.current_size.toNat = total (valuesOf t)
  most : heap.current_size.toNat ≤ heap.max_size.toNat

/-- A call keeps the state sound, and `max_size` is the maximum. -/
def Keeps (heap heap' : Heap) : Prop :=
  (∃ t', Sound heap' t') ∧ heap'.max_size.toNat = max heap.max_size.toNat heap'.current_size.toNat

/-- What is not live is not tracked. -/
theorem Sound.untracked (sound : Sound heap t) {ptr : UInt64}
    (isFree : heap.blocks.contents ptr = none) :
    ¬heap.Tracks ptr := by
  intro isTracked
  rcases (tracks_iff sound.inMemory.wellFormed ptr).mp isTracked with ⟨value, mem, isPtr⟩
  exact sound.isMatching.absent isFree value mem isPtr

theorem Sound.keeps (sound : Sound heap t) : Keeps heap heap :=
  ⟨⟨t, sound⟩, (max_eq_left sound.most).symm⟩

/-- What a caller has of a block is not NULL. -/
theorem data_nonnull {blocks : Blocks UInt8} {ptr : UInt64} {size : Nat}
    (room : Room blocks ptr (size + 16)) :
    ptr + 8 ≠ 0 := by
  intro zero
  have inside := room.inside
  have wraps : (ptr + 8).toNat = (ptr.toNat + 8) % 18446744073709551616 := UInt64.toNat_add ..
  have isZero : (ptr + 8).toNat = 0 := congrArg UInt64.toNat zero
  omega

theorem mallocBlock_cases (malloc : Malloc UInt8) (size : UInt64) (heap : Heap) :
    (malloc.result heap.blocks size.toNat = none ∧ mallocBlock malloc size heap = some (0, heap)) ∨
      ∃ ptr blocks, malloc.result heap.blocks size.toNat = some ptr ∧
        mallocBlock malloc size heap = some (ptr, { heap with blocks := blocks }) ∧
          Room heap.blocks ptr size.toNat ∧ blocks.contents =
            Function.update heap.blocks.contents ptr (some (List.replicate size.toNat 0)) := by
  have cases := malloc.run_cases heap.blocks (List.replicate size.toNat 0)
  rw [List.length_replicate] at cases
  rcases cases with ⟨isResult, run⟩ | ⟨ptr, blocks, isResult, run, room, contents⟩
  · exact .inl ⟨isResult, by rw [mallocBlock, run]⟩
  · exact .inr ⟨ptr, blocks, isResult, by rw [mallocBlock, run], room, contents⟩

theorem reallocBlock_cases (realloc : Realloc UInt8) {ptr : UInt64} {block : Bytes} (size : UInt64)
    (isThere : heap.blocks.contents ptr = some block) :
    (realloc.result heap.blocks ptr size.toNat = none ∧ reallocBlock realloc ptr size heap =
      some (0, heap)) ∨
      ∃ ptr' blocks block', realloc.result heap.blocks ptr size.toNat ≠ none ∧
      block'.length = size.toNat ∧
        reallocBlock realloc ptr size heap = some (ptr', { heap with blocks := blocks }) ∧
          Room (heap.blocks.free ptr) ptr' size.toNat ∧ blocks.contents =
            Function.update (Function.update heap.blocks.contents ptr none) ptr' (some block') := by
  rcases realloc.run_cases isThere size.toNat with ⟨isResult, run⟩
    | ⟨ptr', blocks, isResult, run, room, contents⟩
  · exact .inl ⟨isResult, by rw [reallocBlock, run]⟩
  · refine .inr ⟨ptr', blocks, _, ?_, realloc.length_resize block _, by rw [reallocBlock, run],
      room, contents⟩
    rw [isResult]
    exact Option.some_ne_none ptr'

/-- A size that does not fit has a block without room for the eyecatchers. -/
theorem storeEyecatcher_none {ptr size : UInt64} {block : Bytes}
    (isThere : heap.blocks.contents ptr = some block)
    (length : block.length = (heapRoundup size + 16).toNat) (wraps : heapRoundup size + 16 = 0) :
    storeEyecatcher ptr 0 heap = none := by
  refine storeEyecatcher_outside isThere ?_
  rw [length, wraps, eyecatcher, List.length_replicate, UInt64.toNat_zero]
  omega

/-- The new block has its record, or something fails behind it. -/
theorem mallocRecord_cases (sound : Sound heap t) (mallocs : Mallocs) (file : CString) (line : Int)
    (size : UInt64) {ptr : UInt64}
    (isResult : mallocs.block.result heap.blocks (heapRoundup size + 16).toNat = some ptr) :
    ((heapRoundup size + 16 ≠ 0 ∧ mallocs.node.result heap.tree.records ≠ none) ∧ ∃ heap',
      mallocRecord mallocs file line (heapRoundup size) heap = some (ptr + 8, heap') ∧
      Keeps heap heap' ∧
        ptr + 8 ≠ 0 ∧ heap'.Tracks ptr) ∨
      ¬(heapRoundup size + 16 ≠ 0 ∧ mallocs.node.result heap.tree.records ≠ none) ∧ ∀ result heap',
        mallocRecord mallocs file line (heapRoundup size) heap = some (result, heap') →
        ¬heap'.Accounts := by
  rw [mallocRecord]
  dsimp only
  rcases mallocBlock_cases mallocs.block (heapRoundup size + 16) heap with
    ⟨isNull, -⟩ | ⟨other, blocks, isResult', done, room, contents⟩
  · cases isResult.symm.trans isNull
  · cases isResult.symm.trans isResult'
    have isThere : ({ heap with blocks := blocks } : Heap).blocks.contents ptr =
        some (List.replicate (heapRoundup size + 16).toNat 0) := by
      rw [contents, Function.update_self]
    rw [bind_eq _ done, if_neg room.nonnull]
    by_cases wraps : heapRoundup size + 16 = 0
    · rw [bind_none _ (storeEyecatcher_none isThere List.length_replicate wraps)]
      exact .inr ⟨fun careful => careful.1 wraps, fun _ _ done => by cases done⟩
    · have length : (List.replicate (heapRoundup size + 16).toNat (0 : UInt8)).length =
          (heapRoundup size).toNat + 16 := by
        rw [List.length_replicate, toNat_heapRoundup_add wraps]
      rcases storeEyecatchers_eq isThere length with ⟨blocks', block, sameLength, contents', stored⟩
      rw [contents, Function.update_idem] at contents'
      have isBlock : blocks'.contents ptr = some block := by
        rw [contents', Function.update_self]
      rw [stored]
      rcases addRecord (s := ⟨file, line, ptr, heapRoundup size⟩) sound.inMemory
        sound.isMatching room.new
        mallocs.node (sizeofStorageElement + filenamelen file + (heapRoundup size + 16))
        (sameLength.trans length) with ⟨node, tree', t', added, inMemory', isMatching', isTotal⟩
          | ⟨noNode, added⟩
      · rw [← contents'] at isMatching'
        rcases grow_bind ⟨tree', heap.current_size, heap.max_size, blocks'⟩ (heapRoundup size) with
          ⟨max_size, isMax, grown⟩
        have current : (heap.current_size + heapRoundup size).toNat = total (valuesOf t') := by
          have bound := isMatching'.total_lt inMemory'.ordered
          have isCurrent := sound.current
          dsimp only at isTotal
          rw [UInt64.toNat_add]
          omega
        rw [onTree_bind _ added]
        refine .inl ⟨⟨wraps, node⟩, _, grown _, ⟨⟨t', inMemory', isMatching', current, ?_⟩, isMax⟩,
          data_nonnull (toNat_heapRoundup_add wraps ▸ room), ?_⟩
        · exact (le_max_right ..).trans isMax.ge
        · exact (tracks_iff inMemory'.wellFormed ptr).mpr (isMatching'.tracked ptr block isBlock)
      · rcases grow_bind ⟨heap.tree, heap.current_size, heap.max_size, blocks'⟩
          (heapRoundup size) with
          ⟨max_size, -, grown⟩
        rw [onTree_bind _ added]
        refine .inr ⟨fun careful => careful.2 noNode, fun result heap' done' => ?_⟩
        cases done'.symm.trans (grown _)
        exact not_accounts isBlock (sound.untracked room.new)

/-- What a careful `mymalloc` does. After another one the accounts are wrong. -/
theorem mymalloc_spec (sound : Sound heap t) (mallocs : Mallocs) (file : CString) (line : Int)
    (size : UInt64) : ((Call.malloc mallocs file line size).Careful heap ∧ ∃ result heap',
      mymalloc mallocs file line size heap = some (result, heap') ∧ Keeps heap heap' ∧
      (result = 0 → heap' = heap)) ∨
      ¬(Call.malloc mallocs file line size).Careful heap ∧ ∀ result heap',
        mymalloc mallocs file line size heap = some (result, heap') → ¬heap'.Accounts := by
  rw [mymalloc, Call.Careful]
  cases isElement : mallocs.element
  case false => exact .inl ⟨fun isTrue => absurd isTrue Bool.false_ne_true, 0, heap, rfl,
    sound.keeps, fun _ => rfl⟩
  case true =>
    cases isFile : mallocs.file
    case false =>
      exact .inl ⟨fun _ isTrue => absurd isTrue Bool.false_ne_true, 0, heap, rfl,
        sound.keeps, fun _ => rfl⟩
    case true =>
      rw [if_neg (by simp), if_neg (by simp)]
      by_cases short : filenamelen file < 8
      · rw [if_pos short]
        refine .inr ⟨fun careful => ?_, fun _ _ done => by cases done⟩
        exact UInt64.not_le.mpr short (careful rfl rfl).1
      · have long : 8 ≤ filenamelen file := UInt64.not_lt.mp short
        rw [if_neg short]
        cases isResult : mallocs.block.result heap.blocks (heapRoundup size + 16).toNat
        case none =>
          refine .inl ⟨fun _ _ => ⟨long, fun gives => absurd rfl gives⟩, 0, heap, ?_,
            sound.keeps, fun _ => rfl⟩
          rw [mallocRecord]
          dsimp only
          rcases mallocBlock_cases mallocs.block (heapRoundup size + 16) heap with
            ⟨-, done⟩ | ⟨ptr, blocks, isResult', -⟩
          · rw [bind_eq _ done, if_pos rfl]
            rfl
          · cases isResult.symm.trans isResult'
        case some ptr =>
          rcases mallocRecord_cases sound mallocs file line size isResult with
            ⟨careful, heap', done, keeps, nonnull, -⟩ | ⟨careless, wrong⟩
          · exact .inl ⟨fun _ _ => ⟨long, fun _ => careful⟩, ptr + 8, heap', done, keeps,
              fun isNull => absurd isNull nonnull⟩
          · exact .inr ⟨fun careful => careless ((careful rfl rfl).2 (Option.some_ne_none ptr)),
              wrong⟩

/-- `Internal_heap_unlink` takes the record of a block out, or finds none. -/
theorem heapUnlink_cases (sound : Sound heap t) (p : UInt64) :
    (∃ (s : StorageElement) (tree' : Memory Place (Node StorageElement) TreeVars)
      (t' : RBTree (Trees.Entry StorageElement))
        (block : Bytes), heapUnlink p heap =
          some (true, { heap with tree := tree', current_size := heap.current_size - s.size }) ∧
      heap.Tracks (p - 8) ∧ InMemory heapIndex tree' t' ∧
        heap.blocks.contents (p - 8) = some block ∧
        Matches (Function.update heap.blocks.contents (p - 8) none) (valuesOf t') ∧
          total (valuesOf t) = s.size.toNat + total (valuesOf t')) ∨
      heapUnlink p heap = some (false, heap) := by
  rcases heap with ⟨tree, current_size, max_size, blocks⟩
  rw [heapUnlink]
  rcases sound.inMemory.find (p - 8) with
    ⟨place, node, s, space, found, isThere, isContent, mem, isKey, removes⟩ | ⟨found, absent⟩
  · left
    have isPtr : s.ptr = p - 8 := UInt64.toNat_inj.mp isKey
    rcases sound.isMatching.live (s, space) mem with ⟨block, isBlock, length⟩
    rcases removeRecord sound.inMemory sound.isMatching (p - 8) with
      ⟨s', tree', t', block', removed, isPtr', inMemory', isBlock', length', isMatching',
        isTotal⟩ | ⟨-, absent⟩
    · dsimp only at isBlock isBlock' length
      rw [isPtr] at isBlock
      cases isBlock.symm.trans isBlock'
      have sameSize : s.size = s'.size := UInt64.toNat_inj.mp (by omega)
      have loaded : load (some place) tree = some (node, tree) := by
        rw [load, Option.bind_some, isThere]
        rfl
      refine ⟨s', tree', t', block, ?_, ⟨place, node, s, isThere, isContent, isPtr⟩, inMemory',
        isBlock', isMatching',
        isTotal⟩
      rw [onTree_bind _ found, if_neg (Option.some_ne_none place), onTree_bind _ loaded, isContent]
      dsimp only
      rw [bind_eq _ (checkEyecatchers_eq isBlock length), modify_bind, ← sameSize]
      exact onTree_bind _ (removes.trans removed) ..
    · exact absurd isPtr (absent (s, space) mem)
  · right
    rw [onTree_bind _ found, if_pos rfl]
    rfl

/-- A block and its record are gone, or nothing has changed. -/
theorem myfree_spec (sound : Sound heap t) (p : UInt64) :
    ∃ heap', myfree p heap = some ((), heap') ∧ Keeps heap heap' ∧
      (¬heap.Tracks (p - 8) → heap' = heap) := by
  rw [myfree]
  by_cases isNull : p = 0
  · rw [if_neg (not_not.mpr isNull)]
    exact ⟨heap, rfl, sound.keeps, fun _ => rfl⟩
  · rw [if_pos isNull]
    rcases heapUnlink_cases sound p with
      ⟨s, tree', t', block, done, tracks, inMemory', isThere, isMatching', isTotal⟩ | done
    · have current : (heap.current_size - s.size).toNat = total (valuesOf t') := by
        have isCurrent := sound.current
        have le : s.size ≤ heap.current_size := UInt64.le_iff_toNat_le.mpr (by omega)
        rw [UInt64.toNat_sub_of_le _ _ le]
        omega
      have most := sound.most
      have isCurrent := sound.current
      rw [bind_eq _ done, if_pos rfl,
        freeBlock_eq ⟨tree', heap.current_size - s.size, heap.max_size, heap.blocks⟩ isThere]
      refine ⟨_, rfl, ⟨⟨t', inMemory', isMatching', current, ?_⟩, ?_⟩,
        fun untracked => absurd tracks untracked⟩
      · dsimp only
        omega
      · dsimp only
        omega
    · rw [bind_eq _ done]
      exact ⟨heap, rfl, sound.keeps, fun _ => rfl⟩

/-- The record is out of the tree: it is back for the new block, or something fails. -/
theorem reallocRecord_cases (heap : Heap) (reallocs : Reallocs) (file : CString)
    (line : Int) {p : UInt64} (size : UInt64) {s : StorageElement} {block : Bytes}
    (isPtr : s.ptr = p - 8) (inMemory : InMemory heapIndex heap.tree t)
    (isThere : heap.blocks.contents (p - 8) = some block)
    (length : block.length = s.size.toNat + 16)
    (isMatching : Matches (Function.update heap.blocks.contents (p - 8) none) (valuesOf t))
    (current : heap.current_size.toNat = s.size.toNat + total (valuesOf t)) :
    ((reallocs.block.result heap.blocks (p - 8) (heapRoundup size + 16).toNat ≠ none ∧
      heapRoundup size + 16 ≠ 0 ∧
        reallocs.file = true ∧ reallocs.node.result heap.tree.records ≠ none) ∧ ∃ result heap',
      reallocRecord reallocs file line s p size heap = some (result, heap') ∧
      Keeps heap heap' ∧ result ≠ 0) ∨
      ¬(reallocs.block.result heap.blocks (p - 8) (heapRoundup size + 16).toNat ≠ none ∧
        heapRoundup size + 16 ≠ 0 ∧
        reallocs.file = true ∧ reallocs.node.result heap.tree.records ≠ none) ∧ ∀ result heap',
      reallocRecord reallocs file line s p size heap = some (result, heap') → ¬heap'.Accounts := by
  rw [reallocRecord]
  dsimp only
  rcases grow_bind heap (heapRoundup size - s.size) with ⟨max_size, isMax, grown⟩
  rw [bind_eq _ (checkEyecatchers_eq isThere length), grown, isPtr]
  have untracked {ptr : UInt64}
    (isFree : Function.update heap.blocks.contents (p - 8) none ptr = none) :
      ¬heap.Tracks ptr := by
    intro isTracked
    rcases (tracks_iff inMemory.wellFormed ptr).mp isTracked with ⟨value, mem, isValue⟩
    exact isMatching.absent isFree value mem isValue
  have isThere' : (⟨heap.tree, heap.current_size + (heapRoundup size - s.size),
    max_size, heap.blocks⟩ :
    Heap).blocks.contents (p - 8) = some block := isThere
  rcases reallocBlock_cases reallocs.block (heapRoundup size + 16) isThere' with
    ⟨refused, done⟩ | ⟨ptr, blocks, block', gives, length', done, room, contents⟩
  · rw [bind_eq _ done, if_pos rfl]
    refine .inr ⟨fun careful => careful.1 refused, fun result heap' done' => ?_⟩
    cases done'
    exact not_accounts isThere (untracked (Function.update_self ..))
  · have isBlock : (⟨heap.tree, heap.current_size + (heapRoundup size - s.size), max_size, blocks⟩ :
        Heap).blocks.contents ptr = some block' := by
      rw [contents, Function.update_self]
    rw [bind_eq _ done, if_neg room.nonnull]
    by_cases wraps : heapRoundup size + 16 = 0
    · rw [bind_none _ (storeEyecatcher_none isBlock length' wraps)]
      exact .inr ⟨fun careful => careful.2.1 wraps, fun _ _ done => by cases done⟩
    · rw [toNat_heapRoundup_add wraps] at length' room
      rcases storeEyecatchers_eq isBlock length' with
        ⟨blocks', block'', sameLength, contents', stored⟩
      rw [contents, Function.update_idem] at contents'
      rw [stored]
      cases isFile : reallocs.file
      case false =>
        exact .inr ⟨fun careful => absurd careful.2.2.1 Bool.false_ne_true,
          fun _ _ done => by cases done⟩
      case true =>
        have isFree : Function.update heap.blocks.contents (p - 8) none ptr = none := room.new
        rw [if_neg (by simp)]
        rcases addRecord (s := ⟨file, line, ptr, heapRoundup size⟩) inMemory isMatching
          isFree reallocs.node
          (sizeofStorageElement + (heapRoundup size + 16 - s.size) - UInt64.ofNat
            s.file.bytes.length +
            filenamelen file) (sameLength.trans length') with
          ⟨node, tree', t', added, inMemory', isMatching', isTotal⟩ | ⟨noNode, added⟩
        · rw [← contents'] at isMatching'
          have current' : (heap.current_size + (heapRoundup size - s.size)).toNat =
            total (valuesOf t') := by
            have bound := isMatching'.total_lt inMemory'.ordered
            have small := s.size.toNat_lt
            dsimp only at isTotal
            rw [UInt64.toNat_add, UInt64.toNat_sub]
            omega
          rw [onTree_bind _ added]
          refine .inl ⟨⟨gives, wraps, rfl, node⟩, ptr + 8, _, rfl,
            ⟨⟨t', inMemory', isMatching', current', ?_⟩, isMax⟩, data_nonnull room⟩
          exact (le_max_right ..).trans isMax.ge
        · have isBlock' : blocks'.contents ptr = some block'' := by
            rw [contents', Function.update_self]
          rw [onTree_bind _ added]
          refine .inr ⟨fun careful => careful.2.2.2 noNode, fun result heap' done' => ?_⟩
          cases done'
          exact not_accounts isBlock' (untracked isFree)

/-- `myrealloc` finds no record, or the removal of one comes first. -/
theorem myrealloc_cases (sound : Sound heap t) (reallocs : Reallocs) (file : CString) (line : Int)
    (p size : UInt64) :
    (heap.Tracks (p - 8) ∧
      ∃ (s : StorageElement) (tree' : Memory Place (Node StorageElement) TreeVars)
        (t' : RBTree (Trees.Entry StorageElement)) (block : Bytes),
      myrealloc reallocs file line p size heap =
          reallocRecord reallocs file line s p size { heap with tree := tree' } ∧
        treeRemoveKey heapIndex.compareKey (p - 8) heap.tree = some (some s, tree') ∧
          s.ptr = p - 8 ∧
          InMemory heapIndex tree' t' ∧ heap.blocks.contents (p - 8) = some block ∧
            block.length = s.size.toNat + 16 ∧
              Matches (Function.update heap.blocks.contents (p - 8) none) (valuesOf t') ∧
            heap.current_size.toNat = s.size.toNat + total (valuesOf t')) ∨
      ¬heap.Tracks (p - 8) ∧ myrealloc reallocs file line p size heap = some (0, heap) := by
  have tracks := tracks_iff sound.inMemory.wellFormed (p - 8)
  rcases heap with ⟨tree, current_size, max_size, blocks⟩
  rw [myrealloc]
  rcases removeRecord sound.inMemory sound.isMatching (p - 8) with
    ⟨s, tree', t', block, removed, isPtr, inMemory', isThere, length, isMatching', isTotal⟩
      | ⟨removed, absent⟩
  · have isTracked := tracks.mpr (sound.isMatching.tracked (p - 8) block isThere)
    exact .inl ⟨isTracked, s, tree', t', block, onTree_bind _ removed .., removed, isPtr, inMemory',
      isThere, length,
      isMatching', sound.current.trans isTotal⟩
  · right
    refine ⟨fun isTracked => ?_, onTree_bind _ removed ..⟩
    rcases tracks.mp isTracked with ⟨value, mem, isPtr⟩
    exact absent value mem isPtr

/-- What a careful call does. After another one the accounts are wrong. -/
theorem perform_spec (sound : Sound heap t) (call : Call) :
    (call.Careful heap ∧ ∃ result heap', call.perform heap = some (result, heap') ∧
      Keeps heap heap' ∧
      (call.Fails heap result → heap' = heap)) ∨
      ¬call.Careful heap ∧ ∀ result heap', call.perform heap = some (result, heap') →
      ¬heap'.Accounts := by
  cases call with
  | malloc mallocs file line size => exact mymalloc_spec sound mallocs file line size
  | realloc reallocs file line p size =>
      rcases myrealloc_cases sound reallocs file line p size with
        ⟨tracks, s, tree', t', block, done, removed, isPtr, inMemory', isThere, length,
          isMatching', current⟩ |
        ⟨untracked, done⟩
      · rcases reallocRecord_cases { heap with tree := tree' } reallocs file line size isPtr
          inMemory' isThere length
          isMatching' current with
          ⟨⟨gives, fits, isFile, node⟩, result, heap', resumed, keeps, nonnull⟩ | ⟨careless, wrong⟩
        · refine .inl ⟨fun _ => ⟨gives, fits, isFile, fun s' tree isRemoved => ?_⟩, result, heap',
            done.trans resumed,
            keeps, fun isNull => absurd isNull nonnull⟩
          cases removed.symm.trans isRemoved
          exact node
        · refine .inr ⟨fun careful => ?_,
            fun result heap' isDone => wrong result heap' (done.symm.trans isDone)⟩
          rcases careful tracks with ⟨gives, fits, isFile, node⟩
          exact careless ⟨gives, fits, isFile, node _ _ removed⟩
      · exact .inl ⟨fun tracks => absurd tracks untracked, 0, heap, done, sound.keeps, fun _ => rfl⟩
  | free p =>
      rcases myfree_spec sound p with ⟨heap', done, keeps, same⟩
      exact .inl ⟨trivial, 0, heap', bind_eq _ done, keeps, same⟩

theorem Sound.accounts (sound : Sound heap t) : heap.Accounts := by
  refine ⟨t, sound.inMemory.wellFormed, sound.current, ?_, ?_⟩
  · intro value mem
    rcases sound.isMatching.live value mem with ⟨block, isThere, -⟩
    rw [isThere]
    rfl
  · intro ptr block isThere
    exact sound.isMatching.filter_eq sound.inMemory.ordered isThere

end Operations

section Runs

/-- What `current_size` has been in the states of a run. -/
def currentSizes (calls : List Call) : Set Nat :=
  { size | ∃ early late heap, calls = early ++ late ∧
    Machine.run step (some initial) early = some heap ∧
    heap.current_size.toNat = size }

/-- In every state of a run the accounts are right, `max_size` is the maximum of `current_size` so
far, and a call that fails there changes nothing. -/
def Accounted (calls : List Call) : Prop :=
  ∀ front back : List Call, calls = front ++ back →
    ∃ heap, Machine.run step (some initial) front = some heap ∧
    heap.Accounts ∧ IsGreatest (currentSizes front) heap.max_size.toNat ∧
      ∀ call ∈ back.head?, ∀ result heap', call.perform heap = some (result, heap') →
        call.Fails heap result → heap' = heap

theorem currentSizes_snoc {calls : List Call} {call : Call} {heap : Heap}
    (reached : Machine.run step (some initial) (calls ++ [call]) = some heap) :
    currentSizes (calls ++ [call]) = Set.insert heap.current_size.toNat (currentSizes calls) := by
  ext size
  constructor
  · rintro ⟨early, late, heap', split, reached', rfl⟩
    rcases List.eq_nil_or_concat late with rfl | ⟨late, last, rfl⟩
    · rw [List.append_nil] at split
      rw [← split, reached] at reached'
      cases reached'
      exact Set.mem_insert ..
    · rw [List.concat_eq_append, ← List.append_assoc] at split
      exact Set.mem_insert_of_mem _ ⟨early, late, heap', (List.append_inj' split rfl).1,
        reached', rfl⟩
  · rintro (rfl | ⟨early, late, heap', rfl, reached', rfl⟩)
    · exact ⟨calls ++ [call], [], heap, (List.append_nil _).symm, reached, rfl⟩
    · exact ⟨early, late ++ [call], heap', List.append_assoc .., reached', rfl⟩

theorem initial_sound : Sound initial .nil where
  inMemory := inMemory_emptyTree heapIndex
  isMatching := ⟨fun _ mem => absurd mem List.not_mem_nil, fun _ _ isThere => by cases isThere⟩
  current := rfl
  most := Nat.le_refl 0

theorem step_eq_some {call : Call} {heap heap' : Heap} :
    step (some heap) call = some heap' ↔ ∃ result, call.perform heap = some (result, heap') := by
  rw [step, Option.bind_some, Option.map_eq_some_iff]
  constructor
  · rintro ⟨⟨result, after⟩, performed, rfl⟩
    exact ⟨result, performed⟩
  · rintro ⟨result, performed⟩
    exact ⟨(result, heap'), performed, rfl⟩

/-- A careful run. -/
theorem run_spec (calls : List Call)
    (careful : Machine.Guarded step IsCareful (some initial) calls) :
    ∃ heap t, Machine.run step (some initial) calls = some heap ∧ Sound heap t ∧
      IsGreatest (currentSizes calls) heap.max_size.toNat := by
  induction calls using List.reverseRecOn with
  | nil =>
      refine ⟨initial, .nil, rfl, initial_sound, ⟨[], [], initial, rfl, rfl, rfl⟩, ?_⟩
      rintro size ⟨early, late, heap, split, reached, rfl⟩
      rw [(List.append_eq_nil_iff.mp split.symm).1] at reached
      cases reached
      exact Nat.le_refl 0
  | append_singleton calls call ih =>
      rw [Machine.guarded_append] at careful
      rcases ih careful.1 with ⟨heap, t, reached, sound, greatest⟩
      rw [reached] at careful
      have isCareful := careful.2.1 heap rfl
      rcases perform_spec sound call with
        ⟨-, result, heap', performed, ⟨⟨t', sound'⟩, isMax⟩, -⟩ | ⟨careless, -⟩
      · have next : Machine.run step (some initial) (calls ++ [call]) = some heap' := by
          rw [Machine.run_append, reached, Machine.run_cons, Machine.run_nil]
          exact step_eq_some.mpr ⟨result, performed⟩
        refine ⟨heap', t', next, sound', ?_⟩
        rw [currentSizes_snoc next, isMax, max_comm]
        exact greatest.insert _
      · exact absurd isCareful careless

/-- A call after a careful run is careful, or the accounts are wrong then. -/
theorem careful_of_accounts {calls : List Call} {call : Call} {heap : Heap}
    (careful : Machine.Guarded step IsCareful (some initial) calls)
    (reached : Machine.run step (some initial) (calls ++ [call]) = some heap)
    (accounts : heap.Accounts) :
    Machine.Guarded step IsCareful (some initial) (calls ++ [call]) := by
  rcases run_spec calls careful with ⟨before, t, isBefore, sound, -⟩
  rw [Machine.run_append, isBefore, Machine.run_cons, Machine.run_nil] at reached
  rcases step_eq_some.mp reached with ⟨result, performed⟩
  rw [Machine.guarded_append, isBefore]
  refine ⟨careful, fun other isOther => ?_, trivial⟩
  cases isOther
  rcases perform_spec sound call with ⟨isCareful, -⟩ | ⟨-, wrong⟩
  · exact isCareful
  · exact absurd accounts (wrong result heap performed)

/-- The tracker is right in the runs in which every call is careful. -/
theorem accounted_iff_careful (calls : List Call) :
    Accounted calls ↔ Machine.Guarded step IsCareful (some initial) calls := by
  constructor
  · intro accounted
    have fronts (front back : List Call) (split : calls = front ++ back) :
        Machine.Guarded step IsCareful (some initial) front := by
      induction front using List.reverseRecOn generalizing back with
      | nil => trivial
      | append_singleton front call ih =>
          have careful := ih (call :: back)
            (by rw [split, List.append_assoc, List.singleton_append])
          rcases accounted _ back split with ⟨heap, reached, accounts, -⟩
          exact careful_of_accounts careful reached accounts
    exact fronts calls [] (List.append_nil calls).symm
  · rintro careful front back rfl
    rw [Machine.guarded_append] at careful
    rcases run_spec front careful.1 with ⟨heap, t, reached, sound, greatest⟩
    refine ⟨heap, reached, sound.accounts, greatest, ?_⟩
    intro call isNext result heap' performed fails
    rw [reached] at careful
    cases back with
    | nil => cases isNext
    | cons next back =>
        cases isNext
        have isCareful := careful.2.1 heap rfl
        rcases perform_spec sound call with ⟨-, result', after, performed', -, same⟩ | ⟨careless, -⟩
        · cases performed.symm.trans performed'
          exact same fails
        · exact absurd isCareful careless

/-- `MQTTClient.c`. -/
def clientFile : CString :=
  ⟨[77, 81, 84, 84, 67, 108, 105, 101, 110, 116, 46, 99], by simp⟩

/-- A `realloc` that is refused, of the only block. -/
theorem not_accounted_refused :
    ¬Accounted [.malloc ⟨true, true, .only 4096, .onHeap⟩ clientFile 100 16,
      .realloc ⟨.refuse 0, true, .onHeap⟩ clientFile 101 4104 32] := by
  intro accounted
  have isFirst : Machine.Guarded step IsCareful (some initial)
      [.malloc ⟨true, true, .only 4096, .onHeap⟩ clientFile 100 16] := by
    refine ⟨fun heap isInitial => ?_, trivial⟩
    cases isInitial
    exact fun _ _ => ⟨by decide, fun _ => ⟨by decide, NodeMalloc.onHeap_ne_none 0 rfl⟩⟩
  rcases mallocRecord_cases initial_sound ⟨true, true, .only 4096, .onHeap⟩ clientFile 100 16
    (Malloc.only_eq (by decide) (by decide)) with ⟨-, heap, done, -, -, tracks⟩ | ⟨careless, -⟩
  · have first : step (some initial) (.malloc ⟨true, true, .only 4096, .onHeap⟩ clientFile 100 16) =
      some heap :=
      step_eq_some.mpr ⟨4096 + 8, done⟩
    rcases accounted _ [] (List.append_nil _).symm with ⟨heap', reached, accounts, -⟩
    have careful := careful_of_accounts isFirst reached accounts
    rw [Machine.guarded_append, Machine.run_cons, first] at careful
    exact absurd rfl (careful.2.1 heap rfl tracks).1
  · exact absurd ⟨by decide, NodeMalloc.onHeap_ne_none 0 rfl⟩ careless

end Runs

end HeapTracker

end Paho
