import Paho.Pointers.TreeMap

/-!
# What a tree holds

The functions of `Tree.c` on a tree in memory, as what they do to the contents in their order.
-/

namespace Paho

open Records RedBlack

namespace Trees

variable {Content Key Order : Type} [LinearOrder Order]

/-- The contents in order, with their sizes. -/
def valuesOf (t : RBTree (Entry Content)) : List (Content × UInt64) :=
  t.toList.map Entry.value

open Classical in
/-- `malloc` with the whole heap to give. -/
noncomputable def NodeMalloc.onHeap : NodeMalloc Content where
  result records :=
    if isFree : ∃ addr, records (.heap addr) = none then
      some (.heap isFree.choose, ⟨none, none, none, none, 0, false⟩)
    else none
  fresh records addr record isResult := by
    split at isResult
    case isTrue isFree =>
      cases isResult
      exact isFree.choose_spec
    case isFalse => cases isResult
  on_heap records record isResult := by
    split at isResult
    case isTrue => cases isResult
    case isFalse => cases isResult

theorem NodeMalloc.onHeap_ne_none {records : Place → Option (Node Content)} (addr : Nat)
    (isFree : records (.heap addr) = none) : onHeap.result records ≠ none := by
  intro isNone
  rw [onHeap] at isNone
  dsimp only at isNone
  split at isNone
  case isTrue => cases isNone
  case isFalse none => exact none ⟨addr, isFree⟩

variable {index : Index Content Key Order} {memory memory' : Memory Place (Node Content) TreeVars}
  {t t' : RBTree (Entry Content)} {content : Content} {key : Key}

namespace InMemory

theorem ordered (inMemory : InMemory index memory t) : Ordered index.keyOf (valuesOf t) := by
  rcases inMemory.isMap with ⟨map, isMap⟩
  exact isMap.ordered

/-- There is one memory for a tree. -/
theorem unique (inMemory : InMemory index memory t) (inMemory' : InMemory index memory' t) :
    memory' = memory := by
  rcases memory with ⟨records, vars⟩
  rcases memory' with ⟨records', vars'⟩
  have sameVars : vars' = vars := inMemory'.stands.2.1.trans inMemory.stands.2.1.symm
  have sameRecords : records' = records := by
    funext place
    refine Option.ext fun node => ?_
    exact (inMemory'.holds.eq_some_iff place node).trans
      (inMemory.holds.eq_some_iff place node).symm
  rw [sameVars, sameRecords]

/-- The search for a key: it is there in the middle, or it is not there. -/
theorem seekKey_cases (inMemory : InMemory index memory t) (key : Key) :
    (∃ path red left entry right, index.seekKey key t = (path, .node red left entry right) ∧
      index.order entry.content = index.orderKey key ∧
        t.toList = (before path ++ left.toList) ++ entry :: (right.toList ++ behind path)) ∨
      ∃ path, index.seekKey key t = (path, .nil) ∧ ∀ value ∈ valuesOf t, index.keyOf value ≠
      index.orderKey key := by
  rcases inMemory.isMap with ⟨map, isMap⟩
  rcases seek_cases isMap (index.comparesKey key) with found | ⟨path, found, split, smaller, larger⟩
  · exact .inl found
  · refine .inr ⟨path, found, fun value mem same => ?_⟩
    rw [valuesOf, split, List.map_append, List.mem_append] at mem
    rcases mem with mem | mem
    · rcases List.mem_map.mp mem with ⟨entry, isThere, rfl⟩
      exact (smaller entry isThere).ne same
    · rcases List.mem_map.mp mem with ⟨entry, isThere, rfl⟩
      exact (larger entry isThere).ne' same

/-- `TreeRemoveKey`. -/
theorem removeKey (inMemory : InMemory index memory t) (key : Key) :
    (∃ memory' t' xs content size ys,
      treeRemoveKey index.compareKey key memory = some (some content, memory') ∧
      InMemory index memory' t' ∧
        valuesOf t = xs ++ (content, size) :: ys ∧ valuesOf t' = xs ++ ys ∧
          index.order content = index.orderKey key) ∨
      treeRemoveKey index.compareKey key memory = some (none, memory) ∧
        ∀ value ∈ valuesOf t, index.keyOf value ≠ index.orderKey key := by
  rcases inMemory.call (.removeKey key) with ⟨response, memory', t', done, inMemory',
    isResponse, isTree⟩
  rw [Call.perform] at done
  rcases Option.bind_eq_some_iff.mp done with ⟨⟨removed, memory''⟩, isRemoved, isDone⟩
  cases isDone
  rcases inMemory.seekKey_cases key with ⟨path, red, left, entry, right, found, isKey, split⟩
    | ⟨path, found, absent⟩
  · left
    rw [found] at isResponse isTree
    cases isResponse
    rcases toList_removeFocus path red left entry right with ⟨entries, after, values, -⟩
    refine ⟨memory', t', (before path ++ left.toList).map Entry.value, entry.content, entry.size,
      (right.toList ++ behind path).map Entry.value, isRemoved, inMemory', ?_, ?_, isKey⟩
    · rw [valuesOf, split, List.map_append, List.map_cons]
      rfl
    · rw [valuesOf, isTree, after, List.map_append, List.map_append, values]
      simp
  · right
    rw [found] at isResponse isTree
    cases isResponse
    have same : t' = t := by
      have plugged := plug_seek (Entry.compare fun other => index.compareKey other key) [] t
      rw [show seek (Entry.compare fun other => index.compareKey other key) [] t =
        index.seekKey key t from rfl,
        found] at plugged
      exact isTree.trans plugged
    subst same
    rw [inMemory.unique inMemory'] at isRemoved
    exact ⟨isRemoved, absent⟩

/-- `TreeFind` with what follows it for a node: `TreeRemoveNodeIndex` does what `TreeRemoveKey`
does. -/
theorem find (inMemory : InMemory index memory t) (key : Key) :
    (∃ place node content size, treeFind index.compareKey key memory = some (some place, memory) ∧
      memory.records place = some node ∧ node.content = some content ∧
      (content, size) ∈ valuesOf t ∧
        index.order content = index.orderKey key ∧
        treeRemoveNode (some place) memory = treeRemoveKey index.compareKey key memory) ∨
      treeFind index.compareKey key memory = some (none, memory) ∧
        ∀ value ∈ valuesOf t, index.keyOf value ≠ index.orderKey key := by
  have finds : RunsOn (treeFind index.compareKey key >>= pure) t 0 (varsOf t) fun place
    contents' vars' =>
      place = pointer (index.seekKey key t).2 ∧ contents' = nodes none t ∧ vars' = varsOf t := by
    rw [treeFind]
    simp only [bind_assoc]
    exact look_spec (findFrom_spec [] (Runs.pure ⟨rfl, add_zero _, rfl⟩))
  rw [bind_pure] at finds
  rcases inMemory.stands.runs finds memory.records inMemory.holds with
    ⟨place, records', contents', vars', done, holds', rfl, rfl, rfl⟩
  have same : (⟨records', varsOf t⟩ : Memory Place (Node Content) TreeVars) = memory :=
    inMemory.unique ⟨holds', ⟨rfl, rfl, inMemory.stands.2.2⟩, inMemory.isMap⟩
  rw [same] at done
  rcases inMemory.seekKey_cases key with ⟨path, red, left, entry, right, found, isKey, split⟩
    | ⟨path, found, absent⟩
  · left
    rw [found] at done
    have node : memory.records entry.place =
        some ⟨parentOf path, pointer left, pointer right, some entry.content, entry.size, red⟩ := by
      refine inMemory.wellFormed.node path red left entry right ?_
      have plugged := plug_seek (Entry.compare fun other => index.compareKey other key) [] t
      rw [show seek (Entry.compare fun other => index.compareKey other key) [] t =
        index.seekKey key t from rfl,
        found] at plugged
      exact plugged.symm
    refine ⟨entry.place, _, entry.content, entry.size, done, node, rfl, ?_, isKey, ?_⟩
    · refine List.mem_map.mpr ⟨entry, ?_, rfl⟩
      rw [split]
      simp
    · rw [treeRemoveKey]
      refine Eq.symm ((congrArg (Option.bind · _) done).trans ?_)
      dsimp only [Option.bind_some, pointer]
      rw [if_neg (Option.some_ne_none _)]
  · right
    rw [found] at done
    exact ⟨done, absent⟩

/-- `TreeAdd` of a new content: it is there, or there is no storage for its node. -/
theorem add (inMemory : InMemory index memory t) (malloc : NodeMalloc Content) (size : UInt64)
    (absent : ∀ value ∈ valuesOf t, index.keyOf value ≠ index.order content) :
    (malloc.result memory.records ≠ none ∧ ∃ memory' t' xs ys,
      treeAdd malloc index.compare content size memory = some (some content, memory') ∧
      InMemory index memory' t' ∧
        valuesOf t = xs ++ ys ∧ valuesOf t' = xs ++ (content, size) :: ys) ∨
      malloc.result memory.records = none ∧
        treeAdd malloc index.compare content size memory = some (none, memory) := by
  rcases inMemory.isMap with ⟨map, isMap⟩
  have isNew : ∃ path, index.seek content t = (path, .nil) ∧ t.toList =
    before path ++ behind path := by
    rcases seek_cases isMap (index.compares content) with ⟨path, red, left, entry, right, found,
      isKey, split⟩ |
      ⟨path, found, split, -, -⟩
    · have mem : entry.value ∈ valuesOf t := by
        refine List.mem_map.mpr ⟨entry, ?_, rfl⟩
        rw [split]
        simp
      exact absurd isKey (absent entry.value mem)
    · exact ⟨path, found, split⟩
  rcases isNew with ⟨path, found, split⟩
  have same {records : Place → Option (Node Content)} (holds : Holds records (nodes none t)) :
      records = memory.records := by
    have stands : InMemory index ⟨records, memory.vars⟩ t :=
      ⟨holds, inMemory.stands, inMemory.isMap⟩
    exact congrArg Memory.records (inMemory.unique stands)
  rcases inMemory.call (.add malloc content size) with
    ⟨response, memory', t', done, inMemory', acts⟩
  rw [Call.perform] at done
  rcases Option.bind_eq_some_iff.mp done with ⟨⟨added, memory''⟩, isAdded, isDone⟩
  cases isDone
  rcases acts with ⟨isContent, place, gives, rfl⟩ | ⟨-, ⟨records, holds, refused⟩, isNone, rfl⟩
  · cases isContent
    rcases gives (congrArg Prod.snd found) with ⟨records, record, holds, gives⟩
    rw [same holds] at gives
    refine .inl ⟨gives ▸ Option.some_ne_none _, memory', _, (before path).map Entry.value,
      (behind path).map Entry.value, isAdded, inMemory', ?_, ?_⟩
    · rw [valuesOf, split, List.map_append]
    · rw [valuesOf, toList_addEntry_new found, List.map_append, List.map_cons]
      rfl
  · cases isNone
    rw [same holds] at refused
    rw [inMemory.unique inMemory'] at isAdded
    exact .inr ⟨refused, isAdded⟩

end InMemory

end Trees

end Paho
