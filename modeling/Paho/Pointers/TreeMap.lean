import Paho.Library.OrderedTable
import Paho.Pointers.TreeRuns

/-!
# A tree is a map

What a call does is what it does to the map from the keys to the contents and their sizes.
-/

namespace Paho

open Records RedBlack

namespace Trees

variable {Content Key Order : Type} [LinearOrder Order]

/-- The key of a content with its size. -/
def Index.keyOf (index : Index Content Key Order) (value : Content × UInt64) : Order :=
  index.order value.1

@[simp]
theorem Index.keyOf_value (index : Index Content Key Order) (entry : Entry Content) :
    index.keyOf entry.value = index.order entry.content :=
  rfl

@[simp]
theorem Index.keyOf_mk (index : Index Content Key Order) (content : Content) (size : UInt64) :
    index.keyOf (content, size) = index.order content :=
  rfl

@[simp]
theorem Entry.value_mk (place : Place) (content : Content) (size : UInt64) :
    Entry.value ⟨place, content, size⟩ = (content, size) :=
  rfl

/-- The map that a tree stands for. -/
def IsMap (index : Index Content Key Order) (t : RBTree (Entry Content))
    (map : Order → Option (Content × UInt64)) :
    Prop :=
  Tabulates index.keyOf (t.toList.map Entry.value) map

/-- What a call does to the map. Only a call of `TreeAdd` with a new key may fail. -/
def Call.Does (index : Index Content Key Order) (map : Order → Option (Content × UInt64))
    (response : Response Content) (map' : Order → Option (Content × UInt64)) :
    Call Content Key → Prop
  | .add malloc content size =>
      (response = .content (some content) ∧
        map' = Function.update map (index.order content) (some (content, size))) ∨
      (map (index.order content) = none ∧ (∃ records, malloc.result records = none) ∧
        response = .content none ∧ map' = map)
  | .remove content => response = .content ((map (index.order content)).map Prod.fst) ∧
      map' = Function.update map (index.order content) none
  | .removeKey key => response = .content ((map (index.orderKey key)).map Prod.fst) ∧
      map' = Function.update map (index.orderKey key) none
  | .find key => response = .content ((map (index.orderKey key)).map Prod.fst) ∧ map' = map
  | .scan => map' = map ∧ ∃ values, Tabulates index.keyOf values map ∧
      response = .contents (values.map fun value => some value.1)

section Refinement

variable {index : Index Content Key Order} {t t' : RBTree (Entry Content)}
  {response : Response Content} {map : Order → Option (Content × UInt64)}

/-- The outcome of a search in a tree that stands for a map. -/
theorem seek_cases {compare : Content → Int} {k : Order} (isMap : IsMap index t map)
    (compares : ∀ content, (0 < compare content ↔ index.order content < k) ∧
      (compare content = 0 ↔ index.order content = k)) :
    (∃ path red left entry right,
      seek (Entry.compare compare) [] t = (path, .node red left entry right) ∧
      index.order entry.content = k ∧
        t.toList = (before path ++ left.toList) ++ entry :: (right.toList ++ behind path)) ∨
      ∃ path, seek (Entry.compare compare)
      [] t = (path, .nil) ∧ t.toList = before path ++ behind path ∧
        (∀ entry ∈ before path, index.order entry.content < k) ∧
        ∀ entry ∈ behind path, k < index.order entry.content := by
  have ordered : Ordered (fun entry : Entry Content => index.order entry.content)
    (plug [] t).toList := by
    have ordered := isMap.ordered
    rw [Ordered, List.map_map] at ordered
    exact ordered
  have isComparison : Compares (fun entry : Entry Content => index.order entry.content) k
    (Entry.compare compare) :=
    fun entry => compares entry.content
  have found := seek_spec [] isComparison ordered (by simp [before]) (by simp [behind])
  rcases result : seek (Entry.compare compare) [] t with ⟨path, focus⟩
  have split := toList_of_seek result
  rw [result] at found
  rcases found with ⟨red, left, entry, right, rfl, isKey⟩ | ⟨rfl, smaller, larger⟩
  · refine .inl ⟨path, red, left, entry, right, rfl, isKey, ?_⟩
    rw [split]
    simp [RBTree.toList]
  · refine .inr ⟨path, rfl, ?_, smaller, larger⟩
    rw [split]
    simp [RBTree.toList]

/-- What a search finds is what the map has. -/
theorem contentOf_seek {compare : Content → Int} {k : Order} (isMap : IsMap index t map)
    (compares : ∀ content, (0 < compare content ↔ index.order content < k) ∧
      (compare content = 0 ↔ index.order content = k)) :
    contentOf (seek (Entry.compare compare) [] t).2 = (map k).map Prod.fst := by
  rcases seek_cases isMap compares with ⟨path, red, left, entry, right, found, isKey, split⟩ |
    ⟨path, found, split, smaller, larger⟩
  · have mem : entry.value ∈ t.toList.map Entry.value := List.mem_map_of_mem (by rw [split]; simp)
    have lookup := isMap.lookup mem
    have same : index.keyOf entry.value = k := isKey
    rw [same] at lookup
    rw [found, lookup]
    rfl
  · rw [IsMap, split, List.map_append] at isMap
    rw [found, isMap.lookup_none (by simpa using smaller) (by simpa using larger)]
    rfl

/-- After a removal, the map does not have the key. -/
theorem isMap_removeFocus {compare : Content → Int} {k : Order} (isMap : IsMap index t map)
    (compares : ∀ content, (0 < compare content ↔ index.order content < k) ∧
      (compare content = 0 ↔ index.order content = k)) :
    IsMap index (removeFocus (seek (Entry.compare compare) [] t).1
      (seek (Entry.compare compare) [] t).2)
      (Function.update map k none) := by
  have plugged := plug_seek (Entry.compare compare) [] t
  rcases seek_cases isMap compares with ⟨path, red, left, entry, right, found, isKey, split⟩ |
    ⟨path, found, split, smaller, larger⟩
  · rcases toList_removeFocus path red left entry right with
      ⟨entries, after, values, -⟩
    rw [IsMap, split, List.map_append, List.map_cons] at isMap
    have erased := isMap.erase.1
    have same : index.keyOf entry.value = k := isKey
    rw [same] at erased
    rw [found, IsMap, after, List.map_append, List.map_append, values]
    simpa using erased
  · have missing : map k = none := by
      have isMap := isMap
      rw [IsMap, split, List.map_append] at isMap
      exact isMap.lookup_none (by simpa using smaller) (by simpa using larger)
    rw [found] at plugged ⊢
    rw [show removeFocus path .nil = t from plugged, Function.update_eq_self_iff.mpr missing.symm]
    exact isMap

theorem Index.compares (index : Index Content Key Order) (content other : Content) :
    (0 < index.compare other content ↔ index.order other < index.order content) ∧
      (index.compare other content = 0 ↔ index.order other = index.order content) :=
  ⟨index.compare_pos other content, index.compare_eq_zero other content⟩

theorem Index.comparesKey (index : Index Content Key Order) (key : Key) (other : Content) :
    (0 < index.compareKey other key ↔ index.order other < index.orderKey key) ∧
      (index.compareKey other key = 0 ↔ index.order other = index.orderKey key) :=
  ⟨index.compareKey_pos other key, index.compareKey_eq_zero other key⟩

/-- After `TreeAdd`, the map has the content. -/
theorem isMap_addEntry {content : Content} {size : UInt64} {place : Place}
    (isMap : IsMap index t map) :
    IsMap index (addEntry (fun other => index.compare other content) content size place t)
      (Function.update map (index.order content) (some (content, size))) := by
  rcases seek_cases isMap (index.compares content) with ⟨path, red, left, entry, right, found,
    isKey, split⟩ |
    ⟨path, found, split, smaller, larger⟩
  · rw [IsMap, split, List.map_append, List.map_cons] at isMap
    have exchanged := isMap.exchange (content, size) isKey.symm
    rw [IsMap, toList_addEntry_found found]
    simpa using exchanged
  · rw [IsMap, split, List.map_append] at isMap
    have inserted := isMap.insert (content, size) (by simpa using smaller) (by simpa using larger)
    rw [IsMap, toList_addEntry_new found]
    simpa using inserted

/-- What a call does to a tree is what it does to the map. -/
theorem Call.Acts.does {call : Call Content Key} (isMap : IsMap index t map)
    (acts : call.Acts index t response t') :
    ∃ map', call.Does index map response map' ∧ IsMap index t' map' := by
  cases call with
  | add malloc content size =>
      rcases acts with ⟨isResponse, place, -, rfl⟩ | ⟨absent, failed, isResponse, rfl⟩
      · exact ⟨_, .inl ⟨isResponse, rfl⟩, isMap_addEntry isMap⟩
      · have missing := contentOf_seek isMap (index.compares content)
        rw [show seek (Entry.compare fun other => index.compare other content) [] t' =
          index.seek content t' from rfl,
          absent] at missing
        have refused : ∃ records, malloc.result records = none :=
          failed.imp fun _ failed => failed.2
        exact ⟨map, .inr ⟨Option.map_eq_none_iff.mp missing.symm, refused, isResponse, rfl⟩, isMap⟩
  | remove content =>
      have found := contentOf_seek isMap (index.compares content)
      exact ⟨_, ⟨acts.1.trans (congrArg _ found), rfl⟩,
        acts.2 ▸ isMap_removeFocus isMap (index.compares content)⟩
  | removeKey key =>
      have found := contentOf_seek isMap (index.comparesKey key)
      exact ⟨_, ⟨acts.1.trans (congrArg _ found), rfl⟩,
        acts.2 ▸ isMap_removeFocus isMap (index.comparesKey key)⟩
  | find key =>
      have found := contentOf_seek isMap (index.comparesKey key)
      exact ⟨_, ⟨acts.1.trans (congrArg _ found), rfl⟩, acts.2 ▸ isMap⟩
  | scan => exact ⟨map, ⟨rfl, _, isMap, by rw [acts.1, List.map_map]; rfl⟩, acts.2 ▸ isMap⟩

end Refinement

theorem stands_empty : Stands (.nil : RBTree (Entry Content)) 0 treeInitialize :=
  ⟨rfl, rfl, fun _ mem => by cases mem⟩

section InMemory

/-- A tree in memory that stands for a map. -/
structure InMemory (index : Index Content Key Order) (memory : Memory Place (Node Content) TreeVars)
    (t : RBTree (Entry Content)) : Prop where
  holds : Holds memory.records (nodes none t)
  stands : Stands t (nodes none t) memory.vars
  isMap : ∃ map, IsMap index t map

variable {index : Index Content Key Order} {memory : Memory Place (Node Content) TreeVars}
  {t : RBTree (Entry Content)}

theorem perform_cons {call : Call Content Key} {calls : List (Call Content Key)}
    {response : Response Content} {memory' : Memory Place (Node Content) TreeVars}
    (isNext : call.perform index memory = some (response, memory')) :
    perform index (call :: calls) memory =
      (perform index calls memory').map fun result => (response :: result.1, result.2) := by
  refine (congrArg (Option.bind · _) isNext).trans ?_
  change (perform index calls memory').bind
    (fun result => some (response :: result.1, result.2)) = _
  rw [Option.map_eq_bind]
  rfl

/-- The memory of an empty tree. -/
def emptyTree : Memory Place (Node Content) TreeVars :=
  ⟨fun _ => none, treeInitialize⟩

theorem inMemory_emptyTree (index : Index Content Key Order) : InMemory index emptyTree .nil :=
  ⟨Holds.empty, stands_empty, _, Tabulates.empty⟩

namespace InMemory

theorem wellFormed (inMemory : InMemory index memory t) : WellFormed index memory t := by
  rcases inMemory.isMap with ⟨map, isMap⟩
  have ordered := isMap.ordered
  rw [Ordered, List.map_map] at ordered
  exact wellFormed_of_stands inMemory.holds inMemory.stands ordered

/-- A call has a result, and a tree is in memory then. -/
theorem call (inMemory : InMemory index memory t) (call : Call Content Key) :
    ∃ response memory' t', call.perform index memory = some (response, memory') ∧
      InMemory index memory' t' ∧
      call.Acts index t response t' := by
  rcases call.perform_spec index inMemory.stands memory.records inMemory.holds with
    ⟨response, records, contents, vars, done, holds, t', stands, acts⟩
  rcases inMemory.isMap with ⟨map, isMap⟩
  rcases acts.does isMap with ⟨map', -, isMap'⟩
  have same := stands.1
  subst same
  exact ⟨response, ⟨records, vars⟩, t', done, ⟨holds, stands, map', isMap'⟩, acts⟩

/-- So do calls. -/
theorem calls (inMemory : InMemory index memory t) (calls : List (Call Content Key)) :
    ∃ responses memory' t', perform index calls memory = some (responses, memory') ∧
      InMemory index memory' t' ∧
      Machine.Trace (fun t call response t' => call.Acts index t response t') t
      calls responses t' := by
  induction calls generalizing memory t with
  | nil => exact ⟨[], memory, t, rfl, inMemory, .nil t⟩
  | cons call calls ih =>
      rcases inMemory.call call with ⟨response, memory', t', isNext, inMemory', acts⟩
      rcases ih inMemory' with ⟨responses, memory'', t'', isDone, inMemory'', trace⟩
      refine ⟨response :: responses, memory'', t'', ?_, inMemory'', .cons acts trace⟩
      rw [perform_cons isNext, isDone]
      rfl

end InMemory

end InMemory

/-- A tree is a map after any calls: the responses are those of the map, the contents, the count and
the total size are those of the map, and the nodes are those of an ordered tree. -/
theorem perform_isMap (index : Index Content Key Order) (calls : List (Call Content Key)) :
    ∃ responses memory t map, perform index calls ⟨fun _ => none, treeInitialize⟩ =
      some (responses, memory) ∧
      Machine.Trace (fun map call response map' => call.Does index map response map')
      (fun _ => none) calls responses map ∧
      WellFormed index memory t ∧
      (∀ a x b y, memory.records a = some x → memory.records b = some y →
        ((∃ side, x.child side = some b) ↔ y.parent = some a)) ∧
      ∀ k content size, map k = some (content, size) ↔
        index.order content = k ∧ ∃ entry ∈ t.toList, entry.content = content ∧
        entry.size = size := by
  rcases perform_spec index calls stands_empty _ Holds.empty with
    ⟨responses, records, contents, vars, done, holds, t, stands, trace⟩
  have isMap : IsMap index .nil fun _ => none := Tabulates.empty
  rcases trace.simulates (fun t map call response t' isMap acts => acts.does isMap) isMap with
    ⟨map, trace', isMap'⟩
  have ordered := isMap'.ordered
  rw [Ordered, List.map_map] at ordered
  have wellFormed := wellFormed_of_stands holds stands ordered
  refine ⟨responses, _, t, map, done, trace', wellFormed, fun _ _ _ _ => wellFormed.inverse,
    fun k content size => ?_⟩
  rw [isMap'.eq_some_iff, List.mem_map]
  simp only [Entry.value, Prod.mk.injEq, Index.keyOf_mk]

end Trees

end Paho
