import Mathlib.Data.UInt
import Paho.Library.Run
import Paho.Pointers.TreeOperations

/-!
# Runs over a tree

Any calls of the functions of `Tree.c` one after the other, on a tree that is empty at first. The
tree is a map from the keys of the contents.
-/

namespace Paho

open Records RedBlack

namespace Trees

variable {Content Key Order : Type} [LinearOrder Order]

/-- A call. -/
inductive Call (Content Key : Type) where
  | add (malloc : NodeMalloc Content) (content : Content) (size : UInt64)
  | remove (content : Content)
  | removeKey (key : Key)
  | find (key : Key)
  | scan

/-- What a call gives back: a content or NULL, or the contents that a walk visits. -/
inductive Response (Content : Type) where
  | content (content : Option Content)
  | contents (contents : List (Option Content))

/-- A walk through the tree from a node, as that of `HeapScan`. -/
def scanFrom (current : Option Place) : TreeProgram Content (List (Option Content)) := do
  let current ← treeNextElement current
  if current = none then return []
  else
    let node ← load current
    -- `apply` leaves no mark of its place around the call
    let behind ← by apply scanFrom; exact current
    return node.content :: behind
partial_fixpoint

/-- Make a call. -/
def Call.perform (index : Index Content Key Order) : Call Content Key →
    TreeProgram Content (Response Content)
  | .add malloc content size => return .content (← treeAdd malloc index.compare content size)
  | .remove content => return .content (← treeRemove index.compare content)
  | .removeKey key => return .content (← treeRemoveKey index.compareKey key)
  | .find key => do
      let curnode ← treeFind index.compareKey key
      if curnode = none then return .content none
      else return .content (← load curnode).content
  | .scan => return .contents (← scanFrom none)

/-- Make these calls. -/
def perform (index : Index Content Key Order) : List (Call Content Key) →
    TreeProgram Content (List (Response Content))
  | [] => return []
  | call :: calls => do
      let response ← call.perform index
      return response :: (← perform index calls)

/-- The fields of `Tree` for a tree. -/
def varsOf (t : RBTree (Entry Content)) : TreeVars where
  root := pointer t
  count := t.toList.length
  size := (t.toList.map Entry.size).sum
  allow_duplicates := false

/-- The content at the focus. -/
def contentOf : RBTree (Entry Content) → Option Content
  | .nil => none
  | .node _ _ entry _ => some entry.content

/-- The search for what is equal to a content. -/
def Index.seek (index : Index Content Key Order) (content : Content) (t : RBTree (Entry Content)) :
    TreePath (Entry Content) × RBTree (Entry Content) :=
  RedBlack.seek (Entry.compare fun other => index.compare other content) [] t

/-- The search for a key. -/
def Index.seekKey (index : Index Content Key Order) (key : Key) (t : RBTree (Entry Content)) :
    TreePath (Entry Content) × RBTree (Entry Content) :=
  RedBlack.seek (Entry.compare fun other => index.compareKey other key) [] t

/-- What a call does to a tree. -/
def Call.Acts (index : Index Content Key Order) (t : RBTree (Entry Content))
    (response : Response Content) (t' : RBTree (Entry Content)) : Call Content Key → Prop
  | .add malloc content size =>
      (response = .content (some content) ∧ ∃ place,
        ((index.seek content t).2 = .nil →
          ∃ records record, Holds records (nodes none t) ∧ malloc.result records =
          some (place, record)) ∧
        t' = addEntry (fun other => index.compare other content) content size place t) ∨
      ((index.seek content t).2 = .nil ∧
        (∃ records, Holds records (nodes none t) ∧ malloc.result records = none) ∧
        response = .content none ∧ t' = t)
  | .remove content => response = .content (contentOf (index.seek content t).2) ∧
      t' = removeFocus (index.seek content t).1 (index.seek content t).2
  | .removeKey key => response = .content (contentOf (index.seekKey key t).2) ∧
      t' = removeFocus (index.seekKey key t).1 (index.seekKey key t).2
  | .find key => response = .content (contentOf (index.seekKey key t).2) ∧ t' = t
  | .scan => response = .contents (t.toList.map fun entry => some entry.content) ∧ t' = t

section Specification

variable {index : Index Content Key Order} {t : RBTree (Entry Content)}
  {entry : Entry Content} {α : Type} {post : α → Multiset (Place × Node Content) → TreeVars → Prop}

/-- A walk visits the entries in order. -/
theorem scanFrom_spec {continuation : List (Option Content) → TreeProgram Content α}
    {extra : Multiset (Place × Node Content)} {vars : TreeVars} (xs ys : List (Entry Content))
    (split : t.toList = xs ++ ys)
    (continues : RunsOn (continuation (ys.map fun entry => some entry.content)) t extra vars post) :
    RunsOn (scanFrom (xs.getLast?.map Entry.place) >>= continuation) t extra vars post := by
  induction ys generalizing xs continuation with
  | nil =>
      rw [scanFrom]
      simp only [bind_assoc]
      refine treeNextElement_spec split ?_
      exact continues
  | cons entry ys ih =>
      rw [scanFrom]
      simp only [bind_assoc]
      refine treeNextElement_spec split ?_
      rw [List.head?_cons, Option.map_some, if_neg (Option.some_ne_none _)]
      simp only [bind_assoc, pure_bind]
      refine load_entry_spec _ _ split fun node isContent => ?_
      rw [isContent]
      have last : some entry.place = (xs ++ [entry]).getLast?.map Entry.place := by
        rw [List.getLast?_concat]
        rfl
      rw [last]
      refine ih _ (by rw [split, List.append_assoc, List.singleton_append]) ?_
      exact continues

/-- The tree is in memory, and nothing else. -/
def Stands (t : RBTree (Entry Content)) (contents : Multiset (Place × Node Content))
    (vars : TreeVars) : Prop :=
  contents = nodes none t ∧ vars = varsOf t ∧ ∀ entry ∈ t.toList, entry.place ≠ .temp

theorem Stands.runs {program : TreeProgram Content α} {contents : Multiset (Place × Node Content)}
    {vars : TreeVars} (stands : Stands t contents vars)
    (runs : RunsOn program t 0 (varsOf t) post) : Runs program contents vars post := by
  rcases stands with ⟨rfl, rfl, -⟩
  rw [RunsOn, add_zero] at runs
  exact runs

theorem noTemp_of_stands (noTemp : ∀ entry ∈ t.toList, entry.place ≠ .temp) :
    Place.temp ∉ (nodes none t + 0).map Prod.fst := by
  rw [add_zero, places_nodes]
  simpa using noTemp

/-- A new entry. -/
theorem stands_new {content : Content} {size : UInt64} {place : Place}
    {path : TreePath (Entry Content)} {t' : RBTree (Entry Content)}
    (noTemp : ∀ entry ∈ t.toList, entry.place ≠ .temp) (isNew : place ≠ .temp)
    (before_eq : t.toList = before path ++ behind path)
    (after_eq : t'.toList = before path ++ ⟨place, content, size⟩ :: behind path) :
    Stands t' (nodes none t' + 0) { varsOf t with
      count := (varsOf t).count + 1, size := (varsOf t).size + size, root := pointer t' } := by
  refine ⟨add_zero _, ?_, ?_⟩
  · simp only [varsOf, before_eq, after_eq, List.map_append, List.map_cons, List.sum_append,
      List.sum_cons,
      List.length_append, List.length_cons, TreeVars.mk.injEq, true_and, and_true]
    constructor
    · omega
    · grind
  · intro entry mem
    rw [after_eq] at mem
    rw [before_eq] at noTemp
    simp only [List.mem_append, List.mem_cons] at mem noTemp
    rcases mem with mem | rfl | mem
    · exact noTemp entry (.inl mem)
    · exact isNew
    · exact noTemp entry (.inr mem)

/-- An entry holds something else. -/
theorem stands_changed {xs ys : List (Entry Content)} {entry' : Entry Content}
    {t' : RBTree (Entry Content)} (noTemp : ∀ entry ∈ t.toList, entry.place ≠ .temp)
    (samePlace : entry'.place = entry.place) (before_eq : t.toList = xs ++ entry :: ys)
    (after_eq : t'.toList = xs ++ entry' :: ys) :
    Stands t' (nodes none t' + 0) { varsOf t with
      size := (varsOf t).size + (entry'.size - entry.size), root := pointer t' } := by
  refine ⟨add_zero _, ?_, ?_⟩
  · simp only [varsOf, before_eq, after_eq, List.map_append, List.map_cons, List.sum_append,
      List.sum_cons,
      List.length_append, List.length_cons, TreeVars.mk.injEq, true_and, and_true]
    grind
  · intro other mem
    rw [after_eq] at mem
    rw [before_eq] at noTemp
    simp only [List.mem_append, List.mem_cons] at mem noTemp
    rcases mem with mem | rfl | mem
    · exact noTemp other (.inl mem)
    · rw [samePlace]
      exact noTemp entry (.inr (.inl rfl))
    · exact noTemp other (.inr (.inr mem))

/-- An entry is removed. -/
theorem stands_removed {path : TreePath (Entry Content)} {red : Bool}
    {left right : RBTree (Entry Content)}
    (noTemp : ∀ entry' ∈ (plug path (.node red left entry right)).toList, entry'.place ≠ .temp) :
    Stands (removeFocus path (.node red left entry right))
      (nodes none (removeFocus path (.node red left entry right)) + 0)
      { varsOf (plug path (.node red left entry right)) with
        size := (varsOf (plug path (.node red left entry right))).size - entry.size
        count := (varsOf (plug path (.node red left entry right))).count - 1
        root := pointer (removeFocus path (.node red left entry right)) } := by
  rcases toList_removeFocus path red left entry right with
    ⟨entries, after_eq, values, places⟩
  have lengths := congrArg List.length values
  have sizes := congrArg (fun values => (values.map Prod.snd).sum) values
  simp only [List.map_map, List.length_map, List.length_append, List.map_append,
    List.sum_append] at lengths sizes
  have size_eq : (Prod.snd ∘ Entry.value : Entry Content → UInt64) = Entry.size := rfl
  rw [size_eq] at sizes
  refine ⟨add_zero _, ?_, ?_⟩
  · simp only [varsOf, after_eq, toList_plug, RBTree.toList, List.map_append, List.map_cons,
      List.sum_append,
      List.sum_cons, List.length_append, List.length_cons, TreeVars.mk.injEq, true_and, and_true]
    constructor
    · omega
    · grind
  · intro other mem
    rw [after_eq] at mem
    simp only [toList_plug, RBTree.toList, List.mem_append, List.mem_cons] at noTemp mem places
    rcases mem with (mem | mem) | mem
    · exact noTemp other (.inl (.inl mem))
    · rcases places other mem with ⟨other', isThere, samePlace⟩
      rw [← samePlace]
      exact noTemp other' (.inl (.inr isThere))
    · exact noTemp other (.inr mem)

/-- The node that a search finds is removed. -/
theorem removeFound_spec {compare : Content → Int}
    (noTemp : ∀ entry ∈ t.toList, entry.place ≠ .temp) :
    RunsOn (do
      let curnode ← findFrom compare (pointer t)
      let content ← (do
        if curnode = none then return none
        else treeRemoveNode curnode)
      return Response.content content) t 0 (varsOf t) fun response contents' vars' =>
      ∃ t', Stands t' contents' vars' ∧
        response = .content (contentOf (RedBlack.seek (Entry.compare compare) [] t).2) ∧
        t' = removeFocus (RedBlack.seek (Entry.compare compare) [] t).1
          (RedBlack.seek (Entry.compare compare) [] t).2 := by
  have plugged := plug_seek (Entry.compare compare) [] t
  refine findFrom_spec [] ?_
  rcases found : RedBlack.seek (Entry.compare compare) [] t with ⟨path, focus⟩
  rw [found] at plugged
  cases focus with
  | nil =>
      rw [pointer, if_pos rfl, pure_bind]
      exact Runs.pure ⟨t, ⟨add_zero _, rfl, noTemp⟩, rfl, plugged.symm⟩
  | node red left entry right =>
      have focused : t = plug path (.node red left entry right) := plugged.symm
      subst focused
      rw [pointer, if_neg (Option.some_ne_none _)]
      refine treeRemoveNode_spec path (noTemp_of_stands noTemp) ?_
      exact Runs.pure ⟨_, stands_removed noTemp, rfl, rfl⟩

/-- Any call. -/
theorem Call.perform_spec (index : Index Content Key Order) (call : Call Content Key)
    {contents : Multiset (Place × Node Content)} {vars : TreeVars}
    (stands : Stands t contents vars) :
    Runs (call.perform index) contents vars fun response contents' vars' =>
      ∃ t', Stands t' contents' vars' ∧ call.Acts index t response t' := by
  have noTemp := stands.2.2
  refine stands.runs ?_
  cases call with
  | add malloc content size =>
      rw [Call.perform]
      rcases found : index.seek content t with ⟨path, focus⟩
      cases focus with
      | nil =>
          refine treeAdd_new found (fun failed => ?_) fun place _ isHeap outcome => ?_
          · rw [add_zero] at failed
            refine Runs.pure ⟨t, ⟨add_zero _, rfl, noTemp⟩, .inr ⟨?_, failed, rfl, rfl⟩⟩
            rw [found]
          · refine Runs.pure ⟨_, stands_new noTemp isHeap ?_ (toList_addEntry_new found),
              .inl ⟨rfl, place, ?_, rfl⟩⟩
            · have split := toList_of_seek found
              rwa [RBTree.toList, List.append_nil] at split
            · intro _
              rwa [add_zero] at outcome
      | node red left entry right =>
          have split := toList_of_seek found
          have before_eq : t.toList = (before path ++ left.toList) ++
            entry :: (right.toList ++ behind path) := by
            rw [split]
            simp [RBTree.toList]
          have after_eq : (addEntry (fun other => index.compare other content) content size
            entry.place t).toList =
              (before path ++ left.toList) ++ ⟨entry.place, content, size⟩ ::
                (right.toList ++ behind path) := by
            rw [toList_addEntry_found found]
            simp
          have stands' := stands_changed noTemp
            (show (⟨entry.place, content, size⟩ : Entry Content).place = entry.place
            from rfl) before_eq after_eq
          refine treeAdd_found found rfl ?_
          refine Runs.pure ⟨_, stands', .inl ⟨rfl, entry.place, ?_, rfl⟩⟩
          rw [found]
          intro none
          cases none
  | remove content =>
      rw [Call.perform, treeRemove]
      simp only [bind_assoc]
      exact look_spec (removeFound_spec noTemp)
  | removeKey key =>
      rw [Call.perform, treeRemoveKey, treeFind]
      simp only [bind_assoc]
      exact look_spec (removeFound_spec noTemp)
  | find key =>
      rw [Call.perform, treeFind]
      simp only [bind_assoc]
      refine look_spec (findFrom_spec [] ?_)
      rcases found : index.seekKey key t with ⟨path, focus⟩
      rw [Index.seekKey] at found
      rw [found]
      cases focus with
      | nil => exact Runs.pure ⟨t, ⟨add_zero _, rfl, noTemp⟩, by rw [Index.seekKey, found]; rfl,
          rfl⟩
      | node red left entry right =>
          have split := toList_of_seek found
          rw [pointer, if_neg (Option.some_ne_none _)]
          refine load_entry_spec (before path ++ left.toList) (right.toList ++ behind path)
            (by rw [plug, split]; simp [RBTree.toList]) fun node isContent => ?_
          rw [isContent]
          exact Runs.pure ⟨t, ⟨add_zero _, rfl, noTemp⟩, by rw [Index.seekKey, found]; rfl, rfl⟩
  | scan =>
      rw [Call.perform]
      refine scanFrom_spec [] _ (List.nil_append _).symm ?_
      exact Runs.pure ⟨t, ⟨add_zero _, rfl, noTemp⟩, rfl, rfl⟩

/-- Any calls. -/
theorem perform_spec (index : Index Content Key Order) (calls : List (Call Content Key))
    {contents : Multiset (Place × Node Content)} {vars : TreeVars}
    (stands : Stands t contents vars) :
    Runs (perform index calls) contents vars fun responses contents' vars' =>
      ∃ t', Stands t' contents' vars' ∧
        Machine.Trace (fun t call response t' => call.Acts index t response t') t
        calls responses t' := by
  induction calls generalizing t contents vars with
  | nil => exact Runs.pure ⟨t, stands, .nil t⟩
  | cons call calls ih =>
      refine Runs.bind _ (call.perform_spec index stands) ?_
      rintro response contents' vars' ⟨t', after, acts⟩
      refine Runs.bind _ (ih after) ?_
      rintro responses contents'' vars'' ⟨t'', after', trace⟩
      exact Runs.pure ⟨t'', after', .cons acts trace⟩

end Specification

/-- A tree in memory, where nothing else is. -/
structure WellFormed (index : Index Content Key Order)
    (memory : Memory Place (Node Content) TreeVars) (t : RBTree (Entry Content)) : Prop where
  nodup : (t.toList.map Entry.place).Nodup
  node : ∀ path red left entry right, t = plug path (.node red left entry right) →
    memory.records entry.place =
    some ⟨parentOf path, pointer left, pointer right, some entry.content, entry.size, red⟩
  no_other : ∀ place ∉ t.toList.map Entry.place, memory.records place = none
  ordered : (t.toList.map fun entry => index.order entry.content).Pairwise (· < ·)
  root : memory.vars.root = pointer t
  count : memory.vars.count = t.toList.length
  size : memory.vars.size = (t.toList.map Entry.size).sum

section WellFormed

variable {index : Index Content Key Order} {t : RBTree (Entry Content)}
  {memory : Memory Place (Node Content) TreeVars}

/-- Every node of memory is one of the tree. -/
theorem WellFormed.exists_focus (wellFormed : WellFormed index memory t) {place : Place}
    {node : Node Content} (isThere : memory.records place = some node) :
    ∃ path red left entry right,
      t = plug path (.node red left entry right) ∧ entry.place = place ∧
        node = ⟨parentOf path, pointer left, pointer right, some entry.content,
          entry.size, red⟩ := by
  have mem : place ∈ t.toList.map Entry.place := by
    by_contra absent
    rw [wellFormed.no_other place absent] at isThere
    cases isThere
  rcases List.mem_map.mp mem with ⟨entry, inTree, rfl⟩
  rcases List.append_of_mem inTree with ⟨xs, ys, split⟩
  rcases RedBlack.exists_focus split with ⟨path, red, left, right, focus, -, -⟩
  refine ⟨path, red, left, entry, right, focus, rfl, ?_⟩
  rw [wellFormed.node path red left entry right focus] at isThere
  exact (Option.some.inj isThere).symm

/-- `child` and `parent` are inverse to each other. -/
theorem WellFormed.inverse (wellFormed : WellFormed index memory t) {a b : Place}
    {x y : Node Content} (isAbove : memory.records a = some x)
    (isBelow : memory.records b = some y) : (∃ side, x.child side = some b) ↔
    y.parent = some a := by
  constructor
  · rintro ⟨side, isChild⟩
    rcases wellFormed.exists_focus isAbove with ⟨path, red, left, entry, right, focus, rfl, rfl⟩
    have below (f : Frame (Entry Content)) (child : RBTree (Entry Content))
      (refocus : t = plug (f :: path) child)
        (isPointer : pointer child = some b) : y.parent = some f.value.place := by
      rcases child with _ | ⟨red', left', entry', right'⟩
      · cases isPointer
      · cases isPointer
        rw [wellFormed.node (f :: path) red' left' entry' right' refocus] at isBelow
        exact (congrArg Node.parent (Option.some.inj isBelow)).symm
    cases side with
    | false => exact below ⟨red, entry, false, right⟩ left focus isChild
    | true => exact below ⟨red, entry, true, left⟩ right focus isChild
  · intro isParent
    rcases wellFormed.exists_focus isBelow with ⟨path, red, left, entry, right, focus, rfl, rfl⟩
    rcases path with _ | ⟨⟨red', value, side, sibling⟩, path⟩
    · cases isParent
    · cases isParent
      refine ⟨side, ?_⟩
      cases side with
      | false =>
          rw [wellFormed.node path red' _ value sibling focus] at isAbove
          cases isAbove
          rfl
      | true =>
          rw [wellFormed.node path red' sibling value _ focus] at isAbove
          cases isAbove
          rfl

theorem wellFormed_of_stands {records : Place → Option (Node Content)}
    {contents : Multiset (Place × Node Content)} {vars : TreeVars} (holds : Holds records contents)
    (stands : Stands t contents vars)
    (ordered : Ordered (fun entry : Entry Content => index.order entry.content) t.toList) :
    WellFormed index ⟨records, vars⟩ t := by
  rcases stands with ⟨rfl, rfl, -⟩
  refine ⟨?_, ?_, ?_, ordered, rfl, rfl, rfl⟩
  · have nodup := holds.nodup
    rwa [places_nodes, Multiset.coe_nodup] at nodup
  · rintro path red left entry right rfl
    have mem : (entry.place, entry.node false (parentOf path) (pointer left) (pointer right) red) ∈
        nodes none (plug path (.node red left entry right)) := by
      rw [nodes_plug, nodes]
      simp
    exact holds.read mem
  · intro place absent
    rw [Option.eq_none_iff_forall_not_mem]
    intro node mem
    refine absent ?_
    have isThere := Holds.mem_map_of_mem ((holds.eq_some_iff place node).mp mem)
    rwa [places_nodes, Multiset.mem_coe] at isThere

end WellFormed

end Trees

end Paho
