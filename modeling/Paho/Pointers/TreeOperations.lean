import Paho.Library.TreeSearch
import Paho.Pointers.TreeBalancing

/-!
# The operations of a tree in memory

What `Tree.c` adds, finds, visits and removes.
-/

namespace Paho

open Records RedBlack

namespace Trees

variable {Content : Type} {extra contents rest : Multiset (Place × Node Content)} {vars : TreeVars}
  {whole t left right : RBTree (Entry Content)} {path : TreePath (Entry Content)}
  {f : Frame (Entry Content)} {entry : Entry Content} {red : Bool} {α : Type}
  {post : α → Multiset (Place × Node Content) → TreeVars → Prop}

section Search

/-- The comparison of an entry. -/
def Entry.compare (compare : Content → Int) (entry : Entry Content) : Int :=
  compare entry.content

variable {compare : Content → Int}

theorem comparison_spec {continuation : Int → TreeProgram Content α}
    (continues : RunsOn (continuation (entry.compare compare)) whole extra vars post) :
    RunsOn (comparison compare (some entry.content) >>= continuation) whole extra vars post :=
  continues

/-- The loop of `TreeAddByIndex`. -/
theorem descendFrom_spec {continuation : Option Place × Option Place × Bool → TreeProgram Content α}
    {isLeft : Bool} (path : TreePath (Entry Content))
    (isSide : ∀ f ∈ path.head?, isLeft = f.side)
    (continues : ∀ isLeft', ((seek (Entry.compare compare) path t).2 = .nil →
        ∀ f ∈ (seek (Entry.compare compare) path t).1.head?, isLeft' = f.side) →
      RunsOn (continuation (parentOf (seek (Entry.compare compare) path t).1,
        pointer (seek (Entry.compare compare) path t).2, isLeft')) (plug path t) extra vars post) :
    RunsOn (descendFrom compare (parentOf path) (pointer t) isLeft >>= continuation) (plug path t)
      extra vars post := by
  induction t generalizing path isLeft with
  | nil =>
      rw [descendFrom, if_pos (show pointer (.nil : RBTree (Entry Content)) = none from rfl),
        pure_bind]
      exact continues isLeft fun _ => isSide
  | node red left entry right leftIh rightIh =>
      rw [descendFrom, pointer, if_neg (Option.some_ne_none _)]
      simp only [bind_assoc]
      refine load_spec false path rfl (comparison_spec ?_)
      rw [seek] at continues
      by_cases found : entry.compare compare = 0
      · rw [if_pos found] at continues ⊢
        rw [pure_bind]
        exact continues _ fun none => by cases none
      · rw [if_neg found] at continues ⊢
        by_cases isRight : 0 < entry.compare compare
        · rw [if_pos isRight] at continues
          have goesOn : RunsOn
            (descendFrom compare (some entry.place) (pointer right) true >>= continuation)
              (plug (⟨red, entry, true, left⟩ :: path) right) extra vars post :=
            rightIh _ (fun f isHead => by cases isHead; rfl) continues
          rw [decide_eq_true isRight]
          exact goesOn
        · rw [if_neg isRight] at continues
          have goesOn : RunsOn
            (descendFrom compare (some entry.place) (pointer left) false >>= continuation)
              (plug (⟨red, entry, false, right⟩ :: path) left) extra vars post :=
            leftIh _ (fun f isHead => by cases isHead; rfl) continues
          rw [decide_eq_false isRight]
          exact goesOn

/-- `TreeFindIndex1`. -/
theorem findFrom_spec {continuation : Option Place → TreeProgram Content α}
    (path : TreePath (Entry Content))
    (continues : RunsOn (continuation (pointer (seek (Entry.compare compare) path t).2))
      (plug path t)
      extra vars post) :
    RunsOn (findFrom compare (pointer t) >>= continuation) (plug path t) extra vars post := by
  induction t generalizing path with
  | nil =>
      rw [findFrom, if_pos (show pointer (.nil : RBTree (Entry Content)) = none from rfl),
        pure_bind]
      exact continues
  | node red left entry right leftIh rightIh =>
      rw [findFrom, pointer, if_neg (Option.some_ne_none _)]
      simp only [bind_assoc]
      refine load_spec false path rfl (comparison_spec ?_)
      rw [seek] at continues
      by_cases found : entry.compare compare = 0
      · rw [if_pos found] at continues ⊢
        rw [pure_bind]
        exact continues
      · rw [if_neg found] at continues ⊢
        by_cases isRight : 0 < entry.compare compare
        · rw [if_pos isRight] at continues
          have goesOn : RunsOn (findFrom compare (pointer right) >>= continuation)
              (plug (⟨red, entry, true, left⟩ :: path) right) extra vars post := rightIh _ continues
          rw [decide_eq_true isRight]
          exact goesOn
        · rw [if_neg isRight] at continues
          have goesOn : RunsOn (findFrom compare (pointer left) >>= continuation)
              (plug (⟨red, entry, false, right⟩ :: path) left) extra vars post := leftIh _ continues
          rw [decide_eq_false isRight]
          exact goesOn

end Search

section Walk

variable {continuation : Option Place → TreeProgram Content α}

/-- `TreeMinimum`. -/
theorem minimumFrom_spec (path : TreePath (Entry Content)) (isNode : t ≠ .nil)
    (continues : RunsOn (continuation (pointer (seekFirst path t).2)) (plug path t)
      extra vars post) :
    RunsOn (minimumFrom (pointer t) >>= continuation) (plug path t) extra vars post := by
  induction path, t using seekFirst.induct with
  | case1 path => exact absurd rfl isNode
  | case2 path red entry right =>
      rw [minimumFrom]
      simp only [bind_assoc]
      exact load_spec false path rfl continues
  | case3 path red leftRed left' entry' right' entry right ih =>
      rw [minimumFrom]
      simp only [bind_assoc]
      refine load_spec false path rfl ?_
      have goesOn := ih (by simp) continues
      exact goesOn

/-- The loop of `TreeSuccessor`: the next value is that of the first node of which the focus is at
the left. -/
theorem ascendFrom_spec (isNode : t ≠ .nil)
    (continues : RunsOn (continuation ((behind path).head?.map Entry.place)) (plug path t)
      extra vars post) :
    RunsOn (ascendFrom (pointer t) (parentOf path) >>= continuation)
      (plug path t) extra vars post := by
  induction path generalizing t with
  | nil =>
      rw [ascendFrom, parentOf, if_pos rfl, pure_bind]
      exact continues
  | cons f path ih =>
      refine RunsOn.of_nodup fun nodup => ?_
      have apart : pointer f.sibling ≠ pointer t := apart_of_nodup (f :: path) t nodup isNode f rfl
      rw [ascendFrom, parentOf, if_neg (Option.some_ne_none _)]
      simp only [bind_assoc]
      refine load_frame_spec f path t rfl ?_
      rcases f with ⟨red, value, side, sibling⟩
      cases side with
      | true =>
          rw [if_pos (show pointer t =
            (frameNode ⟨red, value, true, sibling⟩ (parentOf path) (pointer t)).child true
            from rfl)]
          have goesOn : RunsOn
            (ascendFrom (pointer (Frame.fill ⟨red, value, true, sibling⟩ t)) (parentOf path) >>=
              continuation) (plug path (Frame.fill ⟨red, value, true, sibling⟩ t))
                extra vars post :=
            ih join_ne_nil continues
          exact goesOn
      | false =>
          rw [if_neg (show pointer t ≠
            (frameNode ⟨red, value, false, sibling⟩ (parentOf path) (pointer t)).child true
            from apart.symm), pure_bind]
          exact continues

theorem head_map_seekFirst (path : TreePath (Entry Content)) (isNode : t ≠ .nil) :
    pointer (seekFirst path t).2 = (t.toList ++ behind path).head?.map Entry.place := by
  rcases seekFirst_spec path isNode with ⟨red, value, right, isFirst, -, isBehind⟩
  rw [isFirst, isBehind]
  rfl

/-- `TreeSuccessor`. -/
theorem treeSuccessor_spec
    (continues : RunsOn (continuation ((right.toList ++ behind path).head?.map Entry.place))
      (plug path (.node red left entry right)) extra vars post) :
    RunsOn (treeSuccessor (some entry.place) >>= continuation)
      (plug path (.node red left entry right))
      extra vars post := by
  rw [treeSuccessor]
  simp only [bind_assoc]
  refine load_spec false path rfl ?_
  by_cases isNode : right = .nil
  · subst isNode
    exact ascendFrom_spec (t := .node red left entry .nil) (by simp) continues
  · have below : (entry.node false (parentOf path) (pointer left) (pointer right) red).child
      true = pointer right :=
      rfl
    rw [below, if_neg (pointer_ne_none isNode), treeMinimum, if_neg (pointer_ne_none isNode)]
    refine minimumFrom_spec (⟨red, entry, true, left⟩ :: path) isNode ?_
    rw [head_map_seekFirst _ isNode]
    exact continues

/-- `TreeNextElement` at the beginning of a walk. -/
theorem treeNextElement_none
    (continues : RunsOn (continuation (whole.toList.head?.map Entry.place)) whole extra vars post) :
    RunsOn (treeNextElement none >>= continuation) whole extra vars post := by
  rw [treeNextElement, if_pos rfl]
  simp only [bind_assoc]
  refine look_spec ?_
  by_cases isNode : whole = .nil
  · subst isNode
    exact continues
  · rw [treeMinimum, if_neg (pointer_ne_none isNode)]
    refine minimumFrom_spec [] isNode ?_
    have isFirst := head_map_seekFirst [] isNode
    rw [show behind ([] : TreePath (Entry Content)) = [] from rfl, List.append_nil] at isFirst
    rw [isFirst]
    exact continues

/-- `TreeNextElement` in a walk: the next value in order. -/
theorem treeNextElement_some {xs ys : List (Entry Content)}
    (split : whole.toList = xs ++ entry :: ys)
    (continues : RunsOn (continuation (ys.head?.map Entry.place)) whole extra vars post) :
    RunsOn (treeNextElement (some entry.place) >>= continuation) whole extra vars post := by
  rcases exists_focus split with ⟨path, red, left, right, rfl, -, rfl⟩
  exact treeSuccessor_spec continues


/-- `TreeNextElement` at any position of a walk. -/
theorem treeNextElement_spec {xs ys : List (Entry Content)} (split : whole.toList = xs ++ ys)
    (continues : RunsOn (continuation (ys.head?.map Entry.place)) whole extra vars post) :
    RunsOn (treeNextElement (xs.getLast?.map Entry.place) >>= continuation) whole
      extra vars post := by
  rcases List.eq_nil_or_concat' xs with rfl | ⟨front, entry, rfl⟩
  · rw [List.nil_append] at split
    rw [← split] at continues
    exact treeNextElement_none continues
  · rw [List.append_assoc, List.singleton_append] at split
    rw [List.getLast?_concat]
    exact treeNextElement_some split continues

/-- An entry is read. -/
theorem load_entry_spec {continuation : Node Content → TreeProgram Content α}
    (xs ys : List (Entry Content)) (split : whole.toList = xs ++ entry :: ys)
    (continues : ∀ node, node.content = some entry.content →
      RunsOn (continuation node) whole extra vars post) :
    RunsOn (load (some entry.place) >>= continuation) whole extra vars post := by
  rcases exists_focus split with ⟨path, red, left, right, rfl, -, -⟩
  exact load_spec false path rfl (continues _ rfl)

end Walk

section Add

variable {content : Content} {size : UInt64}

/-- A new node comes to the place of a missing child. -/
theorem attach_spec {continuation : Unit → TreeProgram Content α} {place : Place} {isLeft : Bool}
    (rest : Multiset (Place × Node Content)) (isSide : ∀ f ∈ path.head?, isLeft = f.side)
    (parts : contents = pathNodes path none + rest)
    (continues : Runs (continuation ()) (pathNodes path (some place) + rest)
      { vars with root := rootOf path (some place) } post) :
    Runs ((if parentOf path = none then assign fun aTree => { aTree with root := some place }
      else store (parentOf path) fun node => node.setChild isLeft (some place)) >>=
        continuation) contents
      { vars with root := rootOf path none } post := by
  subst parts
  cases path with
  | nil =>
      rw [parentOf, if_pos rfl]
      exact Runs.assign continues
  | cons f path =>
      have same : isLeft = f.side := isSide f rfl
      subst same
      rw [parentOf, if_neg (Option.some_ne_none _)]
      refine Runs.store (frameNode f (parentOf path) none)
        (nodes (some f.value.place) f.sibling + pathNodes path (some f.value.place) + rest) ?_ ?_
      · rw [pathNodes]
        ac_rfl
      · rw [frameNode, setChild_node]
        rw [pathNodes, add_assoc] at continues
        exact continues

/-- What a node holds is changed. -/
theorem setEntry_spec {continuation : Unit → TreeProgram Content α}
    {change : Node Content → Node Content} (path : TreePath (Entry Content))
    (entry entry' : Entry Content) (samePlace : entry'.place = entry.place)
    (changes : ∀ parent left right red, change (entry.node false parent left right red) =
      entry'.node false parent left right red)
    (focus : whole = plug path (.node red left entry right))
    (continues : RunsOn (continuation ()) (plug path (.node red left entry' right))
      extra vars post) :
    RunsOn (store (some entry.place) change >>= continuation) whole extra vars post := by
  subst focus
  refine Runs.store (entry.node false (parentOf path) (pointer left) (pointer right) red)
    (pathNodes path (some entry.place) +
      (nodes (some entry.place) left + nodes (some entry.place) right) + extra)
    ?_ ?_
  · rw [nodes_plug, nodes, pointer]
    ac_rfl
  · rw [RunsOn, nodes_plug, nodes, pointer_plug, pointer, samePlace] at continues
    rw [pointer_plug, pointer, changes]
    convert continues using 1
    ac_rfl

/-- The tree after `TreeAdd`: with a new node at this place, or another content in the node that is
found. -/
def addEntry (compare : Content → Int) (content : Content) (size : UInt64) (place : Place)
    (t : RBTree (Entry Content)) : RBTree (Entry Content) :=
  match seek (Entry.compare compare) [] t with
  | (path, .nil) => (balanceAdd path (.node true .nil ⟨place, content, size⟩ .nil)).paint false
  | (path, .node red left entry right) =>
      (balanceAdd path (.node red left ⟨entry.place, content, size⟩ right)).paint false

/-- `TreeAdd` of a key that is not there. -/
theorem treeAdd_new {continuation : Option Content → TreeProgram Content α}
    {malloc : NodeMalloc Content} {compare : Content → Content → Int}
    (absent : seek (Entry.compare fun other => compare other content) [] whole = (path, .nil))
    (fails : (∃ records, Holds records (nodes none whole + extra) ∧ malloc.result records = none) →
      RunsOn (continuation none) whole extra vars post)
    (succeeds : ∀ place, place ∉ (nodes none whole + extra).map Prod.fst → place ≠ .temp →
      (∃ records record, Holds records (nodes none whole + extra) ∧ malloc.result records =
        some (place, record)) →
      RunsOn (continuation (some content))
      (addEntry (fun other => compare other content) content size place whole)
        extra { vars with count := vars.count + 1, size := vars.size + size } post) :
    RunsOn (treeAdd malloc compare content size >>= continuation) whole extra vars post := by
  have plugged : plug path .nil = whole := by
    have plugged := plug_seek (Entry.compare fun other => compare other content) [] whole
    rwa [absent] at plugged
  have added (place : Place) : addEntry (fun other => compare other content) content
    size place whole =
      (balanceAdd path (.node true .nil ⟨place, content, size⟩ .nil)).paint false := by
    rw [addEntry, absent]
  rw [treeAdd]
  simp only [bind_assoc]
  refine look_spec (descendFrom_spec [] (by simp) fun isLeft isSide => ?_)
  replace isSide := isSide (congrArg Prod.snd absent)
  rw [absent] at isSide ⊢
  rw [if_pos (show pointer (.nil : RBTree (Entry Content)) = none from rfl)]
  simp only [bind_assoc]
  refine Runs.malloc ?_ ?_
  · exact fun failed => fails failed
  · intro place record outcome new
    have onHeap : place ≠ .temp := by
      rintro rfl
      rcases outcome with ⟨records, -, outcome⟩
      exact malloc.on_heap records record outcome
    have after := succeeds place new onHeap ⟨_, record, outcome.choose_spec⟩
    rw [added] at after
    rw [if_neg (Option.some_ne_none _)]
    simp only [bind_assoc, pure_bind]
    refine Runs.store record _ rfl ?_
    rw [show plug [] whole = plug path .nil from plugged.symm, pointer_plug, nodes_plug]
    refine attach_spec ({(place, zeroNode)} + extra) isSide ?_ ?_
    · rw [nodes]
      ac_rfl
    have linked (node : Node Content) : pathNodes path (some place) + ({(place, node)} + extra) =
        {(place, node)} + (pathNodes path (some place) + extra) := by
      ac_rfl
    refine Runs.store zeroNode (pathNodes path (some place) + extra) (linked _) ?_
    refine Runs.store _ _ rfl
      (Runs.assign (Runs.assign (Runs.store _ _ rfl (Runs.store _ _ rfl ?_))))
    have balanced : RunsOn (treeBalanceAfterAdd (some place) >>=
      fun _ => continuation (some content))
        (plug path (.node true .nil ⟨place, content, size⟩ .nil)) extra
        { vars with count := vars.count + 1, size := vars.size + size } post :=
      treeBalanceAfterAdd_spec (t := .node true .nil ⟨place, content, size⟩ .nil) (by simp) after
    rw [RunsOn, nodes_plug, nodes, pointer_plug] at balanced
    convert balanced using 1
    · simp only [nodes, pointer, add_zero]
      rw [add_assoc]
      exact (linked _).symm
    · rfl

/-- `TreeAdd` of a key that is there. -/
theorem treeAdd_found {continuation : Option Content → TreeProgram Content α}
    {malloc : NodeMalloc Content} {compare : Content → Content → Int}
    (found : seek (Entry.compare fun other => compare other content) [] whole =
      (path, .node red left entry right))
    (unique : vars.allow_duplicates = false)
    (succeeds : RunsOn (continuation (some content))
      (addEntry (fun other => compare other content) content size entry.place whole) extra
      { vars with size := vars.size + (size - entry.size) } post) :
    RunsOn (treeAdd malloc compare content size >>= continuation) whole extra vars post := by
  have plugged : whole = plug path (.node red left entry right) := by
    have plugged := plug_seek (Entry.compare fun other => compare other content) [] whole
    rw [found] at plugged
    exact plugged.symm
  have added : addEntry (fun other => compare other content) content size entry.place whole =
      (balanceAdd path (.node red left ⟨entry.place, content, size⟩ right)).paint false := by
    rw [addEntry, found]
  rw [added] at succeeds
  rw [treeAdd]
  simp only [bind_assoc]
  refine look_spec (descendFrom_spec [] (by simp) fun isLeft isSide => ?_)
  rw [found, pointer]
  dsimp only
  rw [if_neg (Option.some_ne_none _)]
  simp only [bind_assoc]
  refine look_spec ?_
  dsimp only
  rw [unique, if_neg Bool.false_ne_true]
  simp only [bind_assoc, pure_bind]
  refine load_spec false path plugged (Runs.assign ?_)
  have stored : RunsOn (do
      store (some entry.place) fun node => { node with content := some content }
      store (some entry.place) fun node => { node with size := size }
      treeBalanceAfterAdd (some entry.place)
      continuation (some content)) whole extra
        { vars with size := vars.size + (size - entry.size) } post := by
    refine setEntry_spec path entry ⟨entry.place, content, entry.size⟩ rfl
      (fun _ _ _ _ => rfl) plugged ?_
    refine setEntry_spec path ⟨entry.place, content, entry.size⟩ ⟨entry.place, content, size⟩ rfl
      (fun _ _ _ _ => rfl) rfl ?_
    exact treeBalanceAfterAdd_spec (t := .node red left ⟨entry.place, content, size⟩ right)
      (by simp) succeeds
  exact stored

end Add

section Remove

/-- The tree without a node of this color at the end of the path; its only child comes to its place.
-/
def cut (red : Bool) (path : TreePath (Entry Content)) (child : RBTree (Entry Content)) :
    RBTree (Entry Content) :=
  if red then plug path child else balanceRemove path child

/-- The tree after `TreeRemoveNodeIndex` of the focus. Where it has two children, the next node in
order is cut out, and the node of the focus gets what that one held. -/
def removeFocus (path : TreePath (Entry Content)) : RBTree (Entry Content) → RBTree (Entry Content)
  | .nil => plug path .nil
  | .node red .nil _ right => cut red path right
  | .node red left _ .nil => cut red path left
  | .node red left entry right =>
      match seekFirst [] right with
      | (above, .node red' _ entry' right') =>
          cut red' (above ++ ⟨red, ⟨entry.place, entry'.content, entry'.size⟩, true, left⟩ :: path)
          right'
      | (_, .nil) => .nil

/-- The only child of a node comes to its place; the node is in memory beside the tree. -/
theorem cut_spec {continuation : TreeProgram Content α} {child : RBTree (Entry Content)}
    (path : TreePath (Entry Content))
    (only : (left = .nil ∧ child = right) ∨ (right = .nil ∧ child = left))
    (focus : whole = plug path (.node red left entry right))
    (continues : RunsOn continuation (plug path child)
      ({(entry.place, entry.node false (parentOf path) (pointer left) (pointer right) red)} + extra)
      vars post) :
    RunsOn (do
      (if pointer child = none then pure ()
      else store (pointer child) fun node => { node with parent := parentOf path })
      replaceChild (parentOf path) (some entry.place) false (pointer child)
      continuation) whole extra vars post := by
  subst focus
  refine RunsOn.of_nodup fun nodup => ?_
  have apart : ∀ f ∈ path.head?, pointer f.sibling ≠ some entry.place :=
    apart_of_nodup path _ nodup (by simp)
  have below : nodes (some entry.place) left + nodes (some entry.place) right =
    nodes (some entry.place) child := by
    rcases only with ⟨rfl, rfl⟩ | ⟨rfl, rfl⟩
    · rw [nodes, zero_add]
    · rw [nodes, add_zero]
  rw [RunsOn, nodes_plug, pointer_plug] at continues
  rw [RunsOn, nodes_plug, nodes, below, pointer_plug]
  refine reparent_spec child (some entry.place) (pathNodes path (some entry.place) +
    ({(entry.place, entry.node false (parentOf path) (pointer left) (pointer right) red)} + extra))
      ?_ ?_
  · rw [pointer]
    ac_rfl
  refine replaceChild_spec (pointer child) (nodes (parentOf path) child +
    ({(entry.place, entry.node false (parentOf path) (pointer left) (pointer right) red)} + extra))
      apart ?_ ?_
  · ac_rfl
  · rwa [add_assoc] at continues

/-- The balancing after a node was cut out. -/
theorem balanceAfterCut_spec {continuation : Unit → TreeProgram Content α}
    {child : RBTree (Entry Content)}
    (noTemp : Place.temp ∉ (nodes none (plug path child) + extra).map Prod.fst)
    (continues : RunsOn (continuation ()) (cut red path child) extra vars post) :
    RunsOn (balanceAfterCut red (pointer child) (parentOf path) >>= continuation)
      (plug path child) extra vars post := by
  rw [balanceAfterCut]
  rw [cut] at continues
  cases red with
  | true => exact continues
  | false =>
      rw [if_neg Bool.false_ne_true] at continues ⊢
      by_cases isNode : child = .nil
      · subst isNode
        rw [if_pos (show pointer (.nil : RBTree (Entry Content)) = none from rfl)]
        by_cases isRoot : path = []
        · subst isRoot
          exact continues
        · have someParent : parentOf path ≠ none := by
            cases path with
            | nil => exact absurd rfl isRoot
            | cons f path => exact Option.some_ne_none _
          rw [if_neg someParent]
          simp only [bind_assoc]
          refine Runs.place noTemp ?_
          have balanced : RunsOn (treeBalanceAfterRemove (some .temp) >>= fun _ =>
              free (some .temp) >>= continuation) (plug path .nil)
              ({(.temp, { zeroNode with parent := parentOf path })} + extra) vars post := by
            refine treeBalanceAfterRemove_spec (.inr ⟨rfl, someParent, rfl, by simp⟩) ?_
            exact free_spec continues
          rw [RunsOn] at balanced
          convert balanced using 1
          ac_rfl
      · rw [if_neg (pointer_ne_none isNode)]
        exact treeBalanceAfterRemove_spec (.inl ⟨isNode, rfl⟩) continues

/-- The memory of the balancing stays free. -/
theorem noTemp_cut {child : RBTree (Entry Content)} {node : Node Content}
    (only : (left = .nil ∧ child = right) ∨ (right = .nil ∧ child = left))
    (noTemp : Place.temp ∉ (nodes none (plug path (.node red left entry right)) + extra).map
      Prod.fst) :
    Place.temp ∉ (nodes none (plug path child) + ({(entry.place, node)} + extra)).map Prod.fst := by
  have below : child.toList = left.toList ++ right.toList := by
    rcases only with ⟨rfl, rfl⟩ | ⟨rfl, rfl⟩ <;> simp [RBTree.toList]
  rw [Multiset.map_add, places_nodes, toList_plug, Multiset.mem_add] at noTemp
  rw [Multiset.map_add, places_nodes, toList_plug, Multiset.mem_add, below]
  simp only [RBTree.toList, Multiset.mem_coe, List.map_append, List.map_cons, List.mem_append,
    List.mem_cons,
    Multiset.map_add, Multiset.map_singleton, Multiset.mem_add, Multiset.mem_singleton] at noTemp ⊢
  tauto

/-- The only child is found. -/
theorem pointer_only {child : RBTree (Entry Content)}
    (only : (left = .nil ∧ child = right) ∨ (right = .nil ∧ child = left)) :
    (if pointer left ≠ none then pointer left else pointer right) = pointer child := by
  rcases only with ⟨rfl, rfl⟩ | ⟨rfl, rfl⟩
  · exact if_neg (not_not.mpr rfl)
  · by_cases isNode : child = .nil
    · rw [isNode]
      rfl
    · exact if_pos (pointer_ne_none isNode)

/-- `TreeRemoveNodeIndex` of a node with at most one child. -/
theorem treeRemoveNode_single {continuation : Option Content → TreeProgram Content α}
    {child : RBTree (Entry Content)}
    (only : (left = .nil ∧ child = right) ∨ (right = .nil ∧ child = left))
    (noTemp : Place.temp ∉ (nodes none (plug path (.node red left entry right)) + extra).map
      Prod.fst) (continues : RunsOn (continuation (some entry.content)) (cut red path child) extra
      { vars with size := vars.size - entry.size, count := vars.count - 1 } post) :
    RunsOn (treeRemoveNode (some entry.place) >>= continuation)
      (plug path (.node red left entry right))
      extra vars post := by
  have single : ¬(pointer left ≠ none ∧ pointer right ≠ none) := by
    rcases only with ⟨rfl, -⟩ | ⟨rfl, -⟩
    · exact fun both => both.1 rfl
    · exact fun both => both.2 rfl
  rw [treeRemoveNode]
  simp only [bind_assoc]
  refine load_spec false path rfl ?_
  rw [left_node, right_node, if_neg single, pure_bind]
  refine load_spec false path rfl ?_
  rw [left_node, right_node, pointer_only only, parent_node, red_node]
  refine cut_spec path only rfl ?_
  rw [if_pos rfl, pure_bind]
  refine balanceAfterCut_spec (noTemp_cut only noTemp) ?_
  exact free_spec (Runs.assign (Runs.assign continues))

/-- `TreeRemoveNodeIndex` of a node with two children. -/
theorem treeRemoveNode_double {continuation : Option Content → TreeProgram Content α}
    {above : TreePath (Entry Content)} {entry' : Entry Content} {red' : Bool}
    {left' right' : RBTree (Entry Content)} (someLeft : left ≠ .nil) (someRight : right ≠ .nil)
    (isFirst : seekFirst [] right = (above, .node red' left' entry' right'))
    (noTemp : Place.temp ∉ (nodes none (plug path (.node red left entry right)) + extra).map
      Prod.fst)
    (continues : RunsOn (continuation (some entry.content))
      (cut red' (above ++ ⟨red, ⟨entry.place, entry'.content, entry'.size⟩, true, left⟩ :: path)
        right') extra
      { vars with size := vars.size - entry.size, count := vars.count - 1 } post) :
    RunsOn (treeRemoveNode (some entry.place) >>= continuation)
      (plug path (.node red left entry right))
      extra vars post := by
  refine RunsOn.of_nodup fun nodup => ?_
  have ⟨noLeft, mem⟩ : left' = .nil ∧ entry' ∈ right.toList := by
    rcases seekFirst_spec [] someRight with ⟨_, _, _, same, -, split⟩
    rw [isFirst] at same
    cases same
    rw [show behind ([] : TreePath (Entry Content)) = [] from rfl, List.append_nil] at split
    exact ⟨rfl, by rw [split]; exact List.mem_cons_self⟩
  subst noLeft
  have apart : entry'.place ≠ entry.place := by
    intro same
    rw [Multiset.map_add, Multiset.nodup_add, places_nodes, Multiset.coe_nodup, toList_plug,
      RBTree.toList] at nodup
    simp only [List.map_append, List.map_cons, List.nodup_append, List.nodup_cons] at nodup
    exact nodup.1.1.2.1.2.1.1 (same ▸ List.mem_map_of_mem mem)
  have successor : (right.toList ++ behind path).head?.map Entry.place = some entry'.place := by
    rw [← head_map_seekFirst path someRight, seekFirst_append, isFirst]
    rfl
  have focus : plug path (.node red left entry right) =
      plug (above ++ ⟨red, entry, true, left⟩ :: path) (.node red' .nil entry' right') := by
    have plugged := plug_seekFirst [] right
    rw [isFirst] at plugged
    rw [plug_append, plugged]
    rfl
  rw [treeRemoveNode]
  simp only [bind_assoc]
  refine load_spec false path rfl ?_
  rw [left_node, right_node, if_pos ⟨pointer_ne_none someLeft, pointer_ne_none someRight⟩]
  refine treeSuccessor_spec ?_
  rw [successor]
  refine load_spec false _ focus ?_
  rw [left_node, right_node, pointer_only (.inl ⟨rfl, rfl⟩), parent_node, red_node]
  refine cut_spec _ (.inl ⟨rfl, rfl⟩) focus ?_
  rw [if_neg (fun same => apart (Option.some.inj same))]
  simp only [bind_assoc]
  -- what the next node held comes to the node of the focus
  refine setEntry_spec path entry ⟨entry.place, entry'.content, entry.size⟩ rfl (fun _ _ _ _ => rfl)
    (plug_append _ _) ?_
  refine setEntry_spec path ⟨entry.place, entry'.content, entry.size⟩
    ⟨entry.place, entry'.content, entry'.size⟩ rfl (fun _ _ _ _ => rfl) rfl ?_
  have refocus (e : Entry Content) : plug path (.node red left e (plug above right')) =
      plug (above ++ ⟨red, e, true, left⟩ :: path) right' :=
    (plug_append above (⟨red, e, true, left⟩ :: path)).symm
  have sameParent : parentOf (above ++ ⟨red, entry, true, left⟩ :: path) =
      parentOf (above ++ ⟨red, ⟨entry.place, entry'.content, entry'.size⟩, true,
        left⟩ :: path) := by
    cases above <;> rfl
  rw [refocus, sameParent]
  rw [focus] at noTemp
  have stillNone : Place.temp ∉ (nodes none
    (plug (above ++ ⟨red, entry, true, left⟩ :: path) right') +
      ({(entry'.place, zeroNode)} + extra)).map Prod.fst := noTemp_cut (.inl ⟨rfl, rfl⟩) noTemp
  refine balanceAfterCut_spec ?_ ?_
  · rw [← refocus, Multiset.map_add, places_nodes, toList_plug] at stillNone ⊢
    simpa [RBTree.toList] using stillNone
  · exact free_spec (Runs.assign (Runs.assign continues))

/-- `TreeRemoveNodeIndex`. -/
theorem treeRemoveNode_spec {continuation : Option Content → TreeProgram Content α}
    (path : TreePath (Entry Content))
    (noTemp : Place.temp ∉ (nodes none (plug path (.node red left entry right)) + extra).map
      Prod.fst) (continues : RunsOn (continuation (some entry.content))
      (removeFocus path (.node red left entry right)) extra
      { vars with size := vars.size - entry.size, count := vars.count - 1 } post) :
    RunsOn (treeRemoveNode (some entry.place) >>= continuation)
      (plug path (.node red left entry right))
      extra vars post := by
  cases left with
  | nil => exact treeRemoveNode_single (.inl ⟨rfl, rfl⟩) noTemp continues
  | node leftRed left' leftEntry right' =>
      cases right with
      | nil => exact treeRemoveNode_single (.inr ⟨rfl, rfl⟩) noTemp continues
      | node rightRed left'' rightEntry right'' =>
          rw [removeFocus] at continues
          · rcases isFirst : seekFirst [] (.node rightRed left'' rightEntry right'') with
              ⟨above, first⟩
            rw [isFirst] at continues
            cases first with
            | nil =>
                rcases seekFirst_spec [] (t := .node rightRed left'' rightEntry right'')
                  (by simp) with
                  ⟨_, _, _, same, -, -⟩
                rw [isFirst] at same
                cases same
            | node red' left₁ entry' right₁ =>
                exact treeRemoveNode_double (by simp) (by simp) isFirst noTemp continues
          · simp
          · simp

section Values

theorem toList_of_seek {compare : Content → Int}
    (found : seek (Entry.compare compare) [] whole = (path, t)) :
    whole.toList = before path ++ t.toList ++ behind path := by
  have plugged := plug_seek (Entry.compare compare) [] whole
  rw [found] at plugged
  exact (congrArg RBTree.toList plugged).symm.trans toList_plug

theorem toList_addEntry_new {compare : Content → Int} {content : Content} {size : UInt64}
    {place : Place} (absent : seek (Entry.compare compare) [] whole = (path, .nil)) :
    (addEntry compare content size place whole).toList = before path ++ ⟨place, content,
      size⟩ :: behind path := by
  rw [addEntry, absent]
  dsimp only
  rw [toList_paint, toList_balanceAdd, toList_plug]
  simp [RBTree.toList]

theorem toList_addEntry_found {compare : Content → Int} {content : Content} {size : UInt64}
    {place : Place} (found : seek (Entry.compare compare) [] whole =
      (path, .node red left entry right)) :
    (addEntry compare content size place whole).toList =
      before path ++ (left.toList ++ ⟨entry.place, content, size⟩ :: right.toList) ++
      behind path := by
  rw [addEntry, found]
  dsimp only
  rw [toList_paint, toList_balanceAdd, toList_plug]
  rfl

/-- What an entry is in the map. -/
def Entry.value (entry : Entry Content) : Content × UInt64 :=
  (entry.content, entry.size)

theorem toList_cut (red : Bool) (path : TreePath (Entry Content)) (child : RBTree (Entry Content)) :
    (cut red path child).toList = before path ++ child.toList ++ behind path := by
  rw [cut]
  split
  · exact toList_plug
  · rw [toList_balanceRemove, toList_plug]

/-- The entries after a removal: the places of some, and what the others hold. -/
theorem toList_removeFocus (path : TreePath (Entry Content)) (red : Bool)
    (left : RBTree (Entry Content)) (entry : Entry Content) (right : RBTree (Entry Content)) :
    ∃ entries, (removeFocus path (.node red left entry right)).toList =
      before path ++ entries ++ behind path ∧
      entries.map Entry.value = (left.toList ++ right.toList).map Entry.value ∧
      ∀ entry' ∈ entries, ∃ entry'' ∈ left.toList ++ entry :: right.toList,
      entry''.place = entry'.place := by
  cases left with
  | nil =>
      refine ⟨right.toList, toList_cut red path right, rfl, fun entry' mem => ⟨entry', ?_, rfl⟩⟩
      simp [mem]
  | node leftRed left' leftEntry right' =>
      cases right with
      | nil =>
          refine ⟨_, toList_cut red path _, ?_, fun entry' mem => ⟨entry', ?_, rfl⟩⟩
          · rw [RBTree.toList.eq_1, List.append_nil]
          · exact List.mem_append_left _ mem
      | node rightRed left'' rightEntry right'' =>
          rcases seekFirst_spec [] (t := .node rightRed left'' rightEntry right'') (by simp) with
            ⟨red', entry', right₁, isFirst, front, split⟩
          rw [show behind ([] : TreePath (Entry Content)) = [] from rfl, List.append_nil,
            List.cons_append] at split
          rw [removeFocus]
          · rcases first : seekFirst [] (.node rightRed left'' rightEntry right'') with ⟨above, t'⟩
            rw [first] at isFirst front split
            subst isFirst
            refine ⟨(RBTree.node leftRed left' leftEntry right').toList ++ ⟨entry.place,
              entry'.content, entry'.size⟩ ::
              (right₁.toList ++ behind above), ?_, ?_, ?_⟩
            · rw [toList_cut, before_append, behind_append, front]
              simp [before, behind]
            · rw [split]
              simp [Entry.value]
            · intro entry₁ mem
              rw [split]
              rcases List.mem_append.mp mem with mem | mem
              · exact ⟨entry₁, List.mem_append_left _ mem, rfl⟩
              · rcases List.mem_cons.mp mem with rfl | mem
                · exact ⟨entry, by simp, rfl⟩
                · exact ⟨entry₁, List.mem_append_right
                    _ (List.mem_cons_of_mem _ (List.mem_cons_of_mem _ mem)), rfl⟩
          · simp
          · simp

end Values

end Remove

end Trees

end Paho
