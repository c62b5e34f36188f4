import Paho.Library.RedBlack
import Paho.Pointers.Tree

/-!
# The links of a tree

The nodes of a tree in memory, with their pointers, and what the functions of `Tree.c` that balance
it make of them.
-/

namespace Paho

open Records RedBlack

namespace Trees

/-- What a node holds, and where it is. -/
structure Entry (Content : Type) where
  place : Place
  content : Content
  size : UInt64
  deriving DecidableEq, Repr

variable {Content : Type}

/-- The pointer to a tree. -/
def pointer : RBTree (Entry Content) → Option Place
  | .nil => none
  | .node _ _ entry _ => some entry.place

theorem pointer_ne_none {t : RBTree (Entry Content)} (isNode : t ≠ .nil) : pointer t ≠ none := by
  cases t with
  | nil => exact absurd rfl isNode
  | node => exact Option.some_ne_none _

/-- The node of an entry, with the children at a side and at the other side. -/
def Entry.node (entry : Entry Content) (side : Bool) (parent near far : Option Place) (red : Bool) :
    Node Content where
  parent := parent
  left := if side then far else near
  right := if side then near else far
  content := some entry.content
  size := entry.size
  red := red

section Node

variable {entry : Entry Content} {side red : Bool} {parent near far pointer : Option Place}

@[simp]
theorem child_node : (entry.node side parent near far red).child side = near := by
  cases side <;> rfl

@[simp]
theorem child_node_not : (entry.node side parent near far red).child (!side) = far := by
  cases side <;> rfl

@[simp]
theorem setChild_node :
    (entry.node side parent near far red).setChild side pointer =
    entry.node side parent pointer far red := by
  cases side <;> rfl

@[simp]
theorem setChild_node_not :
    (entry.node side parent near far red).setChild (!side) pointer =
    entry.node side parent near pointer red := by
  cases side <;> rfl

@[simp]
theorem parent_node : (entry.node side parent near far red).parent = parent :=
  rfl

@[simp]
theorem left_node : (entry.node false parent near far red).left = near :=
  rfl

@[simp]
theorem right_node : (entry.node false parent near far red).right = far :=
  rfl

@[simp]
theorem red_node : (entry.node side parent near far red).red = red :=
  rfl

theorem node_not (side : Bool) : entry.node (!side) parent near far red =
    entry.node side parent far near red := by
  cases side <;> rfl

end Node

/-- The nodes of a tree below a parent. -/
def nodes (parent : Option Place) : RBTree (Entry Content) → Multiset (Place × Node Content)
  | .nil => 0
  | .node red left entry right =>
      {(entry.place, entry.node false parent (pointer left) (pointer right) red)} +
        (nodes (some entry.place) left + nodes (some entry.place) right)

/-- The places of the nodes. -/
theorem places_nodes (parent : Option Place) (t : RBTree (Entry Content)) :
    (nodes parent t).map Prod.fst = (t.toList.map Entry.place : Multiset Place) := by
  induction t generalizing parent with
  | nil => rfl
  | node red left entry right leftIh rightIh =>
      rw [nodes, Multiset.map_add, Multiset.map_add, leftIh, rightIh, RBTree.toList,
        List.map_append, List.map_cons,
        ← Multiset.coe_add, ← Multiset.cons_coe, Multiset.add_cons, Multiset.map_singleton,
          Multiset.singleton_add]

/-- The pointer to the node above the focus. -/
def parentOf : TreePath (Entry Content) → Option Place
  | [] => none
  | f :: _ => some f.value.place

/-- The node of a frame, with this pointer at the side of the focus. -/
def frameNode (f : Frame (Entry Content)) (parent hole : Option Place) : Node Content :=
  f.value.node f.side parent hole (pointer f.sibling) f.red

/-- The nodes of a path, with this pointer to the focus. -/
def pathNodes : TreePath (Entry Content) → Option Place → Multiset (Place × Node Content)
  | [], _ => 0
  | f :: path, hole =>
      {(f.value.place, frameNode f (parentOf path) hole)} +
        (nodes (some f.value.place) f.sibling + pathNodes path (some f.value.place))

@[simp]
theorem parent_frameNode {f : Frame (Entry Content)} {parent hole : Option Place} :
    (frameNode f parent hole).parent = parent :=
  rfl

@[simp]
theorem red_frameNode {f : Frame (Entry Content)} {parent hole : Option Place} :
    (frameNode f parent hole).red = f.red :=
  rfl

@[simp]
theorem child_frameNode {f : Frame (Entry Content)} {parent hole : Option Place} :
    (frameNode f parent hole).child f.side = hole :=
  child_node

@[simp]
theorem child_frameNode_not {f : Frame (Entry Content)} {parent hole : Option Place} :
    (frameNode f parent hole).child (!f.side) = pointer f.sibling :=
  child_node_not

variable {f : Frame (Entry Content)} {path : TreePath (Entry Content)}
  {t left right near far : RBTree (Entry Content)} {entry : Entry Content} {red side : Bool}
  {parent : Option Place}

@[simp]
theorem pointer_join : pointer (RBTree.join side red entry near far) = some entry.place := by
  cases side <;> rfl

theorem nodes_join : nodes parent (RBTree.join side red entry near far) =
    {(entry.place, entry.node side parent (pointer near) (pointer far) red)} +
      (nodes (some entry.place) near + nodes (some entry.place) far) := by
  cases side
  · rfl
  · simp only [RBTree.join, nodes, ← node_not true]
    ac_rfl

theorem pointer_fill : pointer (f.fill t) = some f.value.place :=
  pointer_join

theorem nodes_fill : nodes parent (f.fill t) = {(f.value.place, frameNode f parent (pointer t))} +
    (nodes (some f.value.place) f.sibling + nodes (some f.value.place) t) := by
  rw [Frame.fill, nodes_join, frameNode]
  ac_rfl

/-- The nodes of the whole tree are those above and those below the focus. -/
theorem nodes_plug : nodes none (plug path t) = pathNodes path (pointer t) +
    nodes (parentOf path) t := by
  induction path generalizing t with
  | nil => simp [plug, pathNodes, parentOf]
  | cons f path ih =>
      rw [plug, ih, pointer_fill, nodes_fill, pathNodes, parentOf]
      ac_rfl

/-- The pointer to the root, from the pointer to the focus. -/
def rootOf : TreePath (Entry Content) → Option Place → Option Place
  | [], hole => hole
  | f :: path, _ => rootOf path (some f.value.place)

theorem pointer_plug : pointer (plug path t) = rootOf path (pointer t) := by
  induction path generalizing t with
  | nil => rfl
  | cons f path ih => rw [plug, ih, pointer_fill, rootOf]

/-- The program is run where this tree is in memory beside other nodes. -/
def RunsOn {α : Type} (program : TreeProgram Content α) (whole : RBTree (Entry Content))
    (extra : Multiset (Place × Node Content)) (vars : TreeVars)
    (post : α → Multiset (Place × Node Content) → TreeVars → Prop) : Prop :=
  Runs program (nodes none whole + extra) { vars with root := pointer whole } post

section Rules

variable {extra contents rest : Multiset (Place × Node Content)} {vars : TreeVars}
  {whole : RBTree (Entry Content)} {α : Type}
  {post : α → Multiset (Place × Node Content) → TreeVars → Prop}

/-- The root is the pointer to the tree. -/
theorem look_spec {continuation : TreeVars → TreeProgram Content α}
    (continues : RunsOn (continuation { vars with root := pointer whole }) whole extra vars post) :
    RunsOn (look >>= continuation) whole extra vars post :=
  continues

/-- A node of the tree is read. -/
theorem load_spec {continuation : Node Content → TreeProgram Content α} (side : Bool)
    (path : TreePath (Entry Content))
    (focus : whole = plug path (RBTree.join side red entry near far))
    (continues : RunsOn
      (continuation (entry.node side (parentOf path) (pointer near) (pointer far) red))
      whole extra vars post) :
    RunsOn (load (some entry.place) >>= continuation) whole extra vars post := by
  subst focus
  refine Runs.load _ ?_ continues
  rw [nodes_plug, nodes_join]
  simp

/-- The node of a frame is read. -/
theorem load_frame_spec {continuation : Node Content → TreeProgram Content α}
    (f : Frame (Entry Content)) (path : TreePath (Entry Content)) (t : RBTree (Entry Content))
    (focus : whole = plug (f :: path) t)
    (continues : RunsOn (continuation (frameNode f (parentOf path) (pointer t))) whole
      extra vars post) :
    RunsOn (load (some f.value.place) >>= continuation) whole extra vars post :=
  load_spec f.side path focus continues

/-- A node of the tree is read for its parent. -/
theorem load_parent_spec {continuation : Node Content → TreeProgram Content α} (isNode : t ≠ .nil)
    (continues : ∀ node, node.parent = parentOf path →
      RunsOn (continuation node) (plug path t) extra vars post) :
    RunsOn (load (pointer t) >>= continuation) (plug path t) extra vars post := by
  cases t with
  | nil => exact absurd rfl isNode
  | node red left entry right => exact load_spec false path rfl (continues _ rfl)

/-- A node of the tree is painted. -/
theorem setRed_spec {continuation : Unit → TreeProgram Content α} {color : Bool}
    (path : TreePath (Entry Content)) (t : RBTree (Entry Content)) (focus : whole = plug path t)
    (isNode : t ≠ .nil)
    (continues : RunsOn (continuation ()) (plug path (t.paint color)) extra vars post) :
    RunsOn (setRed (pointer t) color >>= continuation) whole extra vars post := by
  subst focus
  cases t with
  | nil => exact absurd rfl isNode
  | node red left entry right =>
      refine Runs.store (entry.node false (parentOf path) (pointer left) (pointer right) red)
        (pathNodes path (some entry.place) +
          (nodes (some entry.place) left + nodes (some entry.place) right) + extra) ?_ ?_
      · rw [nodes_plug, nodes, pointer]
        ac_rfl
      · rw [RunsOn, RBTree.paint, nodes_plug, nodes, pointer_plug, pointer] at continues
        rw [pointer_plug, pointer]
        convert continues using 1
        simp only [Entry.node]
        ac_rfl

/-- The node of a frame is painted. -/
theorem setRed_frame_spec {continuation : Unit → TreeProgram Content α} {color : Bool}
    (f : Frame (Entry Content)) (path : TreePath (Entry Content)) (t : RBTree (Entry Content))
    (focus : whole = plug (f :: path) t)
    (continues : RunsOn (continuation ()) (plug ({ f with red := color } :: path) t)
      extra vars post) :
    RunsOn (setRed (some f.value.place) color >>= continuation) whole extra vars post := by
  rw [← pointer_fill (t := t)]
  refine setRed_spec path (f.fill t) focus join_ne_nil ?_
  rw [Frame.fill, paint_join]
  exact continues

/-- A node beside the tree is freed. -/
theorem free_spec {continuation : Unit → TreeProgram Content α} {place : Place}
    {node : Node Content} (continues : RunsOn (continuation ()) whole extra vars post) :
    RunsOn (free (some place) >>= continuation) whole ({(place, node)} + extra) vars post :=
  Runs.free node (nodes none whole + extra) (by ac_rfl) continues

theorem isRed_spec {continuation : Bool → TreeProgram Content α} (path : TreePath (Entry Content))
    (focus : whole = plug path t)
    (continues : RunsOn (continuation t.isRed) whole extra vars post) :
    RunsOn (isRed (pointer t) >>= continuation) whole extra vars post := by
  cases t with
  | nil => exact continues
  | node red left entry right =>
      rw [isRed, pointer, if_neg (Option.some_ne_none _), bind_assoc]
      exact load_spec false path focus continues

/-- The color of the sibling of the focus. -/
theorem isRed_sibling_spec {continuation : Bool → TreeProgram Content α} (f : Frame (Entry Content))
    (path : TreePath (Entry Content)) (t : RBTree (Entry Content))
    (focus : whole = plug (f :: path) t)
    (continues : RunsOn (continuation f.sibling.isRed) whole extra vars post) :
    RunsOn (isRed (pointer f.sibling) >>= continuation) whole extra vars post :=
  isRed_spec (f.turn t :: path) (focus.trans (plug_turn f path t).symm) continues

/-- The sibling of the focus is painted. -/
theorem setRed_sibling_spec {continuation : Unit → TreeProgram Content α} {color : Bool}
    (f : Frame (Entry Content)) (path : TreePath (Entry Content)) (t : RBTree (Entry Content))
    (focus : whole = plug (f :: path) t) (isNode : f.sibling ≠ .nil)
    (continues : RunsOn (continuation ())
      (plug ({ f with sibling := f.sibling.paint color } :: path) t)
      extra vars post) :
    RunsOn (setRed (pointer f.sibling) color >>= continuation) whole extra vars post := by
  refine setRed_spec (f.turn t :: path) _ (focus.trans (plug_turn f path t).symm) isNode ?_
  exact (plug_turn { f with sibling := f.sibling.paint color } path t).symm ▸ continues

/-- The color of the node above the focus. -/
theorem isRed_parent_spec {continuation : Bool → TreeProgram Content α}
    (continues : RunsOn (continuation (path.head?.any Frame.red)) (plug path t) extra vars post) :
    RunsOn (isRed (parentOf path) >>= continuation) (plug path t) extra vars post := by
  cases path with
  | nil => exact continues
  | cons f path =>
      rw [isRed, parentOf, if_neg (Option.some_ne_none _), bind_assoc]
      exact load_frame_spec f path t rfl continues

theorem isBlack_spec {continuation : Bool → TreeProgram Content α} (path : TreePath (Entry Content))
    (focus : whole = plug path t)
    (continues : RunsOn (continuation (!t.isRed)) whole extra vars post) :
    RunsOn (isBlack (pointer t) >>= continuation) whole extra vars post := by
  cases t with
  | nil => exact continues
  | node red left entry right =>
      rw [isBlack, pointer, if_neg (Option.some_ne_none _), bind_assoc]
      exact load_spec false path focus continues

/-- The parent of the nodes of a tree is set. -/
theorem reparent_spec {continuation : Unit → TreeProgram Content α} {p : Option Place}
    (t : RBTree (Entry Content)) (q : Option Place) (rest : Multiset (Place × Node Content))
    (parts : contents = nodes q t + rest)
    (continues : Runs (continuation ()) (nodes p t + rest) vars post) :
    Runs ((if pointer t = none then pure () else store (pointer t) fun node =>
      { node with parent := p }) >>=
      continuation) contents vars post := by
  subst parts
  cases t with
  | nil => exact continues
  | node red left entry right =>
      rw [pointer, if_neg (Option.some_ne_none _)]
      refine Runs.store (entry.node false q (pointer left) (pointer right) red)
        (nodes (some entry.place) left + nodes (some entry.place) right + rest) ?_ ?_
      · rw [nodes]
        ac_rfl
      · rw [nodes, add_assoc] at continues
        exact continues

/-- The pointer to the focus is set. -/
theorem replaceChild_spec {continuation : Unit → TreeProgram Content α} {place : Place}
    (other : Option Place) (rest : Multiset (Place × Node Content))
    (apart : ∀ f ∈ path.head?, pointer f.sibling ≠ some place)
    (parts : contents = pathNodes path (some place) + rest)
    (continues : Runs (continuation ()) (pathNodes path other + rest)
      { vars with root := rootOf path other } post) :
    Runs (replaceChild (parentOf path) (some place) side other >>= continuation) contents
      { vars with root := rootOf path (some place) } post := by
  subst parts
  cases path with
  | nil =>
      rw [replaceChild, parentOf, if_pos rfl]
      exact Runs.assign continues
  | cons f path =>
      have isOther : pointer f.sibling ≠ some place := apart f rfl
      have mem : (f.value.place, frameNode f (parentOf path) (some place)) ∈
          pathNodes (f :: path) (some place) + rest := by
        simp [pathNodes]
      rw [replaceChild, parentOf, if_neg (Option.some_ne_none _), bind_assoc]
      refine Runs.load _ mem ?_
      have stored : ∀ change : Node Content → Node Content,
          change (frameNode f (parentOf path) (some place)) = frameNode f (parentOf path) other →
          Runs (store (some f.value.place) change >>= continuation)
            (pathNodes (f :: path) (some place) + rest)
            { vars with root := rootOf (f :: path) (some place) } post := by
        intro change changed
        refine Runs.store (frameNode f (parentOf path) (some place))
          (nodes (some f.value.place) f.sibling + pathNodes path (some f.value.place) + rest) ?_ ?_
        · rw [pathNodes]
          ac_rfl
        · rw [changed]
          rw [pathNodes, add_assoc] at continues
          exact continues
      by_cases here : f.side = side
      · subst here
        rw [if_pos (show some place = (frameNode f (parentOf path) (some place)).child f.side from
          child_node.symm)]
        exact stored _ setChild_node
      · have isSide : side = !f.side := Bool.eq_not.mpr fun same => here same.symm
        subst isSide
        rw [if_neg (by rw [frameNode, child_node_not]; exact isOther.symm), Bool.not_not]
        exact stored _ setChild_node

/-- A node and the node at the other side of its parent are not the same. -/
theorem apart_of_nodup (path : TreePath (Entry Content)) (t : RBTree (Entry Content))
    (nodup : ((nodes none (plug path t) + extra).map Prod.fst).Nodup) (isNode : t ≠ .nil) :
    ∀ f ∈ path.head?, pointer f.sibling ≠ pointer t := by
  intro f isHead isSame
  rcases path with _ | ⟨f', path⟩
  · cases isHead
  cases isHead
  rcases t with _ | ⟨red, left, entry, right⟩
  · exact isNode rfl
  have focusMem : entry.place ∈ (nodes (some f.value.place) (.node red left entry right)).map
    Prod.fst := by
    simp [nodes]
  have siblingMem : entry.place ∈ (nodes (some f.value.place) f.sibling).map Prod.fst := by
    cases sibling : f.sibling with
    | nil =>
        rw [sibling] at isSame
        cases isSame
    | node red' left' entry' right' =>
        rw [sibling] at isSame
        have same : entry'.place = entry.place := Option.some.inj isSame
        simp [nodes, same]
  have parts : nodes none (plug (f :: path) (.node red left entry right)) + extra =
      nodes (some f.value.place) (.node red left entry right) +
        (nodes (some f.value.place) f.sibling +
        ({(f.value.place, frameNode f (parentOf path) (some entry.place))} +
          pathNodes path (some f.value.place) + extra)) := by
    rw [nodes_plug, pathNodes, parentOf, pointer]
    ac_rfl
  rw [parts, Multiset.map_add, Multiset.nodup_add, Multiset.map_add] at nodup
  exact Multiset.disjoint_left.mp nodup.2.2 focusMem (Multiset.mem_add.mpr (.inl siblingMem))

/-- No two nodes are at the same place. -/
theorem RunsOn.of_nodup {program : TreeProgram Content α}
    (runs : ((nodes none whole + extra).map Prod.fst).Nodup →
      RunsOn program whole extra vars post) :
    RunsOn program whole extra vars post :=
  Runs.of_nodup runs

/-- `TreeRotate`. -/
theorem treeRotate_spec {continuation : Unit → TreeProgram Content α} (x o : Entry Content)
    (xred ored : Bool) (inner outer far : RBTree (Entry Content)) (path : TreePath (Entry Content))
    (focus : whole = plug path
      (RBTree.join (!side) xred x (RBTree.join side ored o inner outer) far))
    (continues : RunsOn (continuation ())
      (plug path (RBTree.join side ored o (RBTree.join (!side) xred x inner far) outer))
      extra vars post) :
    RunsOn (treeRotate (some x.place) side >>= continuation) whole extra vars post := by
  subst focus
  refine RunsOn.of_nodup fun nodup => ?_
  have apart : ∀ f ∈ path.head?, pointer f.sibling ≠ some x.place := by
    have apart := apart_of_nodup path _ nodup join_ne_nil
    rwa [pointer_join] at apart
  rw [RunsOn, nodes_plug, nodes_join, nodes_join, pointer_plug, pointer_join,
    pointer_join] at continues
  rw [RunsOn, nodes_plug, nodes_join, nodes_join, pointer_plug, pointer_join,
    pointer_join, treeRotate]
  simp only [bind_assoc]
  -- `other` and its child at the side of the rotation are read
  refine Runs.load (x.node (!side) (parentOf path) (some o.place) (pointer far) xred) (by simp) ?_
  rw [child_node]
  refine Runs.load (o.node side (some x.place) (pointer inner) (pointer outer) ored) (by simp) ?_
  rw [child_node]
  refine Runs.store (x.node (!side) (parentOf path) (some o.place) (pointer far) xred)
    ({(o.place, o.node side (some x.place) (pointer inner) (pointer outer) ored)} +
      (nodes (some o.place) inner + (nodes (some o.place) outer + nodes (some x.place) far +
        pathNodes path (some x.place) + extra))) (by ac_rfl) ?_
  rw [setChild_node]
  -- the inner subtree comes below `curnode`
  refine reparent_spec inner (some o.place)
    ({(x.place, x.node (!side) (parentOf path) (pointer inner) (pointer far) xred)} +
      ({(o.place, o.node side (some x.place) (pointer inner) (pointer outer) ored)} +
      (nodes (some o.place) outer + nodes (some x.place) far + pathNodes path
        (some x.place) + extra)))
    (by ac_rfl) ?_
  refine Runs.load (x.node (!side) (parentOf path) (pointer inner) (pointer far) xred) (by simp) ?_
  refine Runs.store (o.node side (some x.place) (pointer inner) (pointer outer) ored)
    ({(x.place, x.node (!side) (parentOf path) (pointer inner) (pointer far) xred)} +
      (nodes (some x.place) inner + (nodes (some o.place) outer + nodes (some x.place) far +
        pathNodes path (some x.place) + extra))) (by ac_rfl) ?_
  -- `other` comes to the place of `curnode`
  refine replaceChild_spec (some o.place)
    ({(o.place, o.node side (parentOf path) (pointer inner) (pointer outer) ored)} +
      ({(x.place, x.node (!side) (parentOf path) (pointer inner) (pointer far) xred)} +
      (nodes (some x.place) inner +
        (nodes (some o.place) outer + nodes (some x.place) far + extra)))) apart
    (by simp only [Entry.node]; ac_rfl) ?_
  refine Runs.store (o.node side (parentOf path) (pointer inner) (pointer outer) ored)
    (pathNodes path (some o.place) +
      ({(x.place, x.node (!side) (parentOf path) (pointer inner) (pointer far) xred)} +
      (nodes (some x.place) inner +
        (nodes (some o.place) outer + nodes (some x.place) far + extra))))
    (by ac_rfl) ?_
  rw [setChild_node]
  refine Runs.store (x.node (!side) (parentOf path) (pointer inner) (pointer far) xred)
    (pathNodes path (some o.place) +
      ({(o.place, o.node side (parentOf path) (some x.place) (pointer outer) ored)} +
      (nodes (some x.place) inner +
        (nodes (some o.place) outer + nodes (some x.place) far + extra))))
    (by ac_rfl) ?_
  convert continues using 1
  simp only [Entry.node]
  ac_rfl

end Rules

end Trees

end Paho
