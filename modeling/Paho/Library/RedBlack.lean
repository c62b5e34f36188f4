/-!
# Red-black trees with a focus

Trees of colored nodes, the path from a node up to the root, and the loops that balance a tree from
a node upwards. A side is `false` for left and `true` for right.
-/

namespace Paho

namespace RedBlack

universe u v

/-- A tree of colored nodes. -/
inductive RBTree (α : Type u) where
  | nil
  | node (red : Bool) (left : RBTree α) (value : α) (right : RBTree α)
  deriving DecidableEq, Repr

namespace RBTree

variable {α : Type u}

/-- A missing node is black. -/
def isRed : RBTree α → Bool
  | nil => false
  | node red _ _ _ => red

/-- The tree with a root of this color. -/
def paint (red : Bool) : RBTree α → RBTree α
  | nil => nil
  | node _ left value right => node red left value right

/-- The child at a side. -/
def child (side : Bool) : RBTree α → RBTree α
  | nil => nil
  | node _ left _ right => if side then right else left

/-- The values in order. -/
def toList : RBTree α → List α
  | nil => []
  | node _ left value right => left.toList ++ value :: right.toList

/-- A node with one child at a side and one at the other side. -/
def join (side red : Bool) (value : α) (near far : RBTree α) : RBTree α :=
  match side with
  | false => node red near value far
  | true => node red far value near

end RBTree

open RedBlack.RBTree

/-- A node above, with the side where the focus is and the child at the other side. -/
structure Frame (α : Type u) where
  red : Bool
  value : α
  side : Bool
  sibling : RBTree α
  deriving DecidableEq, Repr

/-- The node of a frame, with this tree below it. -/
def Frame.fill {α : Type u} (f : Frame α) (t : RBTree α) : RBTree α :=
  join f.side f.red f.value t f.sibling

/-- The frames from a node up to the root. -/
abbrev TreePath (α : Type u) :=
  List (Frame α)

/-- The frame where the focus is at the other side, and this tree at its side. -/
def Frame.turn {α : Type u} (f : Frame α) (t : RBTree α) : Frame α :=
  ⟨f.red, f.value, !f.side, t⟩

variable {α : Type u}

/-- The whole tree. -/
def plug : TreePath α → RBTree α → RBTree α
  | [], t => t
  | f :: path, t => plug path (f.fill t)

/-- One round of the loop after an insertion: the new focus. The focus `t` has a red parent `p` and
a grandparent `g`. -/
def addStep (p g : Frame α) (path : TreePath α) (t : RBTree α) : TreePath α × RBTree α :=
  if g.sibling.isRed then
    (path, join g.side true g.value (join p.side false p.value t p.sibling) (g.sibling.paint false))
  else if p.side = g.side then
    (⟨false, p.value, g.side, join g.side true g.value p.sibling g.sibling⟩ :: path, t)
  else
    match t with
    | nil => (p :: g :: path, nil)
    | node red left value right =>
        let t := node red left value right
        (⟨false, value, g.side, join g.side true g.value (t.child (!g.side)) g.sibling⟩ :: path,
          join g.side p.red p.value p.sibling (t.child g.side))

/-- The loop after an insertion at the focus. -/
def balanceAdd : TreePath α → RBTree α → RBTree α
  | p :: g :: path, t =>
      if p.red then
        if g.sibling.isRed then balanceAdd path (addStep p g path t).2
        else plug (addStep p g path t).1 (addStep p g path t).2
      else plug (p :: g :: path) t
  | [p], t => plug [p] t
  | [], t => t

/-- What a round of the loop after a removal leaves below a node: the node gets one black node less
and the loop goes up, or the tree is balanced. -/
inductive Level (α : Type u) where
  | up (t : RBTree α)
  | done (t : RBTree α)

/-- A round at the node `f` above the focus `t`, when the sibling counts as black. -/
def level (f : Frame α) (t : RBTree α) : Level α :=
  match f.sibling with
  | nil => .up (f.fill t)
  | node red left value right =>
      let sibling := node red left value right
      let near := sibling.child f.side
      let far := sibling.child (!f.side)
      if far.isRed then
        .done (join f.side f.red value (join f.side false f.value t near) (far.paint false))
      else
        match near with
        | node true left' value' right' =>
            let near := node true left' value' right'
            .done (join f.side f.red value' (join f.side false f.value t (near.child f.side))
              (join f.side false value (near.child (!f.side)) far))
        | _ => .up (join f.side f.red f.value t (sibling.paint true))

/-- The loop after a removal below the focus. -/
def balanceRemove : TreePath α → RBTree α → RBTree α
  | [], t => t.paint false
  | f :: path, t =>
      if t.isRed then plug (f :: path) (t.paint false)
      else
        match f.sibling with
        | node true left value right =>
            -- the red sibling goes up, the parent becomes red
            let sibling := node true left value right
            let s : Frame α := ⟨false, value, f.side, sibling.child (!f.side)⟩
            match level ⟨true, f.value, f.side, sibling.child f.side⟩ t with
            | .up t => plug (s :: path) (t.paint false)
            | .done t => (plug (s :: path) t).paint false
        | _ =>
            match level f t with
            | .up t => balanceRemove path t
            | .done t => (plug path t).paint false

section Order

variable {f : Frame α} {path : TreePath α} {t : RBTree α} {side red : Bool} {value : α}
  {near far : RBTree α}

/-- The values in front of the focus. -/
def before : TreePath α → List α
  | [] => []
  | f :: path => before path ++ if f.side then f.sibling.toList ++ [f.value] else []

/-- The values behind the focus. -/
def behind : TreePath α → List α
  | [] => []
  | f :: path => (if f.side then [] else f.value :: f.sibling.toList) ++ behind path

theorem toList_plug : (plug path t).toList = before path ++ t.toList ++ behind path := by
  induction path generalizing t with
  | nil => simp [plug, before, behind]
  | cons f path ih =>
      rcases f with ⟨red, value, side, sibling⟩
      rw [plug, ih]
      cases side <;> simp [Frame.fill, join, toList, before, behind]

theorem before_append (above path : TreePath α) : before (above ++ path) =
    before path ++ before above := by
  induction above with
  | nil => simp [before]
  | cons f above ih => simp [before, ih]

theorem behind_append (above path : TreePath α) : behind (above ++ path) =
    behind above ++ behind path := by
  induction above with
  | nil => simp [behind]
  | cons f above ih => simp [behind, ih]

theorem plug_append (above path : TreePath α) : plug (above ++ path) t =
    plug path (plug above t) := by
  induction above generalizing t with
  | nil => rfl
  | cons f above ih => exact ih

@[simp]
theorem toList_paint : (t.paint red).toList = t.toList := by
  cases t <;> rfl

@[simp]
theorem isRed_paint_false : (t.paint false).isRed = false := by
  cases t <;> rfl

theorem ne_nil_of_isRed (red : t.isRed) : t ≠ nil := by
  rintro rfl
  cases red

@[simp]
theorem isRed_join : (join side red value near far).isRed = red := by
  cases side <;> rfl

@[simp]
theorem paint_join {color : Bool} : (join side red value near far).paint color =
    join side color value near far := by
  cases side <;> rfl

theorem join_not : join (!side) red value near far = join side red value far near := by
  cases side <;> rfl

/-- The focus goes to the other side. -/
theorem plug_turn (f : Frame α) (path : TreePath α) (t : RBTree α) :
    plug (f.turn t :: path) f.sibling = plug (f :: path) t :=
  congrArg (plug path) join_not

@[simp]
theorem join_ne_nil : join side red value near far ≠ nil := by
  cases side <;> simp [join]

/-- A tree that is not empty, with its children at both sides. -/
theorem eq_join (side : Bool) (isNode : t ≠ nil) :
    ∃ red value, t = join side red value (t.child side) (t.child (!side)) := by
  rcases t with _ | ⟨red, left, value, right⟩
  · exact absurd rfl isNode
  · refine ⟨red, value, ?_⟩
    cases side <;> rfl

/-- Trees with the same values in order are exchanged. -/
theorem toList_plug_congr (path : TreePath α) {t t' : RBTree α} (same : t.toList = t'.toList) :
    (plug path t).toList = (plug path t').toList := by
  rw [toList_plug, toList_plug, same]

section AddStep

variable {p g : Frame α}

theorem addStep_of_red (uncle : g.sibling.isRed) : addStep p g path t =
    (path, join g.side true g.value (join p.side false p.value t p.sibling)
      (g.sibling.paint false)) :=
  if_pos uncle

theorem addStep_outer (uncle : ¬g.sibling.isRed) (outer : p.side = g.side) : addStep p g path t =
    (⟨false, p.value, g.side, join g.side true g.value p.sibling g.sibling⟩ :: path, t) :=
  (if_neg uncle).trans (if_pos outer)

theorem addStep_inner (uncle : ¬g.sibling.isRed) (inner : p.side ≠ g.side) :
    addStep p g path (join g.side red value near far) =
      (⟨false, value, g.side, join g.side true g.value far g.sibling⟩ :: path,
        join g.side p.red p.value p.sibling near) := by
  unfold addStep
  rw [if_neg uncle, if_neg inner]
  rcases g with ⟨gred, gvalue, gside, gsibling⟩
  cases gside <;> rfl

/-- After a round that does not go up, the node above is black. -/
theorem addStep_of_black (uncle : ¬g.sibling.isRed) (isNode : t ≠ nil) :
    (addStep p g path t).2 ≠ nil ∧ (addStep p g path t).1.head?.any Frame.red = false := by
  by_cases same : p.side = g.side
  · rw [addStep_outer uncle same]
    exact ⟨isNode, rfl⟩
  · rcases eq_join g.side isNode with ⟨red, value, isJoin⟩
    rw [isJoin, addStep_inner uncle same]
    exact ⟨join_ne_nil, rfl⟩

end AddStep

theorem toList_addStep (p g : Frame α) (path : TreePath α) (t : RBTree α) :
    (plug (addStep p g path t).1 (addStep p g path t).2).toList =
    (plug (p :: g :: path) t).toList := by
  rcases p with ⟨pred, pvalue, pside, psibling⟩
  rcases g with ⟨gred, gvalue, gside, gsibling⟩
  unfold addStep
  split
  · refine toList_plug_congr path ?_
    cases pside <;> cases gside <;> simp [Frame.fill, join, toList]
  · split
    case isTrue outer =>
      subst outer
      refine toList_plug_congr path ?_
      cases pside <;> simp [Frame.fill, join, toList]
    case isFalse inner =>
      cases t with
      | nil => rfl
      | node red left value right =>
          refine toList_plug_congr path ?_
          cases pside <;> cases gside <;> simp_all [Frame.fill, join, toList, child]

/-- Balancing after an insertion keeps the values in order. -/
theorem toList_balanceAdd (path : TreePath α) (t : RBTree α) :
    (balanceAdd path t).toList = (plug path t).toList := by
  induction path, t using balanceAdd.induct with
  | case1 p g path t isRed uncle ih =>
      have step := toList_addStep p g path t
      have stays : (addStep p g path t).1 = path := by
        unfold addStep
        rw [if_pos uncle]
      rw [stays] at step
      rw [balanceAdd, if_pos isRed, if_pos uncle, ih, step]
  | case2 p g path t isRed uncle =>
      rw [balanceAdd, if_pos isRed, if_neg uncle, toList_addStep]
  | case3 p g path t isBlack => rw [balanceAdd, if_neg isBlack]
  | case4 p t => rfl
  | case5 t => rfl

theorem ne_nil_iff_toList : t ≠ nil ↔ t.toList ≠ [] := by
  cases t <;> simp [toList]

theorem plug_ne_nil (path : TreePath α) (isNode : t ≠ nil) : plug path t ≠ nil := by
  rw [ne_nil_iff_toList, toList_plug]
  simp [ne_nil_iff_toList.mp isNode]

theorem balanceAdd_ne_nil (path : TreePath α) (isNode : t ≠ nil) : balanceAdd path t ≠ nil := by
  rw [ne_nil_iff_toList, toList_balanceAdd]
  exact ne_nil_iff_toList.mp (plug_ne_nil path isNode)

section Level

variable {color : Bool} {parent nephew : α} {inner outer : RBTree α}

theorem level_of_nil : level ⟨color, parent, side, nil⟩ t = .up (join side color parent t nil) :=
  rfl

theorem level_of_far (isRed : far.isRed) :
    level ⟨color, parent, side, join side red value near far⟩ t =
    .done (join side color value (join side false parent t near) (far.paint false)) := by
  cases side <;> simp [level, join, child, isRed]

theorem level_of_near (black : far.isRed = false) :
    level ⟨color, parent, side, join side red value (join side true nephew inner outer) far⟩ t =
      .done (join side color nephew (join side false parent t inner)
        (join side false value outer far)) := by
  cases side <;> simp [level, join, child, black]

theorem level_of_black (nearBlack : near.isRed = false) (farBlack : far.isRed = false) :
    level ⟨color, parent, side, join side red value near far⟩ t =
      .up (join side color parent t (join side true value near far)) := by
  rcases near with _ | ⟨nearRed, left, nearValue, right⟩
  · cases side <;> simp [level, join, child, farBlack, paint]
  · have isBlack : nearRed = false := nearBlack
    subst isBlack
    cases side <;> simp [level, join, child, farBlack, paint]

/-- The node that gets one black node less keeps its color. -/
theorem isRed_of_up {f : Frame α} {t' : RBTree α} (up : level f t = .up t') :
    t' ≠ nil ∧ t'.isRed = f.red := by
  unfold level at up
  split at up
  · cases up
    exact ⟨join_ne_nil, isRed_join⟩
  · dsimp only at up
    split at up
    · cases up
    · split at up
      · cases up
      · cases up
        exact ⟨join_ne_nil, isRed_join⟩

theorem ne_nil_of_done {f : Frame α} {t' : RBTree α} (done : level f t = .done t') : t' ≠ nil := by
  unfold level at done
  split at done
  · cases done
  · dsimp only at done
    split at done
    · cases done
      exact join_ne_nil
    · split at done
      · cases done
        exact join_ne_nil
      · cases done

/-- The tree that is left when the focus is one level up, or the root. -/
def Level.rest (path : TreePath α) : Level α → RBTree α
  | up t => balanceRemove path t
  | done t => (plug path t).paint false

theorem balanceRemove_of_red (isRed : t.isRed) : balanceRemove path t =
    plug path (t.paint false) := by
  cases path with
  | nil => rfl
  | cons f path => rw [balanceRemove, if_pos isRed]

theorem balanceRemove_of_redSibling (black : t.isRed = false) :
    balanceRemove (⟨color, parent, side, join side true value near far⟩ :: path) t =
      (level ⟨true, parent, side, near⟩ t).rest (⟨false, value, side, far⟩ :: path) := by
  have isMatch : balanceRemove (⟨color, parent, side, join side true value near far⟩ :: path) t =
      match level ⟨true, parent, side, near⟩ t with
      | .up t => plug (⟨false, value, side, far⟩ :: path) (t.paint false)
      | .done t => (plug (⟨false, value, side, far⟩ :: path) t).paint false := by
    rw [balanceRemove, black, if_neg Bool.false_ne_true]
    cases side <;> rfl
  rw [isMatch]
  cases next : level ⟨true, parent, side, near⟩ t with
  | done t' => rfl
  | up t' => exact (balanceRemove_of_red (isRed_of_up next).2).symm

theorem balanceRemove_of_blackSibling {f : Frame α} (black : t.isRed = false)
    (sibling : f.sibling.isRed = false) :
    balanceRemove (f :: path) t = (level f t).rest path := by
  rw [balanceRemove, black, if_neg Bool.false_ne_true]
  split
  · rename_i isSibling
    rw [isSibling] at sibling
    cases sibling
  · cases level f t <;> rfl

end Level

/-- The subtree that a round leaves. -/
def Level.tree : Level α → RBTree α
  | up t | done t => t

theorem toList_level : (level f t).tree.toList = (f.fill t).toList := by
  rcases f with ⟨red, value, side, sibling⟩
  unfold level
  split
  case h_1 => rfl
  case h_2 sred left svalue right is =>
    cases is
    dsimp only
    split
    · cases side <;> simp [Level.tree, Frame.fill, join, toList, child]
    · split
      case h_1 nearIs =>
        cases side <;> simp_all [Level.tree, Frame.fill, join, toList, child]
      case h_2 => cases side <;> simp [Level.tree, Frame.fill, join, toList, paint]

/-- Balancing after a removal keeps the values in order. -/
theorem toList_balanceRemove (path : TreePath α) (t : RBTree α) :
    (balanceRemove path t).toList = (plug path t).toList := by
  induction path generalizing t with
  | nil => exact toList_paint
  | cons f path ih =>
      rw [balanceRemove]
      split
      · exact toList_plug_congr _ toList_paint
      · split
        case h_1 left value right sibling =>
          have kept := toList_level (f :=
            ⟨true, f.value, f.side, (node true left value right).child f.side⟩)
            (t := t)
          have whole : (plug
            (⟨false, value, f.side, (node true left value right).child (!f.side)⟩ :: path)
              (Frame.fill ⟨true, f.value, f.side,
                (node true left value right).child f.side⟩ t)).toList =
              (plug (f :: path) t).toList := by
            refine toList_plug_congr path ?_
            rcases f with ⟨red, fvalue, side, _⟩
            cases sibling
            cases side <;> simp [Frame.fill, join, toList, child]
          dsimp only
          split
          case h_1 t' next =>
            rw [next] at kept
            rw [← whole]
            exact toList_plug_congr _ (toList_paint.trans kept)
          case h_2 t' next =>
            rw [next] at kept
            rw [toList_paint, ← whole]
            exact toList_plug_congr _ kept
        case h_2 =>
          have kept := toList_level (f := f) (t := t)
          split
          case h_1 t' next =>
            rw [next] at kept
            rw [ih]
            exact toList_plug_congr _ kept
          case h_2 t' next =>
            rw [next] at kept
            rw [toList_paint]
            exact toList_plug_congr _ kept

end Order

end RedBlack

end Paho
