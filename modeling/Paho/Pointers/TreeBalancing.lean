import Paho.Pointers.TreeLinks

/-!
# Balancing a tree in memory

The loops of `Tree.c` that balance a tree do what the balancing of red-black trees does.
-/

namespace Paho

open Records RedBlack

namespace Trees

variable {Content : Type} {extra contents rest : Multiset (Place × Node Content)} {vars : TreeVars}
  {whole t : RBTree (Entry Content)} {path : TreePath (Entry Content)}
  {f p g : Frame (Entry Content)} {α : Type}
  {post : α → Multiset (Place × Node Content) → TreeVars → Prop}

/-- Two red nodes at the same side, and the grandparent comes down. -/
def outerStep (p g : Frame (Entry Content)) (path : TreePath (Entry Content)) :
    TreePath (Entry Content) :=
  ⟨false, p.value, g.side, RBTree.join g.side true g.value p.sibling g.sibling⟩ :: path

/-- The end of `TreeBAASub`. -/
theorem outer_spec {continuation : TreeProgram Content α} (p g : Frame (Entry Content))
    (isNode : t ≠ .nil) (same : p.side = g.side)
    (continues : RunsOn continuation (plug (outerStep p g path) t) extra vars post) :
    RunsOn (do
      let parent := (← load (pointer t)).parent
      setRed parent false
      let grandparent := (← load parent).parent
      setRed grandparent true
      treeRotate grandparent (!g.side)
      continuation) (plug (p :: g :: path) t) extra vars post := by
  rcases p with ⟨pred, pvalue, pside, psibling⟩
  subst same
  refine load_parent_spec isNode fun node isParent => ?_
  rw [isParent]
  refine setRed_frame_spec ⟨pred, pvalue, g.side, psibling⟩ (g :: path) t rfl ?_
  refine load_frame_spec ⟨false, pvalue, g.side, psibling⟩ (g :: path) t rfl ?_
  dsimp only [parent_frameNode, parentOf]
  refine setRed_frame_spec g path (Frame.fill _ _) rfl ?_
  refine treeRotate_spec g.value pvalue true false psibling t g.sibling path ?_ ?_
  · rw [Bool.not_not, join_not]
    rfl
  · rw [Bool.not_not, join_not]
    exact continues

/-- `TreeBAASub`. -/
theorem treeBAASub_spec {continuation : Option Place → TreeProgram Content α} (isNode : t ≠ .nil)
    (continues : RunsOn (continuation (pointer (addStep p g path t).2))
      (plug (addStep p g path t).1 (addStep p g path t).2) extra vars post) :
    RunsOn (treeBAASub (pointer t) (!g.side) >>= continuation)
      (plug (p :: g :: path) t) extra vars post := by
  refine RunsOn.of_nodup fun nodup => ?_
  have apart : pointer p.sibling ≠ pointer t := apart_of_nodup (p :: g :: path) t nodup isNode p rfl
  rw [treeBAASub]
  simp only [bind_assoc]
  refine load_parent_spec isNode fun node isParent => ?_
  rw [isParent]
  refine load_frame_spec p (g :: path) t rfl ?_
  refine load_frame_spec g path (p.fill t) rfl ?_
  dsimp only [parent_frameNode, parentOf]
  rw [child_frameNode_not]
  refine isRed_sibling_spec g path (p.fill t) rfl ?_
  by_cases uncle : g.sibling.isRed
  · rw [if_pos uncle]
    simp only [bind_assoc, pure_bind]
    refine setRed_sibling_spec g path (p.fill t) rfl (ne_nil_of_isRed uncle) ?_
    refine setRed_frame_spec p ({ g with sibling := g.sibling.paint false } :: path) t rfl ?_
    refine setRed_frame_spec { g with sibling := g.sibling.paint false } path _ rfl ?_
    rw [addStep_of_red uncle, pointer_join] at continues
    exact continues
  · rw [if_neg uncle]
    simp only [bind_assoc, pure_bind]
    refine load_frame_spec p (g :: path) t rfl ?_
    by_cases same : p.side = g.side
    · rw [addStep_outer uncle same] at continues
      have outer : pointer t ≠
        (frameNode p (parentOf (g :: path)) (pointer t)).child (!g.side) := by
        rw [← same, child_frameNode_not]
        exact apart.symm
      rw [if_neg outer, pure_bind]
      exact outer_spec p g isNode same continues
    · have isSide : p.side = !g.side := Bool.eq_not.mpr same
      have inner : pointer t =
        (frameNode p (parentOf (g :: path)) (pointer t)).child (!g.side) := by
        rw [← isSide, child_frameNode]
      rcases eq_join g.side isNode with ⟨red, value, isJoin⟩
      generalize t.child g.side = near at isJoin
      generalize t.child (!g.side) = far at isJoin
      subst isJoin
      rw [if_pos inner, Bool.not_not]
      simp only [bind_assoc, pure_bind]
      refine treeRotate_spec p.value value p.red red near far p.sibling (g :: path) ?_ ?_
      · rw [← isSide]
        rfl
      rw [addStep_inner uncle same, pointer_join] at continues
      rw [show some p.value.place =
        pointer (RBTree.join (!g.side) p.red p.value near p.sibling) from pointer_join.symm]
      refine outer_spec ⟨red, value, g.side, far⟩ g join_ne_nil rfl ?_
      rw [join_not, pointer_join]
      exact continues

/-- The side of the focus, found from the left pointer of the node above. -/
theorem ite_child_false {parent hole : Option Place} {left right : TreeProgram Content α}
    (apart : pointer g.sibling ≠ hole) :
    (if hole = (frameNode g parent hole).child false then left else right) = if g.side then
    right else left := by
  rcases g with ⟨red, value, side, sibling⟩
  cases side
  · exact if_pos rfl
  · exact if_neg apart.symm

/-- The loop of `TreeBalanceAfterAdd` ends below a black node. -/
theorem balanceAddFrom_stop {continuation : Unit → TreeProgram Content α} (isNode : t ≠ .nil)
    (stops : path.head?.any Frame.red = false)
    (continues : RunsOn (continuation ()) (plug path t) extra vars post) :
    RunsOn (balanceAddFrom (pointer t) >>= continuation) (plug path t) extra vars post := by
  rw [balanceAddFrom, if_neg (pointer_ne_none isNode)]
  simp only [bind_assoc]
  refine load_parent_spec isNode fun node isParent => ?_
  rw [isParent]
  refine isRed_parent_spec ?_
  rw [stops]
  exact continues

/-- A round of the loop of `TreeBalanceAfterAdd`. -/
theorem balanceAddFrom_step {continuation : Unit → TreeProgram Content α} (isNode : t ≠ .nil)
    (isRed : p.red) (continues : RunsOn
      (balanceAddFrom (pointer (addStep p g path t).2) >>= continuation)
      (plug (addStep p g path t).1 (addStep p g path t).2) extra vars post) :
    RunsOn (balanceAddFrom (pointer t) >>= continuation)
      (plug (p :: g :: path) t) extra vars post := by
  refine RunsOn.of_nodup fun nodup => ?_
  have apart : pointer g.sibling ≠ some p.value.place := by
    have apart : pointer g.sibling ≠ pointer (p.fill t) :=
      apart_of_nodup (g :: path) _ nodup join_ne_nil g rfl
    rwa [pointer_fill] at apart
  rw [balanceAddFrom, if_neg (pointer_ne_none isNode)]
  simp only [bind_assoc]
  refine load_parent_spec isNode fun node isParent => ?_
  rw [isParent]
  refine isRed_parent_spec ?_
  rw [List.head?_cons, Option.any_some, if_pos isRed]
  simp only [bind_assoc]
  refine load_frame_spec p (g :: path) t rfl ?_
  rw [parent_frameNode, parentOf, parentOf, if_neg (Option.some_ne_none _)]
  simp only [bind_assoc]
  refine load_frame_spec g path (p.fill t) rfl ?_
  rw [pointer_fill, ite_child_false apart,
    show (if g.side then treeBAASub (pointer t) false else treeBAASub (pointer t) true) =
      treeBAASub (pointer t) (!g.side) by cases g.side <;> rfl]
  exact treeBAASub_spec isNode continues

/-- The loop of `TreeBalanceAfterAdd`. -/
theorem balanceAddFrom_spec {continuation : Unit → TreeProgram Content α} (isNode : t ≠ .nil)
    (continues : RunsOn (continuation ()) (balanceAdd path t) extra vars post) :
    RunsOn (balanceAddFrom (pointer t) >>= continuation) (plug path t) extra vars post := by
  induction path, t using balanceAdd.induct with
  | case1 p g path t isRed uncle ih =>
      rw [balanceAdd, if_pos isRed, if_pos uncle] at continues
      refine balanceAddFrom_step isNode isRed ?_
      rw [addStep_of_red uncle] at ih continues ⊢
      exact ih join_ne_nil continues
  | case2 p g path t isRed uncle =>
      rw [balanceAdd, if_pos isRed, if_neg uncle] at continues
      refine balanceAddFrom_step isNode isRed ?_
      rcases addStep_of_black uncle isNode with ⟨isNode', stops⟩
      exact balanceAddFrom_stop isNode' stops continues
  | case3 p g path t isBlack =>
      rw [balanceAdd, if_neg isBlack] at continues
      exact balanceAddFrom_stop isNode (by simpa using isBlack) continues
  | case4 p t =>
      by_cases isRed : p.red
      · rw [balanceAddFrom, if_neg (pointer_ne_none isNode)]
        simp only [bind_assoc]
        refine load_parent_spec isNode fun node isParent => ?_
        rw [isParent]
        refine isRed_parent_spec ?_
        rw [List.head?_cons, Option.any_some, if_pos isRed]
        simp only [bind_assoc]
        refine load_frame_spec p [] t rfl ?_
        rw [parent_frameNode, parentOf, if_pos rfl]
        exact continues
      · exact balanceAddFrom_stop isNode (by simpa using isRed) continues
  | case5 t => exact balanceAddFrom_stop isNode rfl continues

/-- `TreeBalanceAfterAdd`. -/
theorem treeBalanceAfterAdd_spec {continuation : Unit → TreeProgram Content α} (isNode : t ≠ .nil)
    (continues : RunsOn (continuation ()) ((balanceAdd path t).paint false) extra vars post) :
    RunsOn (treeBalanceAfterAdd (pointer t) >>= continuation) (plug path t) extra vars post := by
  rw [treeBalanceAfterAdd]
  simp only [bind_assoc]
  refine balanceAddFrom_spec isNode (look_spec ?_)
  exact setRed_spec [] _ rfl (balanceAdd_ne_nil path isNode) continues

/-- The pointer for the focus of the loop of `TreeBalanceAfterRemove`: that of its node, or of
`temp`, which has the parent of a missing child. -/
def StandsFor (curnode parent : Option Place) (t : RBTree (Entry Content))
    (extra : Multiset (Place × Node Content)) : Prop :=
  (t ≠ .nil ∧ curnode = pointer t) ∨
    (t = .nil ∧ parent ≠ none ∧ curnode = some .temp ∧
      (Place.temp, ({ zeroNode with parent := parent } : Node Content)) ∈ extra)

variable {curnode : Option Place}

/-- The node for the focus is read. -/
theorem load_focus_spec {continuation : Node Content → TreeProgram Content α}
    (path : TreePath (Entry Content)) (stands : StandsFor curnode (parentOf path) t extra)
    (continues : ∀ node, node.parent = parentOf path → node.red = t.isRed →
      (if node.content.isSome then curnode else none) = pointer t →
      RunsOn (continuation node) (plug path t) extra vars post) :
    RunsOn (load curnode >>= continuation) (plug path t) extra vars post := by
  rcases stands with ⟨isNode, rfl⟩ | ⟨rfl, -, rfl, mem⟩
  · cases t with
    | nil => exact absurd rfl isNode
    | node red left entry right => exact load_spec false path rfl (continues _ rfl rfl (if_pos rfl))
  · refine Runs.load _ (Multiset.mem_add.mpr (.inr mem)) ?_
    exact continues _ rfl rfl rfl

/-- The sibling of the focus. -/
theorem siblingOf_spec {continuation : Option Place → TreeProgram Content α}
    (f : Frame (Entry Content)) (stands : StandsFor curnode (some f.value.place) t extra)
    (continues : RunsOn (continuation (pointer f.sibling)) (plug (f :: path) t) extra vars post) :
    RunsOn (siblingOf curnode (!f.side) >>= continuation) (plug (f :: path) t) extra vars post := by
  rw [siblingOf]
  simp only [bind_assoc, pure_bind]
  refine load_focus_spec (f :: path) stands fun node isParent _ _ => ?_
  rw [isParent]
  refine load_frame_spec f path t rfl ?_
  rw [child_frameNode_not]
  exact continues

section Sibling

variable {color red side : Bool} {parent value : Entry Content} {near far : RBTree (Entry Content)}
  {continuation : Option Place → TreeProgram Content α}

/-- A red sibling goes up. -/
theorem raiseSibling_of_red (stands : StandsFor curnode (some parent.place) t extra)
    (continues : RunsOn (continuation (pointer near))
      (plug (⟨true, parent, side, near⟩ :: ⟨false, value, side, far⟩ :: path) t) extra vars post) :
    RunsOn (raiseSibling curnode (!side) >>= continuation)
      (plug (⟨color, parent, side, RBTree.join side true value near far⟩ :: path) t)
      extra vars post := by
  rw [raiseSibling]
  simp only [bind_assoc]
  refine siblingOf_spec ⟨color, parent, side, RBTree.join side true value near far⟩ stands ?_
  refine isRed_sibling_spec _ path t rfl ?_
  dsimp only
  rw [isRed_join, if_pos rfl]
  simp only [bind_assoc]
  refine setRed_sibling_spec ⟨color, parent, side, RBTree.join side true value near far⟩ path t rfl
    join_ne_nil ?_
  dsimp only
  rw [paint_join]
  refine load_focus_spec (⟨color, parent, side, RBTree.join side false value near far⟩ :: path)
    stands
    fun node isParent _ _ => ?_
  rw [isParent]
  refine setRed_frame_spec ⟨color, parent, side,
    RBTree.join side false value near far⟩ path t rfl ?_
  refine treeRotate_spec parent value true false near far t path ?_ ?_
  · rw [Bool.not_not, Bool.not_not, join_not]
    rfl
  · rw [Bool.not_not, join_not]
    exact siblingOf_spec ⟨true, parent, side, near⟩ stands continues

/-- A sibling that is not red stays. -/
theorem raiseSibling_of_black (black : f.sibling.isRed = false)
    (stands : StandsFor curnode (some f.value.place) t extra)
    (continues : RunsOn (continuation (pointer f.sibling)) (plug (f :: path) t) extra vars post) :
    RunsOn (raiseSibling curnode (!f.side) >>= continuation)
      (plug (f :: path) t) extra vars post := by
  rw [raiseSibling]
  simp only [bind_assoc]
  refine siblingOf_spec f stands ?_
  refine isRed_sibling_spec f path t rfl ?_
  rw [black, if_neg Bool.false_ne_true, pure_bind]
  exact continues

/-- The focus goes to the near child of the sibling. -/
theorem focus_near (near far : RBTree (Entry Content)) :
    plug (⟨color, parent, side, RBTree.join side red value near far⟩ :: path) t =
      plug (⟨red, value, side, far⟩ :: ⟨color, parent, !side, t⟩ :: path) near :=
  (plug_turn ⟨color, parent, side, RBTree.join side red value near far⟩ path t).symm

/-- The focus goes to the far child of the sibling. -/
theorem focus_far (near far : RBTree (Entry Content)) :
    plug (⟨color, parent, side, RBTree.join side red value near far⟩ :: path) t =
      plug (⟨red, value, !side, near⟩ :: ⟨color, parent, !side, t⟩ :: path) far :=
  (focus_near near far).trans (plug_turn ⟨red, value, side, far⟩ _ near).symm

/-- The outer child of the sibling is black: the inner one, which is red, goes up. -/
theorem raiseInner_of_black {inner outer : RBTree (Entry Content)} {nephew : Entry Content}
    (black : far.isRed = false) (stands : StandsFor curnode (some parent.place) t extra)
    (continues : RunsOn (continuation (some nephew.place))
      (plug (⟨color, parent, side,
        RBTree.join side false nephew inner (RBTree.join side true value outer far)⟩ :: path) t)
      extra vars post) :
    RunsOn (raiseInner curnode (some value.place) (!side) >>= continuation)
      (plug (⟨color, parent, side,
        RBTree.join side red value (RBTree.join side true nephew inner outer) far⟩ :: path) t)
      extra vars post := by
  rw [raiseInner]
  simp only [bind_assoc]
  refine load_spec side _ (focus_near _ _) ?_
  rw [child_node_not]
  refine isBlack_spec _ (focus_far _ _) ?_
  rw [black, Bool.not_false, if_pos rfl, Bool.not_not, child_node]
  simp only [bind_assoc]
  refine setRed_spec _ _ (focus_near _ _) join_ne_nil ?_
  rw [paint_join]
  refine setRed_frame_spec ⟨red, value, side, far⟩ _ _ rfl ?_
  refine treeRotate_spec value nephew true false outer inner far
    (⟨color, parent, !side, t⟩ :: path) ?_ ?_
  · rw [Bool.not_not, join_not]
    rfl
  · rw [Bool.not_not, join_not]
    have turned := plug_turn ⟨color, parent, side, RBTree.join side false nephew inner
      (RBTree.join side true value outer far)⟩ path t
    rw [Frame.turn] at turned
    rw [turned]
    exact siblingOf_spec _ stands (by rwa [pointer_join])

/-- The outer child of the sibling is red. -/
theorem raiseInner_of_red (isRed : far.isRed)
    (continues : RunsOn (continuation (some value.place))
      (plug (⟨color, parent, side, RBTree.join side red value near far⟩ :: path) t)
      extra vars post) :
    RunsOn (raiseInner curnode (some value.place) (!side) >>= continuation)
      (plug (⟨color, parent, side, RBTree.join side red value near far⟩ :: path) t)
      extra vars post := by
  rw [raiseInner]
  simp only [bind_assoc]
  refine load_spec side _ (focus_near _ _) ?_
  rw [child_node_not]
  refine isBlack_spec _ (focus_far _ _) ?_
  rw [isRed, Bool.not_true, if_neg Bool.false_ne_true, pure_bind]
  exact continues

theorem raiseOuter_spec (isRed : far.isRed) (stands : StandsFor curnode (some parent.place) t extra)
    (continues : ∀ done, done =
      plug path (RBTree.join side color value (RBTree.join side false parent t near)
        (far.paint false)) →
      RunsOn (continuation (pointer done)) done extra vars post) :
    RunsOn (raiseOuter curnode (some value.place) (!side) >>= continuation)
      (plug (⟨color, parent, side, RBTree.join side red value near far⟩ :: path) t)
      extra vars post := by
  rw [raiseOuter]
  simp only [bind_assoc]
  refine load_focus_spec (⟨color, parent, side, RBTree.join side red value near far⟩ :: path) stands
    fun node isParent _ _ => ?_
  rw [isParent]
  refine load_frame_spec ⟨color, parent, side, RBTree.join side red value near far⟩ path t rfl ?_
  refine setRed_frame_spec ⟨red, value, side, far⟩ _ _ (focus_near _ _) ?_
  refine setRed_frame_spec ⟨color, parent, side, RBTree.join side color value near far⟩ path t
    (focus_near _ _).symm ?_
  refine load_spec side _ (focus_near _ _) ?_
  rw [child_node_not]
  refine setRed_spec _ _ (focus_far _ _) (ne_nil_of_isRed isRed) ?_
  refine treeRotate_spec parent value false color near (far.paint false) t path ?_ ?_
  · rw [← focus_far, Bool.not_not, Bool.not_not, join_not]
    rfl
  · rw [Bool.not_not, join_not]
    exact continues _ rfl

/-- The children of the sibling are looked at. -/
theorem areBlack_spec {continuation : Bool → TreeProgram Content α} (color red side : Bool)
    (parent value : Entry Content) (near far : RBTree (Entry Content))
    (continues : RunsOn (continuation (!near.isRed && !far.isRed))
      (plug (⟨color, parent, side, RBTree.join side red value near far⟩ :: path) t)
      extra vars post) :
    RunsOn ((isBlack (pointer near) <&&> isBlack (pointer far)) >>= continuation)
      (plug (⟨color, parent, side, RBTree.join side red value near far⟩ :: path) t)
      extra vars post := by
  rw [andM]
  simp only [bind_assoc]
  refine isBlack_spec _ (focus_near _ _) ?_
  cases nearRed : near.isRed with
  | true =>
      rw [nearRed] at continues
      exact continues
  | false =>
      refine isBlack_spec _ (focus_far _ _) ?_
      rw [nearRed] at continues
      exact continues

/-- `TreeBARSub` after its first `if`, when there is no sibling. -/
theorem settleSibling_nil {which : Bool} (stands : StandsFor curnode (some parent.place) t extra)
    (continues : RunsOn (continuation (some parent.place))
      (plug (⟨color, parent, side, .nil⟩ :: path) t)
      extra vars post) :
    RunsOn (settleSibling curnode none which >>= continuation)
      (plug (⟨color, parent, side, .nil⟩ :: path) t)
      extra vars post := by
  rw [settleSibling, if_pos rfl]
  simp only [bind_assoc, pure_bind]
  refine load_focus_spec (⟨color, parent, side, .nil⟩ :: path) stands fun node isParent _ _ => ?_
  rw [isParent]
  exact continues

/-- `TreeBARSub` after its first `if`: one level up, or to the root. -/
theorem settleSibling_spec (f : Frame (Entry Content))
    (stands : StandsFor curnode (some f.value.place) t extra)
    (goesUp : ∀ t', level f t = .up t' → t' ≠ .nil →
      RunsOn (continuation (pointer t')) (plug path t') extra vars post) (ends :
      ∀ t', level f t = .done t' →
      RunsOn (continuation (pointer (plug path t'))) (plug path t') extra vars post) :
    RunsOn (settleSibling curnode (pointer f.sibling) (!f.side) >>= continuation)
      (plug (f :: path) t)
      extra vars post := by
  rcases f with ⟨color, parent, side, sibling⟩
  by_cases isNil : sibling = .nil
  · subst isNil
    have up := goesUp _ level_of_nil join_ne_nil
    rw [pointer_join] at up
    exact settleSibling_nil stands up
  · rcases eq_join side isNil with ⟨red, value, isJoin⟩
    generalize sibling.child side = near at isJoin
    generalize sibling.child (!side) = far at isJoin
    subst isJoin
    dsimp only
    rw [settleSibling, pointer_join, if_neg (Option.some_ne_none _)]
    simp only [bind_assoc]
    refine load_spec side _ (focus_near _ _) ?_
    rw [child_node_not, Bool.not_not, child_node]
    refine areBlack_spec color red side parent value near far ?_
    cases farRed : far.isRed with
    | true =>
        rw [Bool.not_true, Bool.and_false, if_neg Bool.false_ne_true]
        simp only [bind_assoc]
        refine raiseInner_of_red farRed (raiseOuter_spec farRed stands ?_)
        rintro _ rfl
        exact ends _ (level_of_far farRed)
    | false =>
        cases nearRed : near.isRed with
        | true =>
            rcases eq_join side (ne_nil_of_isRed nearRed) with ⟨nephewRed, nephew, isJoin⟩
            generalize near.child side = inner at isJoin
            generalize near.child (!side) = outer at isJoin
            subst isJoin
            rw [isRed_join] at nearRed
            subst nearRed
            rw [Bool.not_true, Bool.false_and, if_neg Bool.false_ne_true]
            simp only [bind_assoc]
            refine raiseInner_of_black farRed stands (raiseOuter_spec isRed_join stands ?_)
            rintro _ rfl
            rw [paint_join]
            exact ends _ (level_of_near farRed)
        | false =>
            rw [Bool.not_false, Bool.and_true, if_pos rfl]
            simp only [bind_assoc, pure_bind]
            refine setRed_frame_spec ⟨red, value, side, far⟩ _ _ (focus_near _ _) ?_
            rw [← focus_near]
            refine load_focus_spec
              (⟨color, parent, side, RBTree.join side true value near far⟩ :: path) stands
              fun node isParent _ _ => ?_
            rw [isParent]
            have up := goesUp _ (level_of_black nearRed farRed) join_ne_nil
            rwa [pointer_join] at up

/-- A round of the loop of `TreeBalanceAfterRemove`. -/
theorem treeBARSub_spec (f : Frame (Entry Content))
    (stands : StandsFor curnode (some f.value.place) t extra) (black : t.isRed = false)
    (continues : ∀ path' t', t' ≠ .nil → (path'.length ≤ path.length ∨ t'.isRed) →
      balanceRemove path' t' = balanceRemove (f :: path) t →
      RunsOn (continuation (pointer t')) (plug path' t') extra vars post) :
    RunsOn (treeBARSub curnode (!f.side) >>= continuation)
      (plug (f :: path) t) extra vars post := by
  rw [treeBARSub]
  simp only [bind_assoc]
  cases isRed : f.sibling.isRed with
  | true =>
      rcases f with ⟨color, parent, side, sibling⟩
      rcases eq_join side (ne_nil_of_isRed isRed) with ⟨red, value, isJoin⟩
      generalize sibling.child side = near at isJoin
      generalize sibling.child (!side) = far at isJoin
      subst isJoin
      have redIsTrue : red = true := by rwa [isRed_join] at isRed
      subst redIsTrue
      have rest : balanceRemove
        (⟨color, parent, side, RBTree.join side true value near far⟩ :: path) t =
          (level ⟨true, parent, side, near⟩ t).rest (⟨false, value, side, far⟩ :: path) :=
        balanceRemove_of_redSibling black
      refine raiseSibling_of_red stands (settleSibling_spec ⟨true, parent, side, near⟩ stands ?_ ?_)
      · intro t' up isNode
        rw [up] at rest
        exact continues _ t' isNode (.inr (isRed_of_up up).2) rest.symm
      · intro t' done
        rw [done] at rest
        exact continues [] _ (plug_ne_nil _ (ne_nil_of_done done)) (.inl (Nat.zero_le _)) rest.symm
  | false =>
      have rest : balanceRemove (f :: path) t = (level f t).rest path :=
        balanceRemove_of_blackSibling black isRed
      refine raiseSibling_of_black isRed stands (settleSibling_spec f stands ?_ ?_)
      · intro t' up isNode
        rw [up] at rest
        exact continues path t' isNode (.inl (Nat.le_refl _)) rest.symm
      · intro t' done
        rw [done] at rest
        exact continues [] (plug path t') (plug_ne_nil path (ne_nil_of_done done))
          (.inl (Nat.zero_le _)) rest.symm

/-- The focus is black or not. -/
theorem isBlack_focus_spec {continuation : Bool → TreeProgram Content α}
    (path : TreePath (Entry Content)) (stands : StandsFor curnode (parentOf path) t extra)
    (continues : RunsOn (continuation (!t.isRed)) (plug path t) extra vars post) :
    RunsOn (isBlack curnode >>= continuation) (plug path t) extra vars post := by
  have someNode : curnode ≠ none := by
    rcases stands with ⟨isNode, rfl⟩ | ⟨-, -, rfl, -⟩
    · exact pointer_ne_none isNode
    · exact Option.some_ne_none _
  rw [isBlack, if_neg someNode]
  simp only [bind_assoc]
  refine load_focus_spec path stands fun node _ isRed _ => ?_
  rw [isRed]
  exact continues

/-- The side of the focus is found, also where neither child is there. -/
theorem chooseSide_spec (stands : StandsFor curnode (some f.value.place) t extra)
    (black : t.isRed = false)
    (continues : ∀ path' t', t' ≠ .nil → (path'.length ≤ path.length ∨ t'.isRed) →
      balanceRemove path' t' = balanceRemove (f :: path) t →
      RunsOn (continuation (pointer t')) (plug path' t') extra vars post) :
    RunsOn ((if pointer t = (frameNode f (parentOf path) (pointer t)).child false then
      treeBARSub curnode true
      else treeBARSub curnode false) >>= continuation) (plug (f :: path) t) extra vars post := by
  refine RunsOn.of_nodup fun nodup => ?_
  by_cases apart : pointer f.sibling ≠ pointer t
  · rw [ite_child_false apart,
      show (if f.side then treeBARSub curnode false else treeBARSub curnode true) =
        treeBARSub curnode (!f.side) by cases f.side <;> rfl]
    exact treeBARSub_spec f stands black continues
  · have isNil : t = .nil := by
      by_contra isNode
      exact apart (apart_of_nodup (f :: path) t nodup isNode f rfl)
    subst isNil
    rcases f with ⟨color, parent, side, sibling⟩
    have noSibling : sibling = .nil := by
      by_contra isNode
      exact pointer_ne_none isNode (not_not.mp apart)
    subst noSibling
    -- both children are missing, and the sides are the same
    have isLeft : pointer (.nil : RBTree (Entry Content)) =
        (frameNode (⟨color, parent, side, .nil⟩ : Frame (Entry Content)) (parentOf path)
          (pointer (.nil : RBTree (Entry Content)))).child false := by
      cases side <;> rfl
    have plugged : plug (⟨color, parent, side, .nil⟩ :: path) .nil =
      plug (⟨color, parent, false, .nil⟩ :: path) .nil := by
      cases side <;> rfl
    have balanced : balanceRemove (⟨color, parent, side, .nil⟩ :: path) .nil =
        balanceRemove (⟨color, parent, false, .nil⟩ :: path) .nil := by
      cases side <;> rfl
    rw [if_pos isLeft, plugged]
    rw [balanced] at continues
    exact treeBARSub_spec ⟨color, parent, false, .nil⟩ stands black continues

/-- The root is another node than the one below a frame. -/
theorem rootOf_mem (f : Frame (Entry Content)) (path : TreePath (Entry Content))
    (hole hole' : Option Place) :
    ∃ place, rootOf (f :: path) hole = some place ∧
      place ∈ (pathNodes (f :: path) hole').map Prod.fst := by
  induction path generalizing f hole hole' with
  | nil => exact ⟨f.value.place, rfl, by simp [pathNodes]⟩
  | cons g path ih =>
      rcases ih g (some f.value.place) (some f.value.place) with ⟨place, isRoot, mem⟩
      refine ⟨place, isRoot, ?_⟩
      rw [pathNodes, Multiset.map_add, Multiset.map_add]
      exact Multiset.mem_add.mpr (.inr (Multiset.mem_add.mpr (.inr mem)))

theorem root_ne_focus (stands : StandsFor curnode (some f.value.place) t extra)
    (nodup : ((nodes none (plug (f :: path) t) + extra).map Prod.fst).Nodup) :
    curnode ≠ pointer (plug (f :: path) t) := by
  intro same
  rcases rootOf_mem f path (pointer t) (pointer t) with ⟨place, isRoot, mem⟩
  rw [pointer_plug, isRoot] at same
  rw [nodes_plug, add_assoc, Multiset.map_add, Multiset.nodup_add] at nodup
  refine Multiset.disjoint_left.mp nodup.2.2 mem ?_
  rw [Multiset.map_add, Multiset.mem_add]
  rcases stands with ⟨isNode, rfl⟩ | ⟨-, -, rfl, isTemp⟩
  · left
    cases t with
    | nil => exact absurd rfl isNode
    | node red left entry right =>
        cases same
        simp [nodes]
  · right
    cases same
    exact Multiset.mem_map_of_mem Prod.fst isTemp

/-- The loop of `TreeBalanceAfterRemove` ends at the root and at a red node. -/
theorem balanceRemoveFrom_stop (isNode : t ≠ .nil) (isEnd : path = [] ∨ t.isRed)
    (continues : RunsOn (continuation (pointer t)) (plug path t) extra vars post) :
    RunsOn (balanceRemoveFrom (pointer t) >>= continuation) (plug path t) extra vars post := by
  refine RunsOn.of_nodup fun nodup => ?_
  have stands (parent : Option Place) : StandsFor (pointer t) parent t extra := .inl ⟨isNode, rfl⟩
  rw [balanceRemoveFrom]
  simp only [bind_assoc]
  refine look_spec ?_
  rcases path with _ | ⟨f, path⟩
  · rw [plug, if_pos rfl, pure_bind]
    exact continues
  · rcases isEnd with none | isRed
    · cases none
    rw [if_neg (root_ne_focus (stands _) nodup)]
    simp only [bind_assoc]
    refine isBlack_focus_spec (f :: path) (stands _) ?_
    rw [isRed, Bool.not_true, if_neg Bool.false_ne_true, pure_bind]
    exact continues

/-- A round of the loop of `TreeBalanceAfterRemove`. -/
theorem balanceRemoveFrom_step (f : Frame (Entry Content))
    (stands : StandsFor curnode (some f.value.place) t extra) (black : t.isRed = false)
    (continues : ∀ path' t', t' ≠ .nil → (path'.length ≤ path.length ∨ t'.isRed) →
      balanceRemove path' t' = balanceRemove (f :: path) t →
      RunsOn (balanceRemoveFrom (pointer t') >>= continuation) (plug path' t') extra vars post) :
    RunsOn (balanceRemoveFrom curnode >>= continuation) (plug (f :: path) t) extra vars post := by
  refine RunsOn.of_nodup fun nodup => ?_
  rw [balanceRemoveFrom]
  simp only [bind_assoc]
  refine look_spec ?_
  rw [if_neg (root_ne_focus stands nodup)]
  simp only [bind_assoc]
  refine isBlack_focus_spec (f :: path) stands ?_
  rw [black, Bool.not_false, if_pos rfl]
  simp only [bind_assoc]
  refine load_focus_spec (f :: path) stands fun node isParent _ isHere => ?_
  rw [isParent, isHere]
  refine load_frame_spec f path t rfl ?_
  exact chooseSide_spec stands black continues

/-- The loop of `TreeBalanceAfterRemove`. -/
theorem balanceRemoveFrom_spec (stands : StandsFor curnode (parentOf path) t extra)
    (continues : ∀ path' t', t' ≠ .nil → (path' = [] ∨ t'.isRed) → balanceRemove path' t' =
      balanceRemove path t →
      RunsOn (continuation (pointer t')) (plug path' t') extra vars post) :
    RunsOn (balanceRemoveFrom curnode >>= continuation) (plug path t) extra vars post := by
  induction length : path.length using Nat.strong_induction_on generalizing path t curnode with
  | _ n ih =>
      by_cases isEnd : t ≠ .nil ∧ (path = [] ∨ t.isRed)
      · rcases stands with ⟨-, rfl⟩ | ⟨isNil, -⟩
        · exact balanceRemoveFrom_stop isEnd.1 isEnd.2 (continues path t isEnd.1 isEnd.2 rfl)
        · exact absurd isNil isEnd.1
      · rcases path with _ | ⟨f, path⟩
        · rcases stands with ⟨isNode, -⟩ | ⟨-, someParent, -⟩
          · exact absurd ⟨isNode, .inl rfl⟩ isEnd
          · exact absurd rfl someParent
        · have black : t.isRed = false := by
            by_contra isRed
            rw [Bool.not_eq_false] at isRed
            exact isEnd ⟨ne_nil_of_isRed isRed, .inr isRed⟩
          refine balanceRemoveFrom_step f stands black fun path' t' isNode shorter same => ?_
          rcases shorter with shorter | isRed
          · refine ih path'.length ?_ (.inl ⟨isNode, rfl⟩)
              (fun path'' t'' isNode' isEnd' same' => ?_) rfl
            · rw [← length, List.length_cons]
              omega
            · exact continues path'' t'' isNode' isEnd' (same'.trans same)
          · exact balanceRemoveFrom_stop isNode (.inr isRed)
              (continues path' t' isNode (.inr isRed) same)

/-- `TreeBalanceAfterRemove`. -/
theorem treeBalanceAfterRemove_spec {continuation : Unit → TreeProgram Content α}
    (stands : StandsFor curnode (parentOf path) t extra)
    (continues : RunsOn (continuation ()) (balanceRemove path t) extra vars post) :
    RunsOn (treeBalanceAfterRemove curnode >>= continuation) (plug path t) extra vars post := by
  rw [treeBalanceAfterRemove]
  simp only [bind_assoc]
  refine balanceRemoveFrom_spec stands fun path' t' isNode isEnd same => ?_
  refine setRed_spec path' t' rfl isNode ?_
  have isPainted : plug path' (t'.paint false) = balanceRemove path' t' := by
    rcases isEnd with rfl | isRed
    · rfl
    · exact (balanceRemove_of_red isRed).symm
  rw [isPainted, same]
  exact continues

end Sibling

end Trees

end Paho
