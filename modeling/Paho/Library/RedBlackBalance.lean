import Mathlib.Algebra.Group.Nat.Defs
import Mathlib.Data.Nat.Log
import Mathlib.Tactic.Tauto
import Paho.Library.RedBlack

/-!
# The balance of red-black trees

No red node has a red child, and all ways down to a missing child have as many black nodes.
Balancing after an insertion and after a removal restores this.
-/

namespace Paho

namespace RedBlack

open RedBlack.RBTree

universe u

variable {α : Type u}

/-- No red node has a red child, and all ways down have this number of black nodes. -/
def Balanced : RBTree α → Nat → Prop
  | nil, n => n = 0
  | node true left _ right,
  n => left.isRed = false ∧ right.isRed = false ∧ Balanced left n ∧ Balanced right n
  | node false left _ right, n => ∃ m, n = m + 1 ∧ Balanced left m ∧ Balanced right m

/-- The number of black nodes of a path. -/
def blacks : TreePath α → Nat
  | [] => 0
  | f :: path => (if f.red then 0 else 1) + blacks path

/-- The node above the focus is black. -/
def BelowBlack (path : TreePath α) : Prop :=
  path.head?.map Frame.red = some false

/-- The frames are balanced around a focus below which every way down has this number of black
nodes. The node above a red one is black. -/
def Accepts : TreePath α → Nat → Prop
  | [], _ => True
  | f :: path, n => Balanced f.sibling n ∧ (f.red = true → f.sibling.isRed = false ∧
    BelowBlack path) ∧
      Accepts path (n + if f.red then 0 else 1)

/-- A balanced tree with a black root. -/
def IsRedBlack (t : RBTree α) : Prop :=
  t.isRed = false ∧ ∃ n, Balanced t n

variable {t near far : RBTree α} {path : TreePath α} {f : Frame α} {side red : Bool}
  {value : α} {n m : Nat}

theorem balanced_join_red : Balanced (join side true value near far) n ↔
    near.isRed = false ∧ far.isRed = false ∧ Balanced near n ∧ Balanced far n := by
  cases side
  · rfl
  · rw [join, Balanced]
    tauto

theorem balanced_join_black : Balanced (join side false value near far) (n + 1) ↔
    Balanced near n ∧ Balanced far n := by
  cases side <;> simp [join, Balanced, and_comm]

theorem balanced_join_black_iff : Balanced (join side false value near far) n ↔
    ∃ m, n = m + 1 ∧ Balanced near m ∧ Balanced far m := by
  cases side <;> simp [join, Balanced, and_comm]

/-- The number of black nodes is that of every way down. -/
theorem Balanced.unique (balanced : Balanced t n) (balanced' : Balanced t m) : n = m := by
  induction t generalizing n m with
  | nil => exact balanced.trans balanced'.symm
  | node red left value right leftIh _ =>
      cases red with
      | true => exact leftIh balanced.2.2.1 balanced'.2.2.1
      | false =>
          rcases balanced with ⟨n, rfl, balanced, -⟩
          rcases balanced' with ⟨m, rfl, balanced', -⟩
          rw [leftIh balanced balanced']

/-- The root is painted black. -/
theorem Balanced.paint_false (balanced : Balanced t n) :
    Balanced (t.paint false) (n + if t.isRed then 1 else 0) := by
  rcases t with _ | ⟨red, left, value, right⟩
  · exact balanced
  · cases red with
    | true => exact ⟨n, rfl, balanced.2.2⟩
    | false => exact balanced

/-- A black node with black children is painted red. -/
theorem balanced_paint_true (nearBlack : near.isRed = false) (farBlack : far.isRed = false)
    (balanced : Balanced (join side false value near far) (n + 1)) :
    Balanced (join side true value near far) n :=
  balanced_join_red.mpr ⟨nearBlack, farBlack, balanced_join_black.mp balanced⟩

/-- A node of any color with black children. -/
theorem balanced_join_of_black (side red : Bool) (value : α) (nearBlack : near.isRed = false)
    (farBlack : far.isRed = false) (balanced : Balanced near n) (balanced' : Balanced far n) :
    Balanced (join side red value near far) (n + if red then 0 else 1) := by
  cases red with
  | true => exact balanced_join_red.mpr ⟨nearBlack, farBlack, balanced, balanced'⟩
  | false => exact balanced_join_black.mpr ⟨balanced, balanced'⟩

theorem paint_of_black (black : t.isRed = false) : t.paint false = t := by
  rcases t with _ | ⟨red, left, value, right⟩
  · rfl
  · rw [show red = false from black]
    rfl

/-- A black node above the focus. -/
theorem accepts_black (accepts : Accepts path (n + 1)) (balanced : Balanced t n) :
    Accepts (⟨false, value, side, t⟩ :: path) n :=
  ⟨balanced, (fun none => by cases none), accepts⟩

theorem balanced_fill (accepts : Accepts (f :: path) n) (balanced : Balanced t n)
    (black : t.isRed = true → BelowBlack (f :: path)) :
    Balanced (f.fill t) (n + if f.red then 0 else 1) := by
  rcases f with ⟨red, value, side, sibling⟩
  cases red with
  | true =>
      refine balanced_join_red.mpr ⟨?_, (accepts.2.1 rfl).1, balanced, accepts.1⟩
      by_contra isRed
      cases black (by simpa using isRed)
  | false => exact balanced_join_black.mpr ⟨balanced, accepts.1⟩

/-- A balanced subtree is put into balanced frames. -/
theorem balanced_plug (accepts : Accepts path n) (balanced : Balanced t n)
    (black : t.isRed = true → BelowBlack path) :
    Balanced (plug path t) (n + blacks path) ∧ (plug path t).isRed = false := by
  induction path generalizing t n with
  | nil =>
      refine ⟨balanced, ?_⟩
      by_contra isRed
      rw [Bool.not_eq_false] at isRed
      cases black isRed
  | cons f path ih =>
      have filled := balanced_fill accepts balanced black
      have next := ih accepts.2.2 filled fun isRed => by
        rw [Frame.fill, isRed_join] at isRed
        exact (accepts.2.1 isRed).2
      rw [plug, blacks, ← Nat.add_assoc]
      exact next

/-- A focus of a balanced tree. -/
theorem accepts_of_plug (balanced : Balanced (plug path t) m)
    (black : (plug path t).isRed = false) :
    ∃ n, m = n + blacks path ∧ Accepts path n ∧ Balanced t n ∧
      (t.isRed = true → BelowBlack path) := by
  induction path generalizing t with
  | nil =>
      refine ⟨m, rfl, trivial, balanced, fun isRed => ?_⟩
      rw [plug] at black
      rw [black] at isRed
      cases isRed
  | cons f path ih =>
      rcases ih balanced black with ⟨n, rfl, accepts, filled, isBelow⟩
      rcases f with ⟨red, value, side, sibling⟩
      rw [Frame.fill, isRed_join] at isBelow
      cases red with
      | true =>
          rcases balanced_join_red.mp filled with ⟨nearBlack, farBlack, near, far⟩
          refine ⟨n, by simp [blacks], ⟨far, fun _ => ⟨farBlack, isBelow rfl⟩, accepts⟩, near,
            fun isRed => ?_⟩
          rw [nearBlack] at isRed
          cases isRed
      | false =>
          rcases balanced_join_black_iff.mp filled with ⟨k, rfl, near, far⟩
          refine ⟨k, by simp [blacks, Nat.add_assoc], ⟨far, (fun none => by cases none), accepts⟩,
            near, fun _ => rfl⟩

section Insertion

/-- A balanced tree is balanced when its root is painted black. -/
theorem isRedBlack_paint (balanced : Balanced t n) : IsRedBlack (t.paint false) :=
  ⟨isRed_paint_false, _, balanced.paint_false⟩

/-- The focus is a black node below a red one at the inner side, and the uncle is not red. The loop
after an insertion takes it for a new node, and the ways below it get shorter. -/
def Unsafe : TreePath α → RBTree α → Prop
  | p :: g :: _, t => p.red = true ∧ t.isRed = false ∧ g.sibling.isRed = false ∧ p.side ≠ g.side
  | _, _ => False

theorem not_unsafe_of_red (isRed : t.isRed = true) : ¬Unsafe path t := by
  rcases path with _ | ⟨p, _ | ⟨g, path⟩⟩
  · exact id
  · exact id
  · rintro ⟨-, black, -⟩
    rw [isRed] at black
    cases black

/-- Balancing after an insertion at the focus, or where nothing was inserted and the focus is safe.
-/
theorem isRedBlack_balanceAdd (accepts : Accepts path n) (balanced : Balanced t n)
    (isNode : t ≠ nil) (safe : ¬Unsafe path t) :
    IsRedBlack ((balanceAdd path t).paint false) := by
  induction path, t using balanceAdd.induct generalizing n with
  | case1 p g path t isRed uncle ih =>
      rcases accepts with ⟨psibling, pred, gsibling, gred, accepts⟩
      have gBlack : g.red = false := Option.some.inj (pred isRed).2
      have uncleBlack := gsibling.paint_false
      rw [isRed, if_pos rfl, Nat.add_zero] at gsibling accepts uncleBlack
      rw [gBlack, if_neg Bool.false_ne_true] at accepts
      rw [uncle, if_pos rfl] at uncleBlack
      rw [balanceAdd, if_pos isRed, if_pos uncle]
      rw [addStep_of_red uncle] at ih ⊢
      refine ih accepts ?_ join_ne_nil (not_unsafe_of_red isRed_join)
      exact balanced_join_red.mpr ⟨isRed_join, isRed_paint_false,
        balanced_join_black.mpr ⟨balanced, psibling⟩, uncleBlack⟩
  | case2 p g path t isRed uncle =>
      rcases accepts with ⟨psibling, pred, gsibling, gred, accepts⟩
      have gBlack : g.red = false := Option.some.inj (pred isRed).2
      rw [isRed, if_pos rfl, Nat.add_zero] at gsibling accepts
      rw [gBlack, if_neg Bool.false_ne_true] at accepts
      rw [Bool.not_eq_true] at uncle
      have notRed : ¬g.sibling.isRed = true := by
        rw [uncle]
        exact Bool.false_ne_true
      rw [balanceAdd, if_pos isRed, if_neg notRed]
      by_cases same : p.side = g.side
      · rw [addStep_outer notRed same]
        have isBalanced : Balanced (join g.side true g.value p.sibling g.sibling) n :=
          balanced_join_red.mpr ⟨(pred isRed).1, uncle, psibling, gsibling⟩
        exact isRedBlack_paint
          (balanced_plug (accepts_black accepts isBalanced) balanced fun _ => rfl).1
      · have tRed : t.isRed = true := by
          by_contra tBlack
          exact safe ⟨isRed, by simpa using tBlack, uncle, same⟩
        rcases eq_join g.side isNode with ⟨red, value, isJoin⟩
        generalize t.child g.side = near at isJoin
        generalize t.child (!g.side) = far at isJoin
        subst isJoin
        rw [isRed_join] at tRed
        subst tRed
        rcases balanced_join_red.mp balanced with ⟨nearBlack, farBlack, near, far⟩
        rw [addStep_inner notRed same, isRed]
        have isBalanced := balanced_join_of_black g.side true g.value farBlack uncle far gsibling
        have isBalanced' :=
          balanced_join_of_black g.side true p.value (pred isRed).1 nearBlack psibling near
        exact isRedBlack_paint
          (balanced_plug (accepts_black accepts isBalanced) isBalanced' fun _ => rfl).1
  | case3 p g path t isBlack =>
      rw [balanceAdd, if_neg isBlack]
      exact isRedBlack_paint
        (balanced_plug accepts balanced fun _ => by simpa [BelowBlack] using isBlack).1
  | case4 p t =>
      have black : p.red = false := by
        by_contra isRed
        cases (accepts.2.1 (by simpa using isRed)).2
      exact isRedBlack_paint
        (balanced_plug accepts balanced fun _ => by simpa [BelowBlack] using black).1
  | case5 t => exact isRedBlack_paint balanced

/-- Below the root, a focus stays when the root is painted. -/
theorem exists_plug_paint (f : Frame α) (path : TreePath α) (t : RBTree α) :
    ∃ f' path', (plug (f :: path) t).paint false = plug (f' :: path') t := by
  induction path generalizing f t with
  | nil => exact ⟨{ f with red := false }, [], paint_join⟩
  | cons g path ih =>
      rcases ih g (f.fill t) with ⟨g', path', same⟩
      exact ⟨f, g' :: path', same⟩

/-- An unsafe focus is left with ways of different lengths. -/
theorem not_isRedBlack_of_unsafe (accepts : Accepts path n) (balanced : Balanced t n)
    (isNode : t ≠ nil) (isUnsafe : Unsafe path t) :
    ¬IsRedBlack ((balanceAdd path t).paint false) := by
  rcases path with _ | ⟨p, _ | ⟨g, path⟩⟩
  · exact isUnsafe.elim
  · exact isUnsafe.elim
  rcases isUnsafe with ⟨isRed, black, uncle, inner⟩
  have notRed : ¬g.sibling.isRed = true := by
    rw [uncle]
    exact Bool.false_ne_true
  rcases eq_join g.side isNode with ⟨red, value, isJoin⟩
  generalize t.child g.side = near at isJoin
  generalize t.child (!g.side) = far at isJoin
  subst isJoin
  rw [isRed_join] at black
  subst black
  rcases balanced_join_black_iff.mp balanced with ⟨n, rfl, near_n, -⟩
  rw [balanceAdd, if_pos isRed, if_neg notRed, addStep_inner notRed inner, isRed]
  rcases exists_plug_paint ⟨false, value, g.side, join g.side true g.value far g.sibling⟩ path
    (join g.side true p.value p.sibling near) with ⟨f', path', painted⟩
  rw [painted]
  rintro ⟨rootBlack, m, whole⟩
  rcases accepts_of_plug whole rootBlack with ⟨k, -, -, isBalanced, -⟩
  rcases balanced_join_red.mp isBalanced with ⟨-, -, psibling, near'⟩
  have same := psibling.unique accepts.1
  have same' := near'.unique near_n
  omega

end Insertion

section Removal

/-- A round after a removal: the node above has one black node less, or the tree is balanced again.
-/
theorem balanced_level {t' : RBTree α} (isBalanced : Balanced f.sibling (n + 1))
    (siblingBlack : f.sibling.isRed = false) (balanced : Balanced t n) :
    (level f t = .up t' → Balanced (t'.paint false) (n + 1)) ∧
      (level f t = .done t' → t'.isRed = f.red ∧ Balanced t' (n + 1 + if f.red then 0 else 1)) := by
  rcases f with ⟨color, parent, side, sibling⟩
  have isNode : sibling ≠ nil := by
    rintro rfl
    cases isBalanced
  rcases eq_join side isNode with ⟨red, value, isJoin⟩
  generalize sibling.child side = near at isJoin
  generalize sibling.child (!side) = far at isJoin
  subst isJoin
  have isBlack : red = false := by rwa [isRed_join] at siblingBlack
  subst isBlack
  rcases balanced_join_black.mp isBalanced with ⟨near_n, far_n⟩
  cases farRed : far.isRed with
  | true =>
      rw [level_of_far farRed]
      refine ⟨(fun none => by cases none), fun done => ?_⟩
      cases done
      have painted := far_n.paint_false
      rw [farRed, if_pos rfl] at painted
      exact ⟨isRed_join, balanced_join_of_black _ color _ isRed_join isRed_paint_false
        (balanced_join_black.mpr ⟨balanced, near_n⟩) painted⟩
  | false =>
      cases nearRed : near.isRed with
      | true =>
          rcases eq_join side (ne_nil_of_isRed nearRed) with ⟨nephewRed, nephew, isJoin⟩
          generalize near.child side = inner at isJoin
          generalize near.child (!side) = outer at isJoin
          subst isJoin
          rw [isRed_join] at nearRed
          subst nearRed
          rcases balanced_join_red.mp near_n with ⟨-, -, inner_n, outer_n⟩
          rw [level_of_near farRed]
          refine ⟨(fun none => by cases none), fun done => ?_⟩
          cases done
          exact ⟨isRed_join, balanced_join_of_black _ color _ isRed_join isRed_join
            (balanced_join_black.mpr ⟨balanced, inner_n⟩)
              (balanced_join_black.mpr ⟨outer_n, far_n⟩)⟩
      | false =>
          rw [level_of_black nearRed farRed]
          refine ⟨fun up => ?_, fun none => by cases none⟩
          cases up
          rw [paint_join]
          exact balanced_join_black.mpr ⟨balanced, balanced_paint_true nearRed farRed isBalanced⟩

/-- Balancing after a removal: the ways through the focus have one black node less, unless it is
red. -/
theorem isRedBlack_balanceRemove (accepts : Accepts path (n + 1))
    (balanced : Balanced (t.paint false) (if t.isRed then n + 1 else n)) :
    IsRedBlack (balanceRemove path t) := by
  induction path generalizing t n with
  | nil => exact ⟨isRed_paint_false, _, balanced⟩
  | cons f path ih =>
      cases isRed : t.isRed with
      | true =>
          rw [isRed, if_pos rfl] at balanced
          rw [balanceRemove_of_red isRed]
          have plugged := balanced_plug accepts balanced fun none => by
            rw [isRed_paint_false] at none; cases none
          exact ⟨plugged.2, _, plugged.1⟩
      | false =>
          rw [isRed, if_neg Bool.false_ne_true, paint_of_black isRed] at balanced
          rcases f with ⟨color, parent, side, sibling⟩
          cases siblingRed : sibling.isRed with
          | true =>
              have isBlack : color = false := by
                by_contra isRed
                have apart := (accepts.2.1 (by simpa using isRed)).1
                rw [siblingRed] at apart
                cases apart
              subst isBlack
              rcases eq_join side (ne_nil_of_isRed siblingRed) with ⟨red, value, isJoin⟩
              generalize sibling.child side = near at isJoin
              generalize sibling.child (!side) = far at isJoin
              subst isJoin
              have redIsTrue : red = true := by rwa [isRed_join] at siblingRed
              subst redIsTrue
              rcases balanced_join_red.mp accepts.1 with ⟨nearBlack, farBlack, near_n, far_n⟩
              have above : Accepts (⟨false, value, side, far⟩ :: path) (n + 1) :=
                accepts_black accepts.2.2 far_n
              rw [balanceRemove_of_redSibling isRed]
              cases next : level ⟨true, parent, side, near⟩ t with
              | up t' =>
                  have painted := (balanced_level near_n nearBlack balanced).1 next
                  have plugged := balanced_plug above painted fun none => by
                    rw [isRed_paint_false] at none; cases none
                  rw [Level.rest, balanceRemove_of_red (isRed_of_up next).2]
                  exact ⟨plugged.2, _, plugged.1⟩
              | done t' =>
                  have isDone := (balanced_level near_n nearBlack balanced).2 next
                  exact isRedBlack_paint (balanced_plug above isDone.2 fun _ => rfl).1
          | false =>
              rw [balanceRemove_of_blackSibling isRed siblingRed]
              cases next : level ⟨color, parent, side, sibling⟩ t with
              | up t' =>
                  have painted := (balanced_level accepts.1 siblingRed balanced).1 next
                  have sameColor := (isRed_of_up next).2
                  cases color with
                  | true =>
                      refine ih accepts.2.2 ?_
                      rw [sameColor]
                      exact painted
                  | false =>
                      refine ih accepts.2.2 ?_
                      rw [sameColor]
                      exact painted
              | done t' =>
                  have isDone := (balanced_level accepts.1 siblingRed balanced).2 next
                  refine isRedBlack_paint (balanced_plug accepts.2.2 isDone.2 fun isRed => ?_).1
                  rw [isDone.1] at isRed
                  exact (accepts.2.1 isRed).2

end Removal

section Ways

/-- No red node has a red child. -/
def Alternating : RBTree α → Prop
  | nil => True
  | RBTree.node red left _ right => (red = true → left.isRed = false ∧ right.isRed = false) ∧
      Alternating left ∧ Alternating right

/-- A way down to a missing child, with its number of nodes and of black nodes. -/
inductive Way : RBTree α → Nat → Nat → Prop
  | nil : Way nil 0 0
  | node {red : Bool} {left right : RBTree α} {value : α} {length blacks : Nat} (side : Bool)
      (below : Way ((RBTree.node red left value right).child side) length blacks) :
      Way (RBTree.node red left value right) (length + 1) (blacks + if red then 0 else 1)

variable {length blacks : Nat}

theorem alternating_of_plug (alternating : Alternating (plug path t)) : Alternating t := by
  induction path generalizing t with
  | nil => exact alternating
  | cons f path ih =>
      rcases f with ⟨red, value, side, sibling⟩
      rcases ih alternating with filled
      cases side with
      | false => exact filled.2.1
      | true => exact filled.2.2

theorem exists_way (t : RBTree α) : ∃ length blacks, Way t length blacks := by
  induction t with
  | nil => exact ⟨_, _, .nil⟩
  | node red left value right ih _ =>
      rcases ih with ⟨length, blacks, below⟩
      exact ⟨_, _, .node false below⟩

theorem Way.left {left right : RBTree α} (below : Way left length blacks) :
    Way (RBTree.node red left value right) (length + 1) (blacks + if red then 0 else 1) :=
  .node false below

theorem Way.right {left right : RBTree α} (below : Way right length blacks) :
    Way (RBTree.node red left value right) (length + 1) (blacks + if red then 0 else 1) :=
  .node true below

/-- What balanced trees are. -/
theorem balanced_iff : Balanced t n ↔
    Alternating t ∧ ∀ length blacks, Way t length blacks → blacks = n := by
  induction t generalizing n with
  | nil =>
      refine ⟨?_, fun ways => (ways.2 0 0 .nil).symm⟩
      rintro rfl
      refine ⟨trivial, fun length blacks way => ?_⟩
      cases way
      rfl
  | node red left value right leftIh rightIh =>
      cases red with
      | true =>
          constructor
          · rintro ⟨leftBlack, rightBlack, left_n, right_n⟩
            refine ⟨⟨fun _ => ⟨leftBlack, rightBlack⟩, (leftIh.mp left_n).1,
              (rightIh.mp right_n).1⟩, ?_⟩
            rintro _ _ (_ | ⟨side, below⟩)
            cases side with
            | false => exact (leftIh.mp left_n).2 _ _ below
            | true => exact (rightIh.mp right_n).2 _ _ below
          · rintro ⟨⟨apart, leftAlternates, rightAlternates⟩, ways⟩
            refine ⟨(apart rfl).1, (apart rfl).2,
              leftIh.mpr ⟨leftAlternates, fun length blacks below => ?_⟩,
              rightIh.mpr ⟨rightAlternates, fun length blacks below => ?_⟩⟩
            · exact ways _ _ below.left
            · exact ways _ _ below.right
      | false =>
          constructor
          · rintro ⟨m, rfl, left_m, right_m⟩
            refine ⟨⟨(fun none => by cases none), (leftIh.mp left_m).1, (rightIh.mp right_m).1⟩, ?_⟩
            rintro _ _ (_ | ⟨side, below⟩)
            cases side with
            | false => exact congrArg (· + 1) ((leftIh.mp left_m).2 _ _ below)
            | true => exact congrArg (· + 1) ((rightIh.mp right_m).2 _ _ below)
          · rintro ⟨⟨-, leftAlternates, rightAlternates⟩, ways⟩
            rcases exists_way left with ⟨_, m, way⟩
            have isSucc : m + 1 = n := ways _ _ way.left
            subst isSucc
            refine ⟨m, rfl, leftIh.mpr ⟨leftAlternates, fun length blacks below => ?_⟩,
              rightIh.mpr ⟨rightAlternates, fun length blacks below => ?_⟩⟩
            · exact Nat.succ.inj (ways _ _ below.left)
            · exact Nat.succ.inj (ways _ _ below.right)

/-- A way has at most as many red nodes as black ones, and the root. -/
theorem Balanced.length_le (balanced : Balanced t n) (way : Way t length blacks) :
    length ≤ 2 * n + if t.isRed then 1 else 0 := by
  induction way generalizing n with
  | nil => exact Nat.zero_le _
  | @node red left right value length blacks side below ih =>
      cases red with
      | true =>
          rcases balanced with ⟨leftBlack, rightBlack, left_n, right_n⟩
          have childBalanced : Balanced ((RBTree.node true left value right).child side) n := by
            cases side
            · exact left_n
            · exact right_n
          have childBlack : ((RBTree.node true left value right).child side).isRed = false := by
            cases side
            · exact leftBlack
            · exact rightBlack
          have shorter := ih childBalanced
          rw [childBlack, if_neg Bool.false_ne_true] at shorter
          exact Nat.succ_le_succ shorter
      | false =>
          rcases balanced with ⟨m, rfl, left_m, right_m⟩
          have childBalanced : Balanced ((RBTree.node false left value right).child side) m := by
            cases side
            · exact left_m
            · exact right_m
          have shorter := ih childBalanced
          have atMost : (if ((RBTree.node false left value right).child side).isRed then 1 else 0) ≤
            1 := by
            split <;> omega
          omega

/-- There are enough values for the black nodes. -/
theorem Balanced.two_pow_le (balanced : Balanced t n) : 2 ^ n ≤ t.toList.length + 1 := by
  induction t generalizing n with
  | nil =>
      subst balanced
      exact Nat.le_refl _
  | node red left value right leftIh rightIh =>
      rw [toList, List.length_append, List.length_cons]
      cases red with
      | true =>
          have leftSize := leftIh balanced.2.2.1
          omega
      | false =>
          rcases balanced with ⟨m, rfl, left_m, right_m⟩
          have leftSize := leftIh left_m
          have rightSize := rightIh right_m
          rw [Nat.pow_succ]
          omega

/-- The depth of a red-black tree is logarithmic. -/
theorem IsRedBlack.length_le (isRedBlack : IsRedBlack t) (way : Way t length blacks) :
    length ≤ 2 * Nat.log 2 (t.toList.length + 1) := by
  rcases isRedBlack with ⟨black, n, balanced⟩
  have shorter := balanced.length_le way
  have isLog : n ≤ Nat.log 2 (t.toList.length + 1) :=
    Nat.le_log_of_pow_le (by decide) balanced.two_pow_le
  rw [black, if_neg Bool.false_ne_true] at shorter
  omega

end Ways

end RedBlack

end Paho
