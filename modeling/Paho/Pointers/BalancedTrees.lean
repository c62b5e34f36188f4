import Paho.Library.RedBlackBalance
import Paho.Pointers.TreeMap

/-!
# Trees are balanced

Every call keeps the tree red-black, with one exception: `TreeAdd` also balances where it has only
replaced a content, as if the node of it were new.
-/

namespace Paho

open Records RedBlack

namespace Trees

variable {Content Key Order : Type} [LinearOrder Order]

section Balance

variable {t left right child : RBTree (Entry Content)} {path : TreePath (Entry Content)}
  {entry entry' : Entry Content} {red : Bool} {n : Nat} {compare : Content → Int}
  {content : Content} {size : UInt64} {place : Place}

/-- What a node holds does not matter. -/
theorem balanced_entry (balanced : Balanced (.node red left entry right) n) :
    Balanced (.node red left entry' right) n := by
  cases red <;> exact balanced

theorem isRedBlack_entry (entry' : Entry Content)
    (isRedBlack : IsRedBlack (plug path (.node red left entry right))) :
    IsRedBlack (plug path (.node red left entry' right)) := by
  rcases isRedBlack with ⟨black, n, balanced⟩
  rcases accepts_of_plug balanced black with ⟨n, rfl, accepts, focus, isBelow⟩
  have focus' : Balanced (.node red left entry' right) n := balanced_entry focus
  have plugged := balanced_plug accepts focus' isBelow
  exact ⟨plugged.2, _, plugged.1⟩

/-- A node with at most one child is cut out. -/
theorem isRedBlack_cut (isRedBlack : IsRedBlack (plug path (.node red left entry right)))
    (only : (left = .nil ∧ child = right) ∨ (right = .nil ∧ child = left)) :
    IsRedBlack (cut red path child) := by
  rcases isRedBlack with ⟨black, n, balanced⟩
  rcases accepts_of_plug balanced black with ⟨n, rfl, accepts, focus, -⟩
  rw [cut]
  cases red with
  | true =>
      have child_n : child.isRed = false ∧ Balanced child n := by
        rcases only with ⟨-, rfl⟩ | ⟨-, rfl⟩
        · exact ⟨focus.2.1, focus.2.2.2⟩
        · exact ⟨focus.1, focus.2.2.1⟩
      have plugged := balanced_plug accepts child_n.2 fun isRed => by
        rw [child_n.1] at isRed; cases isRed
      exact ⟨plugged.2, _, plugged.1⟩
  | false =>
      rcases focus with ⟨m, rfl, left_m, right_m⟩
      have child_m : Balanced child m := by
        rcases only with ⟨-, rfl⟩ | ⟨-, rfl⟩
        · exact right_m
        · exact left_m
      refine isRedBlack_balanceRemove accepts ?_
      have painted := child_m.paint_false
      cases childRed : child.isRed <;> simpa [childRed] using painted

/-- `TreeRemoveNodeIndex` keeps a tree balanced. -/
theorem isRedBlack_removeFocus (isRedBlack : IsRedBlack (plug path t)) :
    IsRedBlack (removeFocus path t) := by
  cases t with
  | nil => exact isRedBlack
  | node red left entry right =>
      cases left with
      | nil => exact isRedBlack_cut isRedBlack (.inl ⟨rfl, rfl⟩)
      | node leftRed left' leftEntry right' =>
          cases right with
          | nil => exact isRedBlack_cut isRedBlack (.inr ⟨rfl, rfl⟩)
          | node rightRed left'' rightEntry right'' =>
              rcases seekFirst_spec [] (t := .node rightRed left'' rightEntry right'')
                (by simp) with
                ⟨red', entry', right₁, isFirst, -, -⟩
              have plugged := plug_seekFirst [] (RBTree.node rightRed left'' rightEntry right'')
              rw [removeFocus]
              · rcases first : seekFirst [] (.node rightRed left'' rightEntry right'') with
                  ⟨above, t'⟩
                rw [first] at isFirst plugged
                subst isFirst
                -- the next node in order is a focus of the tree, also where its content is in the
                -- node above
                let held : Entry Content := ⟨entry.place, entry'.content, entry'.size⟩
                have focus : plug (above ++ ⟨red, held, true,
                  .node leftRed left' leftEntry right'⟩ :: path)
                    (.node red' .nil entry' right₁) =
                      plug path (.node red (.node leftRed left' leftEntry right') held
                      (.node rightRed left'' rightEntry right'')) := by
                  rw [plug_append]
                  exact congrArg (fun t => plug path (.node red _ held t)) plugged
                have isRedBlack' := isRedBlack_entry held isRedBlack
                rw [← focus] at isRedBlack'
                exact isRedBlack_cut isRedBlack' (.inl ⟨rfl, rfl⟩)
              · simp
              · simp

/-- The focus of a search in a balanced tree. -/
theorem exists_accepts (isRedBlack : IsRedBlack t) {focus : RBTree (Entry Content)}
    (found : seek (Entry.compare compare) [] t = (path, focus)) :
    ∃ n, Accepts path n ∧ Balanced focus n := by
  have plugged := plug_seek (Entry.compare compare) [] t
  rw [found] at plugged
  rcases isRedBlack with ⟨black, m, balanced⟩
  rw [show t = plug path focus from plugged.symm] at black balanced
  rcases accepts_of_plug balanced black with ⟨n, -, accepts, isBalanced, -⟩
  exact ⟨n, accepts, isBalanced⟩

/-- `TreeAdd` of a new key keeps a tree balanced. -/
theorem isRedBlack_addEntry_new (isRedBlack : IsRedBlack t)
    (absent : seek (Entry.compare compare) [] t = (path, .nil)) :
    IsRedBlack (addEntry compare content size place t) := by
  rcases exists_accepts isRedBlack absent with ⟨n, accepts, rfl⟩
  rw [addEntry, absent]
  exact isRedBlack_balanceAdd accepts ⟨rfl, rfl, rfl, rfl⟩ (by simp) (not_unsafe_of_red rfl)

/-- `TreeAdd` of a key that is there keeps a tree balanced when the node is safe, and only then. -/
theorem isRedBlack_addEntry_found (isRedBlack : IsRedBlack t)
    (found : seek (Entry.compare compare) [] t = (path, .node red left entry right)) :
    IsRedBlack (addEntry compare content size place t) ↔
      ¬Unsafe path (.node red left entry right) := by
  rcases exists_accepts isRedBlack found with ⟨n, accepts, balanced⟩
  have sameColor : Unsafe path (.node red left entry right) ↔
      Unsafe path (.node red left ⟨entry.place, content, size⟩ right) := by
    rcases path with _ | ⟨p, _ | ⟨g, path⟩⟩ <;> rfl
  rw [addEntry, found, sameColor]
  constructor
  · intro isRedBlack' isUnsafe
    exact not_isRedBlack_of_unsafe accepts (balanced_entry balanced) (by simp) isUnsafe isRedBlack'
  · intro safe
    exact isRedBlack_balanceAdd accepts (balanced_entry balanced) (by simp) safe

variable {index : Index Content Key Order} {call : Call Content Key} {response : Response Content}
  {t' : RBTree (Entry Content)}

/-- The call is a `TreeAdd` of the key at an unsafe focus. -/
def Call.Hits (index : Index Content Key Order) (t : RBTree (Entry Content)) :
    Call Content Key → Prop
  | .add _ content _ =>
  (index.seek content t).2 ≠ .nil ∧ Unsafe (index.seek content t).1 (index.seek content t).2
  | _ => False

/-- A call keeps a tree balanced unless it hits an unsafe focus. -/
theorem Call.Acts.isRedBlack_iff (isRedBlack : IsRedBlack t)
    (acts : call.Acts index t response t') :
    IsRedBlack t' ↔ ¬call.Hits index t := by
  have removed (compare : Content → Int) :
    IsRedBlack (removeFocus (seek (Entry.compare compare) [] t).1
      (seek (Entry.compare compare) [] t).2) := by
    refine isRedBlack_removeFocus ?_
    rw [plug_seek]
    exact isRedBlack
  cases call with
  | add malloc content size =>
      rw [Call.Hits]
      rcases found : index.seek content t with ⟨path, focus⟩
      rcases acts with ⟨-, place, -, rfl⟩ | ⟨absent, -, -, rfl⟩
      · cases focus with
        | nil => exact iff_of_true (isRedBlack_addEntry_new isRedBlack found) fun hits => hits.1 rfl
        | node red left entry right =>
            rw [isRedBlack_addEntry_found isRedBlack found, and_iff_right (by simp)]
      · rw [found] at absent
        exact iff_of_true isRedBlack fun hits => hits.1 absent
  | remove content => exact iff_of_true (acts.2 ▸ removed _) id
  | removeKey key => exact iff_of_true (acts.2 ▸ removed _) id
  | find key => exact iff_of_true (acts.2 ▸ isRedBlack) id
  | scan => exact iff_of_true (acts.2 ▸ isRedBlack) id

end Balance

section InMemory

variable {index : Index Content Key Order} {memory : Memory Place (Node Content) TreeVars}
  {t s : RBTree (Entry Content)} {path : TreePath (Entry Content)} {f : Frame (Entry Content)}

namespace InMemory

/-- The node of a frame. -/
theorem frame (inMemory : InMemory index memory t) (focus : t = plug (f :: path) s) :
    memory.records f.value.place = some (frameNode f (parentOf path) (pointer s)) := by
  refine inMemory.holds.read ?_
  rw [focus, nodes_plug, pathNodes]
  simp

/-- The child of a node of a frame at the side of the focus is only there. -/
theorem apart (inMemory : InMemory index memory t) (focus : t = plug (f :: path) s)
    (isNode : s ≠ .nil) :
    pointer f.sibling ≠ pointer s := by
  have nodup := inMemory.holds.nodup
  rw [focus, ← add_zero (nodes none _)] at nodup
  exact apart_of_nodup (f :: path) s nodup isNode f rfl

end InMemory

/-- A way in memory from a pointer down to NULL, with its number of nodes and of black nodes. -/
inductive WayDown (memory : Memory Place (Node Content) TreeVars) : Option Place → Nat → Nat → Prop
  | missing : WayDown memory none 0 0
  | node {place : Place} {node : Node Content} {length blacks : Nat} (side : Bool)
      (isThere : memory.records place = some node)
      (below : WayDown memory (node.child side) length blacks) :
      WayDown memory (some place) (length + 1) (blacks + if node.red then 0 else 1)

/-- The tree in memory is red-black balanced. -/
structure IsBalanced (memory : Memory Place (Node Content) TreeVars) : Prop where
  root_black : ∀ place node, memory.vars.root = some place → memory.records place = some node →
    node.red = false
  red_child : ∀ a x b y side, memory.records a = some x → memory.records b = some y →
    x.child side = some b →
    x.red = true → y.red = false
  same_blacks : ∃ n, ∀ length blacks, WayDown memory memory.vars.root length blacks → blacks = n
  logarithmic : ∀ length blacks, WayDown memory memory.vars.root length blacks →
    length ≤ 2 * Nat.log 2 (memory.vars.count.toNat + 1)

/-- The subtree at a side of a node. -/
theorem exists_refocus {red : Bool} {left right : RBTree (Entry Content)}
    {entry : Entry Content} (side : Bool) (focus : t = plug path (.node red left entry right)) :
    ∃ path', t = plug path' ((RBTree.node red left entry right).child side) := by
  cases side with
  | false => exact ⟨⟨red, entry, false, right⟩ :: path, focus⟩
  | true => exact ⟨⟨red, entry, true, left⟩ :: path, focus⟩

theorem pointer_child {red : Bool} {left right : RBTree (Entry Content)} {entry : Entry Content}
    (parent : Option Place)
    (side : Bool) : (Node.mk parent (pointer left) (pointer right) (some entry.content) entry.size
      red).child side =
      pointer ((RBTree.node red left entry right).child side) := by
  cases side <;> rfl

/-- The ways down in memory are those of the tree. -/
theorem wayDown_iff {length blacks : Nat} (path : TreePath (Entry Content))
    (wellFormed : WellFormed index memory t) (focus : t = plug path s) :
    WayDown memory (pointer s) length blacks ↔ Way s length blacks := by
  constructor
  · intro way
    generalize isPointer : pointer s = place at way
    induction way generalizing s path with
    | missing =>
        cases s with
        | nil => exact .nil
        | node => cases isPointer
    | node side isThere below ih =>
        cases s with
        | nil => cases isPointer
        | node red left entry right =>
            cases isPointer
            rw [wellFormed.node path red left entry right focus] at isThere
            cases isThere
            rcases exists_refocus side focus with ⟨path', refocus⟩
            exact .node side (ih path' refocus (pointer_child _ side).symm)
  · intro way
    induction way generalizing path with
    | nil => exact .missing
    | @node red left right entry _ _ side below ih =>
        rcases exists_refocus side focus with ⟨path', refocus⟩
        have below' := ih path' refocus
        rw [← pointer_child (parentOf path) side] at below'
        exact .node side (wellFormed.node path red left entry right focus) below'

/-- The color of a child is that in memory. -/
theorem isRed_child {red : Bool} {left right : RBTree (Entry Content)}
    {entry : Entry Content} (side : Bool) (wellFormed : WellFormed index memory t)
    (focus : t = plug path (.node red left entry right)) :
    ((RBTree.node red left entry right).child side).isRed = true ↔ ∃ place node,
      pointer ((RBTree.node red left entry right).child side) = some place ∧
      memory.records place = some node ∧
        node.red = true := by
  rcases exists_refocus side focus with ⟨path', refocus⟩
  cases child : (RBTree.node red left entry right).child side with
  | nil => exact iff_of_false Bool.false_ne_true fun ⟨_, _, isPointer, _⟩ => by cases isPointer
  | node red' left' entry' right' =>
      rw [child] at refocus
      have isThere := wellFormed.node path' red' left' entry' right' refocus
      constructor
      · exact fun isRed => ⟨_, _, rfl, isThere, isRed⟩
      · rintro ⟨place, node, isPointer, isThere', isRed⟩
        cases isPointer
        rw [isThere] at isThere'
        cases isThere'
        exact isRed

/-- No red node of the tree has a red child if none in memory has one. -/
theorem alternating_iff (wellFormed : WellFormed index memory t) : Alternating t ↔
    ∀ a x b y side, memory.records a = some x → memory.records b = some y → x.child side = some b →
      x.red = true → y.red = false := by
  constructor
  · intro alternating a x b y side isThere isThere' isChild isRed
    rcases wellFormed.exists_focus isThere with ⟨path, red, left, entry, right, focus, rfl, rfl⟩
    rw [focus] at alternating
    have apart := (alternating_of_plug alternating).1 isRed
    have childBlack : ((RBTree.node red left entry right).child side).isRed = false := by
      cases side
      · exact apart.1
      · exact apart.2
    rw [pointer_child] at isChild
    by_contra childRed
    rw [(isRed_child side wellFormed focus).mpr ⟨b, y, isChild,
      isThere', by simpa using childRed⟩] at childBlack
    cases childBlack
  · intro apart
    have below : ∀ s path, t = plug path s → Alternating s := by
      intro s
      induction s with
      | nil => exact fun _ _ => trivial
      | node red left entry right leftIh rightIh =>
          intro path focus
          have black (side : Bool) (isRed : red = true) :
              ((RBTree.node red left entry right).child side).isRed = false := by
            by_contra childRed
            rcases (isRed_child side wellFormed focus).mp (by simpa using childRed) with
              ⟨place, node, isPointer, isThere, isRed'⟩
            have node_black :=
              apart entry.place _ place node side (wellFormed.node path red left entry right focus)
              isThere ((pointer_child _ side).trans isPointer) isRed
            rw [isRed'] at node_black
            cases node_black
          exact ⟨fun isRed => ⟨black false isRed, black true isRed⟩,
            leftIh (⟨red, entry, false, right⟩ :: path) focus,
            rightIh (⟨red, entry, true, left⟩ :: path) focus⟩
    exact below t [] rfl

/-- The tree is balanced in memory when it is red-black. -/
theorem isBalanced_iff (wellFormed : WellFormed index memory t) :
    IsBalanced memory ↔ IsRedBlack t := by
  have ways (length blacks : Nat) : WayDown memory memory.vars.root length blacks ↔
    Way t length blacks := by
    rw [wellFormed.root]
    exact wayDown_iff [] wellFormed rfl
  constructor
  · intro balanced
    rcases balanced.same_blacks with ⟨n, same⟩
    refine ⟨?_, n, balanced_iff.mpr ⟨(alternating_iff wellFormed).mpr balanced.red_child, ?_⟩⟩
    · cases t with
      | nil => rfl
      | node red left entry right =>
          exact balanced.root_black _ _ wellFormed.root
            (wellFormed.node [] red left entry right rfl)
    · exact fun length blacks way => same length blacks ((ways length blacks).mpr way)
  · intro isRedBlack
    rcases isRedBlack.2 with ⟨n, balanced⟩
    rcases balanced_iff.mp balanced with ⟨alternating, same⟩
    refine ⟨?_, (alternating_iff wellFormed).mp alternating, ⟨n, ?_⟩, ?_⟩
    · intro place node isRoot isThere
      rw [wellFormed.root] at isRoot
      cases t with
      | nil => cases isRoot
      | node red left entry right =>
          cases isRoot
          rw [wellFormed.node [] red left entry right rfl] at isThere
          cases isThere
          exact isRedBlack.1
    · exact fun length blacks way => same length blacks ((ways length blacks).mp way)
    · intro length blacks way
      rw [wellFormed.count, Int.toNat_natCast]
      exact isRedBlack.length_le ((ways length blacks).mp way)

end InMemory

section Spared

variable {index : Index Content Key Order} {memory : Memory Place (Node Content) TreeVars}
  {t : RBTree (Entry Content)} {call : Call Content Key}

/-- A black node below a red one, which two nodes above have at different sides. The node beside the
red one is not red. -/
def IsInner (memory : Memory Place (Node Content) TreeVars) (a : Place) : Prop :=
  ∃ b c x y z side, memory.records a = some x ∧ memory.records b = some y ∧
    memory.records c = some z ∧
    x.parent = some b ∧ y.parent = some c ∧ x.red = false ∧ y.red = true ∧
    z.child side = some b ∧ y.child (!side) = some a ∧
    ∀ d w, z.child (!side) = some d → memory.records d = some w → w.red = false

/-- The call is a `TreeAdd` of the key of such a node. -/
def Call.HitsInner (index : Index Content Key Order)
    (memory : Memory Place (Node Content) TreeVars) :
    Call Content Key → Prop
  | .add _ content _ => ∃ a x other, memory.records a = some x ∧ x.content = some other ∧
      index.compare other content = 0 ∧ IsInner memory a
  | _ => False

/-- None of the calls hits such a node. -/
def Spared (index : Index Content Key Order) :
    List (Call Content Key) → Memory Place (Node Content) TreeVars → Prop
  | [], _ => True
  | call :: calls, memory => ¬call.HitsInner index memory ∧
      ∀ response memory', call.perform index memory = some (response, memory') →
      Spared index calls memory'

/-- The pointer to the focus is at its side only. -/
theorem side_of_child {f : Frame (Entry Content)} {parent hole : Option Place} {side : Bool}
    (apart : pointer f.sibling ≠ hole) (isChild : (frameNode f parent hole).child side = hole) :
    f.side = side := by
  by_contra other
  have isNot : side = !f.side := Bool.eq_not.mpr fun same => other same.symm
  rw [isNot, child_frameNode_not] at isChild
  exact apart isChild

/-- The color of the sibling of the focus is that in memory. -/
theorem sibling_black_iff {f : Frame (Entry Content)} {path : TreePath (Entry Content)}
    {s : RBTree (Entry Content)} (wellFormed : WellFormed index memory t)
    (focus : t = plug (f :: path) s) : f.sibling.isRed = false ↔
      ∀ place node, pointer f.sibling = some place → memory.records place = some node →
      node.red = false := by
  have refocus : t = plug (f.turn s :: path) f.sibling := focus.trans (plug_turn f path s).symm
  cases sibling : f.sibling with
  | nil => exact iff_of_true rfl fun _ _ isPointer => by cases isPointer
  | node red left entry right =>
      rw [sibling] at refocus
      have isThere := wellFormed.node _ red left entry right refocus
      constructor
      · intro black place node isPointer isThere'
        cases isPointer
        rw [isThere] at isThere'
        cases isThere'
        exact black
      · exact fun black => black _ _ rfl isThere

/-- An unsafe focus is such a node. -/
theorem isInner_iff {path : TreePath (Entry Content)} {red : Bool}
    {left right : RBTree (Entry Content)} {entry : Entry Content}
    (inMemory : InMemory index memory t) (focus : t = plug path (.node red left entry right)) :
    IsInner memory entry.place ↔ Unsafe path (.node red left entry right) := by
  have wellFormed := inMemory.wellFormed
  have isThere := wellFormed.node path red left entry right focus
  constructor
  · rintro ⟨b, c, x, y, z, side, xThere, yThere, zThere, xParent, yParent, xBlack, yRed, bChild,
      aChild, uncle⟩
    have isX := isThere.symm.trans xThere
    rw [Option.some.injEq] at isX
    subst isX
    rcases path with _ | ⟨p, path⟩
    · cases xParent
    have isB := Option.some.inj xParent
    subst isB
    have isY := (inMemory.frame focus).symm.trans yThere
    rw [Option.some.injEq] at isY
    subst isY
    rcases path with _ | ⟨g, path⟩
    · cases yParent
    have isC := Option.some.inj yParent
    subst isC
    have gFocus : t = plug (g :: path) (p.fill (.node red left entry right)) := focus
    have isZ := (inMemory.frame gFocus).symm.trans zThere
    rw [Option.some.injEq] at isZ
    subst isZ
    rw [← pointer_fill (t := .node red left entry right)] at bChild
    have gSide : g.side = side := side_of_child (inMemory.apart gFocus join_ne_nil) bChild
    have pSide : p.side = !side := side_of_child (inMemory.apart focus (by simp)) aChild
    subst gSide
    rw [child_frameNode_not] at uncle
    refine ⟨yRed, xBlack, (sibling_black_iff wellFormed gFocus).mpr uncle, ?_⟩
    rw [pSide]
    exact Bool.not_ne_self g.side
  · intro isUnsafe
    rcases path with _ | ⟨p, _ | ⟨g, path⟩⟩
    · exact isUnsafe.elim
    · exact isUnsafe.elim
    rcases isUnsafe with ⟨yRed, xBlack, uncle, inner⟩
    have gFocus : t = plug (g :: path) (p.fill (.node red left entry right)) := focus
    refine ⟨p.value.place, g.value.place, _, _, _, g.side, isThere, inMemory.frame focus,
      inMemory.frame gFocus,
      rfl, rfl, xBlack, yRed, ?_, ?_, ?_⟩
    · rw [child_frameNode, pointer_fill]
    · rw [← Bool.eq_not.mpr inner, child_frameNode]
      rfl
    · rw [child_frameNode_not]
      exact (sibling_black_iff wellFormed gFocus).mp uncle

/-- A key is in the tree once. -/
theorem WellFormed.eq_of_key {entry entry' : Entry Content} (wellFormed : WellFormed index memory t)
    (mem : entry ∈ t.toList) (mem' : entry' ∈ t.toList)
    (same : index.order entry.content = index.order entry'.content) : entry = entry' :=
  List.inj_on_of_nodup_map (wellFormed.ordered.imp fun less => less.ne) mem mem' same

/-- What a call hits in the tree, it hits in memory. -/
theorem hitsInner_iff (inMemory : InMemory index memory t) : call.HitsInner index memory ↔
    call.Hits index t := by
  cases call with
  | add malloc content size =>
      have wellFormed := inMemory.wellFormed
      rcases inMemory.isMap with ⟨map, isMap⟩
      have plugged := plug_seek (Entry.compare fun other => index.compare other content) [] t
      have isFound {a : Place} {x : Node Content} {other : Content}
        (isThere : memory.records a = some x)
          (isContent : x.content = some other) (isEqual : index.compare other content = 0) :
          ∃ entry ∈ t.toList, entry.place = a ∧ index.order entry.content =
            index.order content := by
        rcases wellFormed.exists_focus isThere with ⟨path, red, left, entry, right, focus, rfl, rfl⟩
        refine ⟨entry, ?_, rfl, ?_⟩
        · rw [focus, toList_plug]
          simp [RBTree.toList]
        · cases isContent
          exact (index.compare_eq_zero _ content).mp isEqual
      rcases seek_cases isMap (index.compares content) with ⟨path, red, left, entry, right, found,
        isKey, split⟩ |
        ⟨path, found, split, smaller, larger⟩
      · rw [found] at plugged
        have focus : t = plug path (.node red left entry right) := plugged.symm
        rw [Call.Hits, Index.seek, found, and_iff_right (by simp), ← isInner_iff inMemory focus]
        constructor
        · rintro ⟨a, x, other, isThere, isContent, isEqual, isInner⟩
          rcases isFound isThere isContent isEqual with ⟨entry', mem, rfl, isKey'⟩
          have same := wellFormed.eq_of_key mem (by rw [split]; simp) (isKey'.trans isKey.symm)
          rwa [← same]
        · intro isInner
          exact ⟨entry.place, _, entry.content,
            wellFormed.node path red left entry right focus, rfl,
            (index.compare_eq_zero _ content).mpr isKey, isInner⟩
      · refine iff_of_false ?_ ?_
        · rintro ⟨a, x, other, isThere, isContent, isEqual, -⟩
          rcases isFound isThere isContent isEqual with ⟨entry, mem, -, isKey⟩
          rw [split] at mem
          rcases List.mem_append.mp mem with mem | mem
          · exact (smaller entry mem).ne isKey
          · exact (larger entry mem).ne isKey.symm
        · rw [Call.Hits, Index.seek, found]
          exact fun hits => hits.1 rfl
  | remove content => exact Iff.rfl
  | removeKey key => exact Iff.rfl
  | find key => exact Iff.rfl
  | scan => exact Iff.rfl

/-- From a balanced tree, every state that these calls reach is balanced when they are spared, and
only then. -/
theorem spared_iff (calls : List (Call Content Key)) (inMemory : InMemory index memory t)
    (isRedBlack : IsRedBlack t) :
    Spared index calls memory ↔ ∀ done, done <+: calls →
      ∃ responses memory', perform index done memory = some (responses, memory') ∧
      IsBalanced memory' := by
  have isBalanced := (isBalanced_iff inMemory.wellFormed).mpr isRedBlack
  induction calls generalizing memory t with
  | nil =>
      refine iff_of_true trivial fun done isFront => ?_
      rw [List.prefix_nil.mp isFront]
      exact ⟨[], memory, rfl, isBalanced⟩
  | cons call calls ih =>
      rcases inMemory.call call with ⟨response, memory', t', isNext, inMemory', acts⟩
      rw [Spared, hitsInner_iff inMemory, ← acts.isRedBlack_iff isRedBlack]
      constructor
      · rintro ⟨isRedBlack', spared⟩ done isFront
        rcases done with _ | ⟨call', done⟩
        · exact ⟨[], memory, rfl, isBalanced⟩
        · rcases List.cons_prefix_cons.mp isFront with ⟨rfl, isFront'⟩
          have isBalanced' := (isBalanced_iff inMemory'.wellFormed).mpr isRedBlack'
          rcases (ih inMemory' isRedBlack' isBalanced').mp (spared response memory' isNext)
            done isFront' with
            ⟨responses, memory'', isDone, after⟩
          refine ⟨response :: responses, memory'', ?_, after⟩
          rw [perform_cons isNext, isDone]
          rfl
      · intro reached
        have isBalanced' : IsBalanced memory' := by
          rcases reached [call] (List.prefix_append [call] calls) with
            ⟨responses, memory'', isDone, after⟩
          rw [perform_cons isNext] at isDone
          cases isDone
          exact after
        have isRedBlack' := (isBalanced_iff inMemory'.wellFormed).mp isBalanced'
        refine ⟨isRedBlack', fun response' memory'' isNext' => ?_⟩
        have same := isNext.symm.trans isNext'
        rw [Option.some.injEq, Prod.mk.injEq] at same
        rcases same with ⟨rfl, rfl⟩
        refine (ih inMemory' isRedBlack' isBalanced').mpr fun done isFront => ?_
        rcases reached (call :: done) (List.cons_prefix_cons.mpr ⟨rfl, isFront⟩) with
          ⟨responses, memory'', isDone, after⟩
        rw [perform_cons isNext, Option.map_eq_some_iff] at isDone
        rcases isDone with ⟨⟨responses', memory₁⟩, isDone, same⟩
        cases same
        exact ⟨responses', _, isDone, after⟩

/-- Every state that calls reach from an empty tree is balanced when no `TreeAdd` hits the key of a
black node that is an inner grandchild below a red one, and only then. -/
theorem perform_isBalanced_iff (index : Index Content Key Order) (calls : List (Call Content Key)) :
    Spared index calls emptyTree ↔ ∀ done, done <+: calls →
      ∃ responses memory, perform index done emptyTree = some (responses, memory) ∧
      IsBalanced memory :=
  spared_iff calls (inMemory_emptyTree index) ⟨rfl, 0, rfl⟩

end Spared

section Example

/-- `malloc` of a node that gives this address while nothing is there. -/
def nodeAt (addr : Nat) : NodeMalloc Nat where
  result records := if records (.heap addr) = none then some (.heap addr, zeroNode) else none
  fresh := by
    intro records place node isResult
    split at isResult
    case isTrue free =>
      cases isResult
      exact free
    case isFalse => cases isResult
  on_heap := by
    intro records node isResult
    split at isResult <;> cases isResult

/-- Numbers in their order. -/
def natIndex : Index Nat Nat Nat where
  compare a b := if a < b then 1 else if a = b then 0 else -1
  compareKey a b := if a < b then 1 else if a = b then 0 else -1
  order := id
  orderKey := id
  compare_pos a b := by grind
  compare_eq_zero a b := by grind
  compareKey_pos a b := by grind
  compareKey_eq_zero a b := by grind

/-- `TreeAdd` of a number, where its own address is given to a new node. -/
def addNat (n : Nat) : Call Nat Nat :=
  .add (nodeAt n) n 0

/-- Where the address is free if there is a new node, there is one tree after the call. -/
theorem acts_addNat {t t' : RBTree (Entry Nat)} {response : Response Nat} {n : Nat}
    (free : (natIndex.seek n t).2 = .nil → .heap n ∉ t.toList.map Entry.place)
    (acts : (addNat n).Acts natIndex t response t') :
    t' = addEntry (fun other => natIndex.compare other n) n 0 (.heap n) t := by
  have isFree {records : Place → Option (Node Nat)} (holds : Holds records (nodes none t))
      (absent : (natIndex.seek n t).2 = .nil) :
      (nodeAt n).result records = some (.heap n, zeroNode) := by
    refine if_pos ?_
    rw [Option.eq_none_iff_forall_not_mem]
    intro node mem
    have isThere := Holds.mem_map_of_mem ((holds.eq_some_iff _ node).mp mem)
    rw [places_nodes, Multiset.mem_coe] at isThere
    exact free absent isThere
  rcases acts with ⟨-, place, placed, rfl⟩ | ⟨absent, ⟨records, holds, failed⟩, -, -⟩
  · rcases found : natIndex.seek n t with ⟨path, focus⟩
    cases focus with
    | nil =>
        have absent := congrArg Prod.snd found
        rcases placed absent with ⟨records, node, holds, isPlace⟩
        rw [isFree holds absent] at isPlace
        cases isPlace
        rfl
    | node red left entry right =>
        rw [Index.seek] at found
        rw [addEntry, addEntry, found]
  · rw [isFree holds absent] at failed
    cases failed

/-- When 2 is added again to the tree with 0 to 5, it is not balanced any more. -/
theorem not_isBalanced_addNat : ∃ responses memory,
    perform natIndex [addNat 0, addNat 1, addNat 2, addNat 3, addNat 4, addNat 5,
      addNat 2] emptyTree =
      some (responses, memory) ∧ ¬IsBalanced memory := by
  rcases (inMemory_emptyTree natIndex).calls
    [addNat 0, addNat 1, addNat 2, addNat 3, addNat 4, addNat 5, addNat 2] with
    ⟨responses, memory, t, done, inMemory, trace⟩
  refine ⟨responses, memory, done, fun isBalanced => ?_⟩
  have isRedBlack := (isBalanced_iff inMemory.wellFormed).mp isBalanced
  rcases trace with _ | ⟨acts₀,
    _ | ⟨acts₁, _ | ⟨acts₂, _ | ⟨acts₃, _ | ⟨acts₄, _ | ⟨acts₅, _ | ⟨acts₆, _ | _⟩⟩⟩⟩⟩⟩⟩
  have t₁ := acts_addNat (by decide) acts₀
  subst t₁
  have t₂ := acts_addNat (by decide) acts₁
  subst t₂
  have t₃ := acts_addNat (by decide) acts₂
  subst t₃
  have t₄ := acts_addNat (by decide) acts₃
  subst t₄
  have t₅ := acts_addNat (by decide) acts₄
  subst t₅
  have t₆ := acts_addNat (by decide) acts₅
  subst t₆
  have t₇ := acts_addNat (by decide) acts₆
  -- 1 has one child, which is black
  have shape : t = .node false
    (.node true (.node false .nil ⟨.heap 0, 0, 0⟩ .nil) ⟨.heap 1, 1, 0⟩ .nil)
      ⟨.heap 2, 2, 0⟩ (.node true .nil ⟨.heap 3, 3, 0⟩ (.node false .nil ⟨.heap 4, 4, 0⟩
        (.node true .nil ⟨.heap 5, 5, 0⟩ .nil))) := by
    rw [t₇]
    decide
  rw [shape] at isRedBlack
  rcases isRedBlack with ⟨-, n, m, -, ⟨-, -, ⟨k, isSucc, -⟩, isZero⟩, -⟩
  have isZero : m = 0 := isZero
  omega

end Example

end Trees

end Paho
