import Paho.Library.Records

/-!
# Trees in memory

`Tree.c` with the pointers of its nodes, for a tree with one index. A node is a record in memory;
the fields of `Tree` are the variables.
-/

namespace Paho

open Records

namespace Trees

/-- Where a node is: at an address of the heap, or the variable `temp` of `TreeRemoveNodeIndex`. -/
inductive Place where
  | heap (addr : Nat)
  | temp
  deriving DecidableEq, Repr

/-- `Node`. A content is never NULL in a tree. -/
structure Node (Content : Type) where
  parent : Option Place
  left : Option Place
  right : Option Place
  content : Option Content
  size : UInt64
  red : Bool
  deriving DecidableEq, Repr

/-- `Tree`. -/
structure TreeVars where
  root : Option Place
  count : Int
  size : UInt64
  allow_duplicates : Bool
  deriving DecidableEq, Repr

/-- `TreeInitializeNoMalloc`. -/
def treeInitialize : TreeVars :=
  ⟨none, 0, 0, false⟩

/-- The comparison of an index: `compare` of two contents is called with 1, of a content and a key
with 0. It is that of a linear order. -/
structure Index (Content Key Order : Type) [LinearOrder Order] where
  compare : Content → Content → Int
  compareKey : Content → Key → Int
  order : Content → Order
  orderKey : Key → Order
  compare_pos : ∀ a b, 0 < compare a b ↔ order a < order b
  compare_eq_zero : ∀ a b, compare a b = 0 ↔ order a = order b
  compareKey_pos : ∀ a key, 0 < compareKey a key ↔ order a < orderKey key
  compareKey_eq_zero : ∀ a key, compareKey a key = 0 ↔ order a = orderKey key

/-- A function of `Tree.c`. -/
abbrev TreeProgram (Content : Type) :=
  Program Place (Node Content) TreeVars

variable {Content Key : Type}

/-- `child[side]`, where the side is LEFT (`false`) or RIGHT. -/
def Node.child (node : Node Content) (side : Bool) : Option Place :=
  if side then node.right else node.left

/-- The node with another `child[side]`. -/
def Node.setChild (node : Node Content) (side : Bool) (pointer : Option Place) : Node Content :=
  if side then { node with right := pointer } else { node with left := pointer }

/-- A node after `memset`. -/
def zeroNode : Node Content :=
  ⟨none, none, none, none, 0, false⟩

/-- `isRed`. -/
def isRed (aNode : Option Place) : TreeProgram Content Bool := do
  if aNode = none then return false
  else return (← load aNode).red

/-- `isBlack`. -/
def isBlack (aNode : Option Place) : TreeProgram Content Bool := do
  if aNode = none then return true
  else return !(← load aNode).red

/-- Change `red`. -/
def setRed (aNode : Option Place) (red : Bool) : TreeProgram Content Unit :=
  store aNode fun node => { node with red := red }

/-- The pointer of the parent, or `root`, comes to another node. -/
def replaceChild (parent curnode : Option Place) (side : Bool) (other : Option Place) :
    TreeProgram Content Unit := do
  if parent = none then assign fun aTree => { aTree with root := other }
  else if curnode = (← load parent).child side then
    store parent fun node => node.setChild side other
  else store parent fun node => node.setChild (!side) other

/-- `TreeRotate`. -/
def treeRotate (curnode : Option Place) (direction : Bool) : TreeProgram Content Unit := do
  let other := (← load curnode).child (!direction)
  let inner := (← load other).child direction
  store curnode fun node => node.setChild (!direction) inner
  (if inner = none then pure () else store inner fun node => { node with parent := curnode })
  let parent := (← load curnode).parent
  store other fun node => { node with parent := parent }
  replaceChild parent curnode direction other
  store other fun node => node.setChild direction curnode
  store curnode fun node => { node with parent := other }

/-- `TreeBAASub`. -/
def treeBAASub (curnode : Option Place) (which : Bool) : TreeProgram Content (Option Place) := do
  let parent := (← load curnode).parent
  let grandparent := (← load parent).parent
  let uncle := (← load grandparent).child which
  if ← isRed uncle then
    setRed uncle false
    setRed parent false
    setRed grandparent true
    return grandparent
  else
    let curnode ← (do
      if curnode = (← load parent).child which then
        treeRotate parent (!which)
        return parent
      else return curnode)
    let parent := (← load curnode).parent
    setRed parent false
    let grandparent := (← load parent).parent
    setRed grandparent true
    treeRotate grandparent which
    return curnode

/-- The loop of `TreeBalanceAfterAdd`. -/
def balanceAddFrom (curnode : Option Place) : TreeProgram Content Unit := do
  if curnode = none then return ()
  else
    let parent := (← load curnode).parent
    if ← isRed parent then
      let grandparent := (← load parent).parent
      if grandparent = none then return ()
      else
        let curnode ← (do
          if parent = (← load grandparent).child false then treeBAASub curnode true
          else treeBAASub curnode false)
        -- `apply` leaves no mark of its place around the call
        by apply balanceAddFrom; exact curnode
    else return ()
partial_fixpoint

/-- `TreeBalanceAfterAdd`. -/
def treeBalanceAfterAdd (curnode : Option Place) : TreeProgram Content Unit := do
  balanceAddFrom curnode
  setRed (← look).root false

/-- A content is compared. The compare functions read it. -/
def comparison (compare : Content → Int) (content : Option Content) : TreeProgram Content Int :=
  fun memory => content.map fun content => (compare content, memory)

/-- The loop of `TreeAddByIndex`: the node with an equal content, or NULL; the node above; its side.
-/
def descendFrom (compare : Content → Int) (curparent curnode : Option Place) (left : Bool) :
    TreeProgram Content (Option Place × Option Place × Bool) := do
  if curnode = none then return (curparent, none, left)
  else
    let node ← load curnode
    let result ← comparison compare node.content
    if result = 0 then return (curparent, curnode, result > 0)
    else
      by
        apply descendFrom
        exact compare
        exact curnode
        exact node.child (result > 0)
        exact decide (result > 0)
partial_fixpoint

/-- `malloc` of a node, which is on the heap. -/
structure NodeMalloc (Content : Type) extends Malloc Place (Node Content) where
  on_heap : ∀ records record, result records ≠ some (.temp, record)

/-- `TreeAdd`, which is `TreeAddByIndex` for the only index. -/
def treeAdd (malloc : NodeMalloc Content) (compare : Content → Content → Int) (content : Content)
    (size : UInt64) : TreeProgram Content (Option Content) := do
  let (curparent, curnode, left) ←
    descendFrom (fun other => compare other content) none (← look).root false
  if curnode = none then
    let newel ← malloc.run
    if newel = none then return none
    else
      store newel fun _ => zeroNode
      (if curparent = none then assign fun aTree => { aTree with root := newel }
      else store curparent fun node => node.setChild left newel)
      store newel fun node => { node with parent := curparent }
      store newel fun node => { node with red := true }
      assign fun aTree => { aTree with count := aTree.count + 1 }
      assign fun aTree => { aTree with size := aTree.size + size }
      store newel fun node => { node with content := some content }
      store newel fun node => { node with size := size }
      treeBalanceAfterAdd newel
      return some content
  else if (← look).allow_duplicates then return none
  else
    let old := (← load curnode).size
    assign fun aTree => { aTree with size := aTree.size + (size - old) }
    store curnode fun node => { node with content := some content }
    store curnode fun node => { node with size := size }
    treeBalanceAfterAdd curnode
    return some content

/-- `TreeFindIndex1`. -/
def findFrom (compare : Content → Int) (curnode : Option Place) :
    TreeProgram Content (Option Place) := do
  if curnode = none then return none
  else
    let node ← load curnode
    let result ← comparison compare node.content
    if result = 0 then return curnode
    else by apply findFrom; exact compare; exact node.child (result > 0)
partial_fixpoint

/-- `TreeFind`. -/
def treeFind (compareKey : Content → Key → Int) (key : Key) :
    TreeProgram Content (Option Place) := do
  findFrom (fun content => compareKey content key) (← look).root

/-- The loop of `TreeMinimum`. -/
def minimumFrom (curnode : Option Place) : TreeProgram Content (Option Place) := do
  let child := (← load curnode).child false
  if child = none then return curnode
  else by apply minimumFrom; exact child
partial_fixpoint

/-- `TreeMinimum`. -/
def treeMinimum (curnode : Option Place) : TreeProgram Content (Option Place) := do
  if curnode = none then return none
  else minimumFrom curnode

/-- The loop of `TreeSuccessor`. -/
def ascendFrom (curnode curparent : Option Place) : TreeProgram Content (Option Place) := do
  if curparent = none then return none
  else
    let node ← load curparent
    if curnode = node.child true then by apply ascendFrom; exact curparent; exact node.parent
    else return curparent
partial_fixpoint

/-- `TreeSuccessor`. -/
def treeSuccessor (curnode : Option Place) : TreeProgram Content (Option Place) := do
  let node ← load curnode
  if node.child true = none then ascendFrom curnode node.parent
  else treeMinimum (node.child true)

/-- `TreeNextElement`. -/
def treeNextElement (curnode : Option Place) : TreeProgram Content (Option Place) := do
  if curnode = none then treeMinimum (← look).root
  else treeSuccessor curnode

/-- `curnode->parent->child[which]`. -/
def siblingOf (curnode : Option Place) (which : Bool) : TreeProgram Content (Option Place) := do
  let parent := (← load curnode).parent
  return (← load parent).child which

/-- The first `if` of `TreeBARSub`: a red sibling goes up. The result is the sibling then. -/
def raiseSibling (curnode : Option Place) (which : Bool) : TreeProgram Content (Option Place) := do
  let sibling ← siblingOf curnode which
  if ← isRed sibling then
    setRed sibling false
    let parent := (← load curnode).parent
    setRed parent true
    treeRotate parent (!which)
    siblingOf curnode which
  else return sibling

/-- The second `if` in the last `else` of `TreeBARSub`: where only the inner child of the sibling is
red, it goes up. The result is the sibling then. -/
def raiseInner (curnode sibling : Option Place) (which : Bool) :
    TreeProgram Content (Option Place) := do
  let node ← load sibling
  if ← isBlack (node.child which) then
    setRed (node.child (!which)) false
    setRed sibling true
    treeRotate sibling which
    siblingOf curnode which
  else return sibling

/-- The end of `TreeBARSub`: the outer child of the sibling is red. -/
def raiseOuter (curnode sibling : Option Place) (which : Bool) :
    TreeProgram Content (Option Place) := do
  let parent := (← load curnode).parent
  let red := (← load parent).red
  setRed sibling red
  setRed parent false
  let outer := (← load sibling).child which
  setRed outer false
  treeRotate parent (!which)
  return (← look).root

/-- `TreeBARSub` after its first `if`. -/
def settleSibling (curnode sibling : Option Place) (which : Bool) :
    TreeProgram Content (Option Place) := do
  if sibling = none then return (← load curnode).parent
  else
    let node ← load sibling
    if ← isBlack (node.child (!which)) <&&> isBlack (node.child which) then
      setRed sibling true
      return (← load curnode).parent
    else
      let sibling ← raiseInner curnode sibling which
      raiseOuter curnode sibling which

/-- `TreeBARSub`. -/
def treeBARSub (curnode : Option Place) (which : Bool) : TreeProgram Content (Option Place) := do
  let sibling ← raiseSibling curnode which
  settleSibling curnode sibling which

/-- The loop of `TreeBalanceAfterRemove`: where it ends. -/
def balanceRemoveFrom (curnode : Option Place) : TreeProgram Content (Option Place) := do
  if curnode = (← look).root then return curnode
  else if ← isBlack curnode then
    let node ← load curnode
    let here := if node.content.isSome then curnode else none
    let curnode ← (do
      if here = (← load node.parent).child false then treeBARSub curnode true
      else treeBARSub curnode false)
    by apply balanceRemoveFrom; exact curnode
  else return curnode
partial_fixpoint

/-- `TreeBalanceAfterRemove`. -/
def treeBalanceAfterRemove (curnode : Option Place) : TreeProgram Content Unit := do
  setRed (← balanceRemoveFrom curnode) false

/-- The balancing in `TreeRemoveNodeIndex`, when the redundant node of this color and with this
parent is no more below it. -/
def balanceAfterCut (red : Bool) (curchild parent : Option Place) : TreeProgram Content Unit := do
  if red then return ()
  else if curchild = none then
    if parent = none then return ()
    else
      place .temp { zeroNode with parent := parent }
      treeBalanceAfterRemove (some .temp)
      free (some .temp)
  else treeBalanceAfterRemove curchild

/-- `TreeRemoveNodeIndex`. -/
def treeRemoveNode (curnode : Option Place) : TreeProgram Content (Option Content) := do
  let node ← load curnode
  let redundant ← (do
    if node.left ≠ none ∧ node.right ≠ none then treeSuccessor curnode
    else return curnode)
  let extra ← load redundant
  let curchild := if extra.left ≠ none then extra.left else extra.right
  (if curchild = none then pure ()
  else store curchild fun node => { node with parent := extra.parent })
  replaceChild extra.parent redundant false curchild
  (if redundant = curnode then pure ()
  else do
    store curnode fun node => { node with content := extra.content }
    store curnode fun node => { node with size := extra.size })
  balanceAfterCut extra.red curchild extra.parent
  free redundant
  assign fun aTree => { aTree with size := aTree.size - node.size }
  assign fun aTree => { aTree with count := aTree.count - 1 }
  return node.content

/-- `TreeRemove`, which is `TreeRemoveIndex` for the only index. -/
def treeRemove (compare : Content → Content → Int) (content : Content) :
    TreeProgram Content (Option Content) := do
  let curnode ← findFrom (fun other => compare other content) (← look).root
  if curnode = none then return none
  else treeRemoveNode curnode

/-- `TreeRemoveKey`. -/
def treeRemoveKey (compareKey : Content → Key → Int) (key : Key) :
    TreeProgram Content (Option Content) := do
  let curnode ← treeFind compareKey key
  if curnode = none then return none
  else treeRemoveNode curnode

end Trees

end Paho
