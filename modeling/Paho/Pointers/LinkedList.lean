import Paho.Library.Records

/-!
# Linked lists in memory

`LinkedList.c` with the pointers of its elements. An element is a record at an address; the pointers
`first`, `last` and `current` and the counters are the variables. What a function gives to `free` as
content is part of its result.
-/

namespace Paho

open Records

namespace Lists

/-- `ListElement`. -/
structure ListElement (Content : Type) where
  prev : Option Nat
  next : Option Nat
  content : Option Content
  deriving DecidableEq, Repr

/-- `List`. -/
structure ListVars where
  first : Option Nat
  last : Option Nat
  current : Option Nat
  count : Int
  size : UInt64
  deriving DecidableEq, Repr

/-- `ListZero`. -/
def listZero : ListVars :=
  ⟨none, none, none, 0, 0⟩

/-- A function of `LinkedList.c`. -/
abbrev ListProgram (Content : Type) :=
  Program Nat (ListElement Content) ListVars

/-- A `callback` that compares contents. -/
abbrev Callback (Content : Type) :=
  Option Content → Option Content → Bool

variable {Content : Type}

/-- `ListAppendNoMalloc`. -/
def listAppendNoMalloc (content : Option Content) (newel : Option Nat) (size : UInt64) :
    ListProgram Content Unit := do
  let aList ← look
  store newel fun el => { el with content := content }
  store newel fun el => { el with next := none }
  store newel fun el => { el with prev := aList.last }
  (if aList.first = none then assign fun aList => { aList with first := newel }
  else store aList.last fun el => { el with next := newel })
  assign fun aList => { aList with last := newel }
  assign fun aList => { aList with count := aList.count + 1 }
  assign fun aList => { aList with size := aList.size + size }

/-- `ListAppend`. -/
def listAppend (malloc : Malloc Nat (ListElement Content)) (content : Option Content)
    (size : UInt64) :
    ListProgram Content (Option Nat) := do
  let newel ← malloc.run
  if newel = none then return newel
  else
    listAppendNoMalloc content newel size
    return newel

/-- `ListInsert`. -/
def listInsert (malloc : Malloc Nat (ListElement Content)) (content : Option Content)
    (size : UInt64) (index : Option Nat) : ListProgram Content (Option Nat) := do
  let newel ← malloc.run
  if newel = none then return newel
  else if index = none then
    listAppendNoMalloc content newel size
    return newel
  else
    store newel fun el => { el with content := content }
    store newel fun el => { el with next := index }
    let prev := (← load index).prev
    store newel fun el => { el with prev := prev }
    store index fun el => { el with prev := newel }
    (if prev = none then assign fun aList => { aList with first := newel }
    else store prev fun el => { el with next := newel })
    assign fun aList => { aList with count := aList.count + 1 }
    assign fun aList => { aList with size := aList.size + size }
    return newel

/-- `ListNextElement`. -/
def listNextElement (pos : Option Nat) : ListProgram Content (Option Nat) := do
  if pos = none then return (← look).first
  else return (← load pos).next

/-- `ListPrevElement`. -/
def listPrevElement (pos : Option Nat) : ListProgram Content (Option Nat) := do
  if pos = none then return (← look).last
  else return (← load pos).prev

/-- The comparison of `ListFindItem`: without a callback, of the pointers. -/
def matchesContent [DecidableEq Content] (callback : Option (Callback Content))
    (content key : Option Content) : Bool :=
  match callback with
  | none => content = key
  | some callback => callback content key

/-- The search of `ListFindItem` behind `current`. -/
def findFrom (found : Option Content → Bool) (current : Option Nat) :
    ListProgram Content (Option Nat) := do
  let current ← listNextElement current
  if current = none then return none
  else
    let element ← load current
    if found element.content then return current
    -- `apply` leaves no mark of its place around the call
    else by apply findFrom; exact found; exact current
partial_fixpoint

/-- `ListFindItem`. -/
def listFindItem [DecidableEq Content] (content : Option Content)
    (callback : Option (Callback Content)) :
    ListProgram Content (Option Nat) := do
  let current := (← look).current
  let here ← (do
    if current = none then return false
    else return matchesContent callback (← load current).content content)
  if here then return current
  else
    let rc ← findFrom (fun found => matchesContent callback found content) none
    if rc = none then return none
    else
      assign fun aList => { aList with current := rc }
      return rc

/-- `ListUnlink`: whether an item was removed, and the content that is freed. -/
def listUnlink [DecidableEq Content] (content : Option Content)
    (callback : Option (Callback Content)) (freeContent : Bool) :
    ListProgram Content (Bool × List Content) := do
  let saved := (← look).current
  if (← listFindItem content callback) = none then return (false, [])
  else
    let current := (← look).current
    let element ← load current
    (if element.prev = none then assign fun aList => { aList with first := element.next }
    else store element.prev fun el => { el with next := element.next })
    (if element.next = none then assign fun aList => { aList with last := element.prev }
    else store element.next fun el => { el with prev := element.prev })
    let next := (← load current).next
    let freed := if freeContent then element.content.toList else []
    free current
    assign fun aList => { aList with current := if saved = current then next else saved }
    assign fun aList => { aList with count := aList.count - 1 }
    return (true, freed)

/-- `ListDetachHead`. -/
def listDetachHead : ListProgram Content (Option Content) := do
  let aList ← look
  if aList.count > 0 then
    let first ← load aList.first
    assign fun vars =>
      { vars with current := if aList.current = aList.first then first.next else aList.current }
    assign fun vars => { vars with last := if aList.last = aList.first then none else aList.last }
    assign fun vars => { vars with first := first.next }
    (if first.next = none then pure ()
    else store first.next fun el => { el with prev := none })
    free aList.first
    assign fun vars => { vars with count := vars.count - 1 }
    return first.content
  else return none

/-- `ListRemoveHead`, with the content that is freed. -/
def listRemoveHead : ListProgram Content (List Content) := do
  return (← listDetachHead).toList

/-- `ListPopTail`. -/
def listPopTail : ListProgram Content (Option Content) := do
  let aList ← look
  if aList.count > 0 then
    let last ← load aList.last
    assign fun vars =>
      { vars with current := if aList.current = aList.last then last.prev else aList.current }
    assign fun vars => { vars with first := if aList.first = aList.last then none else aList.first }
    assign fun vars => { vars with last := last.prev }
    (if last.prev = none then pure ()
    else store last.prev fun el => { el with next := none })
    free aList.last
    assign fun vars => { vars with count := vars.count - 1 }
    return last.content
  else return none

/-- The loop of `ListEmpty`, with the contents that are freed. -/
def emptyFrom : ListProgram Content (List Content) := do
  let first := (← look).first
  if first = none then return []
  else
    let element ← load first
    assign fun aList => { aList with first := element.next }
    free first
    let freed ← by apply emptyFrom
    return element.content.toList ++ freed
partial_fixpoint

/-- `ListEmpty`. -/
def listEmpty : ListProgram Content (List Content) := do
  let freed ← emptyFrom
  assign fun _ => listZero
  return freed

end Lists

end Paho
