import Paho.Pointers.ListLinks

/-!
# Runs over a list

Any calls of the functions of `LinkedList.c` one after the other, on a list that is empty at first.
-/

namespace Paho

open Records

namespace Lists

variable {Content : Type}

/-- `ListDetach`. -/
def listDetach [DecidableEq Content] (content : Option Content) :
    ListProgram Content (Bool × List Content) :=
  listUnlink content none false

/-- `ListRemove`. -/
def listRemove [DecidableEq Content] (content : Option Content) :
    ListProgram Content (Bool × List Content) :=
  listUnlink content none true

/-- `ListDetachItem`. -/
def listDetachItem [DecidableEq Content] (content : Option Content)
    (callback : Option (Callback Content)) :
    ListProgram Content (Bool × List Content) :=
  listUnlink content callback false

/-- `ListRemoveItem`. -/
def listRemoveItem [DecidableEq Content] (content : Option Content)
    (callback : Option (Callback Content)) :
    ListProgram Content (Bool × List Content) :=
  listUnlink content callback true

/-- A walk: `ListNextElement` from NULL, and as often again while there is an element. -/
def walk : Nat → ListProgram Content (Option Nat)
  | 0 => listNextElement none
  | n + 1 => do
      let pos ← walk n
      if pos = none then return none
      else listNextElement pos

/-- A walk with `ListPrevElement`. -/
def walkBack : Nat → ListProgram Content (Option Nat)
  | 0 => listPrevElement none
  | n + 1 => do
      let pos ← walkBack n
      if pos = none then return none
      else listPrevElement pos

/-- A call. An element to insert at is one that a walk comes to. -/
inductive Call (Content : Type) where
  | append (malloc : Malloc Nat (ListElement Content)) (content : Option Content) (size : UInt64)
  | insert (malloc : Malloc Nat (ListElement Content)) (content : Option Content) (size : UInt64)
      (index : Nat)
  | findItem (content : Option Content) (callback : Option (Callback Content))
  | detach (content : Option Content)
  | remove (content : Option Content)
  | detachItem (content : Option Content) (callback : Option (Callback Content))
  | removeItem (content : Option Content) (callback : Option (Callback Content))
  | detachHead
  | removeHead
  | popTail
  | empty
  | walk (n : Nat)
  | walkBack (n : Nat)

/-- What a call gives back: an element, whether an item was removed, a content, and the contents
that were freed. -/
structure Response (Content : Type) where
  element : Option Nat := none
  removed : Bool := false
  content : Option Content := none
  freed : List Content := []

/-- Make a call. -/
def Call.perform [DecidableEq Content] : Call Content → ListProgram Content (Response Content)
  | .append malloc content size => return { element := ← listAppend malloc content size }
  | .insert malloc content size index => do
      let index ← Lists.walk index
      return { element := ← listInsert malloc content size index }
  | .findItem content callback => return { element := ← listFindItem content callback }
  | .detach content => unlinked (listDetach content)
  | .remove content => unlinked (listRemove content)
  | .detachItem content callback => unlinked (listDetachItem content callback)
  | .removeItem content callback => unlinked (listRemoveItem content callback)
  | .detachHead => return { content := ← listDetachHead }
  | .removeHead => return { freed := ← listRemoveHead }
  | .popTail => return { content := ← listPopTail }
  | .empty => return { freed := ← listEmpty }
  | .walk n => return { element := ← Lists.walk n }
  | .walkBack n => return { element := ← Lists.walkBack n }
where
  /-- The response of a function over `ListUnlink`. -/
  unlinked (call : ListProgram Content (Bool × List Content)) :
    ListProgram Content (Response Content) := do
    let (removed, freed) ← call
    return { removed, freed }

/-- Make these calls. -/
def perform [DecidableEq Content] : List (Call Content) → ListProgram Content Unit
  | [] => return ()
  | call :: calls => do
      let _ ← call.perform
      perform calls

/-- The elements that are in both lists are in the same order. -/
def KeepsOrder [DecidableEq Content] (before after : Elements Content) : Prop :=
  (before.filter fun element => element ∈ after) = after.filter fun element => element ∈ before

section Order

variable [DecidableEq Content] {elements xs ys : Elements Content} {addr : Nat}
  {content : Option Content}

theorem KeepsOrder.refl : KeepsOrder elements elements :=
  rfl

theorem KeepsOrder.symm {before after : Elements Content} (keeps : KeepsOrder before after) :
    KeepsOrder after before :=
  Eq.symm keeps

theorem keepsOrder_insert (xs ys : Elements Content) (addr : Nat) (content : Option Content)
    (new : addr ∉ (xs ++ ys).map Prod.fst) :
    KeepsOrder (xs ++ ys) (xs ++ (addr, content) :: ys) := by
  have absent : (addr, content) ∉ xs ++ ys := fun mem => new (List.mem_map_of_mem mem)
  have kept : (xs ++ ys).filter (fun element => element ∈ xs ++ (addr, content) :: ys) =
    xs ++ ys := by
    rw [List.filter_eq_self]
    intro element mem
    simp only [List.mem_append, List.mem_cons, decide_eq_true_eq] at mem ⊢
    tauto
  have front : xs.filter (fun element => element ∈ xs ++ ys) = xs :=
    List.filter_eq_self.mpr fun element mem => by simp [mem]
  have back : ys.filter (fun element => element ∈ xs ++ ys) = ys :=
    List.filter_eq_self.mpr fun element mem => by simp [mem]
  rw [KeepsOrder, kept, List.filter_append,
    List.filter_cons_of_neg (by simpa using absent), front, back]

theorem keepsOrder_nil : KeepsOrder elements [] := by
  simp [KeepsOrder]

end Order

/-- `ListUnlink` took an element out that matches, or there is none. -/
def Unlinks [DecidableEq Content] (callback : Option (Callback Content)) (key : Option Content)
    (freeContent : Bool) (elements : Elements Content) (response : Response Content)
    (elements' : Elements Content) : Prop :=
  (response.removed = false ∧ response.freed = [] ∧ elements' = elements ∧
      ∀ element ∈ elements, matchesContent callback element.2 key = false) ∨
    ∃ xs addr content ys, elements = xs ++ (addr, content) :: ys ∧
      matchesContent callback content key = true ∧ response.removed = true ∧
      response.freed = (if freeContent then content.toList else []) ∧ elements' = xs ++ ys

/-- `malloc` failed, or there is a new element. -/
def Adds (elements : Elements Content) (index : Nat) (content : Option Content)
    (response : Response Content) (elements' : Elements Content) : Prop :=
  (response.element = none ∧ elements' = elements) ∨
    ∃ addr, response.element = some addr ∧ addr ∉ elements.map Prod.fst ∧
      elements' = elements.take index ++ (addr, content) :: elements.drop index

/-- What a call does to a list of elements. -/
def Call.Does [DecidableEq Content] (elements : Elements Content) (response : Response Content)
    (elements' : Elements Content) : Call Content → Prop
  | .append _ content _ => Adds elements elements.length content response elements'
  | .insert _ content _ index => Adds elements index content response elements'
  | .findItem key callback => elements' = elements ∧
      (∀ addr, response.element = some addr →
        ∃ content, (addr, content) ∈ elements ∧ matchesContent callback content key = true) ∧
      (response.element = none →
        ∀ element ∈ elements, matchesContent callback element.2 key = false)
  | .detach key => Unlinks none key false elements response elements'
  | .remove key => Unlinks none key true elements response elements'
  | .detachItem key callback => Unlinks callback key false elements response elements'
  | .removeItem key callback => Unlinks callback key true elements response elements'
  | .detachHead => elements' = elements.tail ∧ response.content = elements.head?.bind Prod.snd
  | .removeHead => elements' = elements.tail ∧
      response.freed = (elements.head?.bind Prod.snd).toList
  | .popTail => elements' = elements.dropLast ∧ response.content = elements.getLast?.bind Prod.snd
  | .empty => elements' = [] ∧ response.freed = contentsOf elements
  | .walk n => elements' = elements ∧ response.element = elements[n]?.map Prod.fst
  | .walkBack n => elements' = elements ∧ response.element = elements.reverse[n]?.map Prod.fst

section Specification

variable [DecidableEq Content] {elements elements' : Elements Content} {response : Response Content}
  {rest contents : Multiset (Nat × ListElement Content)} {vars : ListVars}

theorem Unlinks.keepsOrder {callback : Option (Callback Content)} {key : Option Content}
    {freeContent : Bool} (unlinks : Unlinks callback key freeContent elements response elements')
    (nodup : (elements.map Prod.fst).Nodup) : KeepsOrder elements elements' := by
  rcases unlinks with ⟨-, -, rfl, -⟩ | ⟨xs, addr, content, ys, rfl, -, -, -, rfl⟩
  · exact .refl
  · refine (keepsOrder_insert _ _ _ _ ?_).symm
    rw [List.map_append, List.map_cons, List.nodup_middle, List.nodup_cons] at nodup
    rw [List.map_append]
    exact nodup.1

theorem Adds.keepsOrder {index : Nat} {content : Option Content}
    (adds : Adds elements index content response elements') : KeepsOrder elements elements' := by
  rcases adds with ⟨-, rfl⟩ | ⟨addr, -, new, rfl⟩
  · exact .refl
  · rw [← List.take_append_drop index elements] at new
    have keeps := keepsOrder_insert _ _ _ content new
    rwa [List.take_append_drop] at keeps

/-- Elements keep their order in a call. -/
theorem Call.Does.keepsOrder {call : Call Content} (does : call.Does elements response elements')
    (nodup : (elements.map Prod.fst).Nodup) : KeepsOrder elements elements' := by
  have tail : KeepsOrder elements elements.tail := by
    rcases elements with _ | ⟨⟨addr, content⟩, elements⟩
    · exact .refl
    · exact (keepsOrder_insert [] _ _ _ (List.nodup_cons.mp nodup).1).symm
  have front : KeepsOrder elements elements.dropLast := by
    rcases List.eq_nil_or_concat' elements with rfl | ⟨elements, ⟨addr, content⟩, rfl⟩
    · exact .refl
    · rw [List.map_append, List.map_singleton, List.nodup_append_comm] at nodup
      rw [List.dropLast_concat]
      have keeps := keepsOrder_insert elements [] addr content
        (by rw [List.append_nil]; exact (List.nodup_cons.mp nodup).1)
      rw [List.append_nil] at keeps
      exact keeps.symm
  cases call with
  | append | insert => exact Adds.keepsOrder does
  | detach | remove | detachItem | removeItem => exact Unlinks.keepsOrder does nodup
  | findItem | walk | walkBack => exact does.1 ▸ .refl
  | detachHead | removeHead => exact does.1 ▸ tail
  | popTail => exact does.1 ▸ front
  | empty => exact does.1 ▸ keepsOrder_nil

/-- What a walk does: it reads, and gives this pointer. -/
def Gives (contents : Multiset (Nat × ListElement Content)) (vars : ListVars)
    (pointer pos : Option Nat) (contents' : Multiset (Nat × ListElement Content))
    (vars' : ListVars) : Prop :=
  contents' = contents ∧ vars' = vars ∧ pos = pointer

omit [DecidableEq Content] in
theorem walk_spec (represents : Represents elements rest contents vars) (n : Nat) :
    Runs (walk n) contents vars (Gives contents vars (elements[n]?.map Prod.fst)) := by
  induction n with
  | zero =>
      rw [walk, ← bind_pure (listNextElement none), ← List.head?_eq_getElem?, ← firstOf_eq_head?]
      exact listNextElement_spec [] _ represents (Runs.pure ⟨rfl, rfl, rfl⟩)
  | succ n ih =>
      rw [walk]
      refine Runs.bind _ ih ?_
      rintro _ _ _ ⟨rfl, rfl, rfl⟩
      cases here : elements[n]? with
      | none =>
          have beyond : elements[n + 1]? = none := by
            rw [List.getElem?_eq_none_iff] at here ⊢
            omega
          rw [Option.map_none, if_pos rfl, beyond]
          exact Runs.pure ⟨rfl, rfl, rfl⟩
      | some element =>
          have last : lastOf none (elements.take (n + 1)) = some element.1 := by
            rw [lastOf_eq_getLast?, List.getLast?_take, if_neg (Nat.succ_ne_zero n),
              Nat.add_sub_cancel, here]
            rfl
          rw [← List.take_append_drop (n + 1) elements] at represents
          rw [Option.map_some, if_neg (Option.some_ne_none _), ← last,
            ← bind_pure (listNextElement _), ← List.head?_drop, ← firstOf_eq_head?]
          exact listNextElement_spec _ _ represents (Runs.pure ⟨rfl, rfl, rfl⟩)

omit [DecidableEq Content] in
theorem walkBack_spec (represents : Represents elements rest contents vars) (n : Nat) :
    Runs (walkBack n) contents vars (Gives contents vars (elements.reverse[n]?.map Prod.fst)) := by
  induction n with
  | zero =>
      rw [walkBack, ← bind_pure (listPrevElement none), ← List.head?_eq_getElem?,
        List.head?_reverse,
        ← lastOf_eq_getLast?]
      exact listPrevElement_spec _ [] (by rwa [List.append_nil]) (Runs.pure ⟨rfl, rfl, rfl⟩)
  | succ n ih =>
      rw [walkBack]
      refine Runs.bind _ ih ?_
      rintro _ _ _ ⟨rfl, rfl, rfl⟩
      cases here : elements.reverse[n]? with
      | none =>
          have beyond : elements.reverse[n + 1]? = none := by
            rw [List.getElem?_eq_none_iff] at here ⊢
            omega
          rw [Option.map_none, if_pos rfl, beyond]
          exact Runs.pure ⟨rfl, rfl, rfl⟩
      | some element =>
          have inside : n < elements.length := by
            have := (List.getElem?_eq_some_iff.mp here).1
            rwa [List.length_reverse] at this
          have split := List.take_append_drop (elements.length - (n + 1)) elements
          have behind : (elements.drop (elements.length - (n + 1))).length = n + 1 := by
            rw [List.length_drop]
            omega
          have first : firstOf (elements.drop (elements.length - (n + 1))) none =
            some element.1 := by
            rw [firstOf_eq_head?, List.head?_drop, Nat.sub_add_eq, Nat.sub_right_comm,
              ← List.getElem?_reverse inside, here]
            rfl
          have before : elements.reverse[n + 1]? =
            (elements.take (elements.length - (n + 1))).getLast? := by
            conv_lhs => rw [← split]
            rw [List.reverse_append, List.getElem?_append_right, List.length_reverse,
              behind, Nat.sub_self,
              ← List.head?_eq_getElem?, List.head?_reverse]
            rw [List.length_reverse, behind]
          rw [← split] at represents
          rw [Option.map_some, if_neg (Option.some_ne_none _), ← first,
            ← bind_pure (listPrevElement _),
            before, ← lastOf_eq_getLast?]
          exact listPrevElement_spec _ _ represents (Runs.pure ⟨rfl, rfl, rfl⟩)

theorem unlinked_spec {callback : Option (Callback Content)} {key : Option Content}
    {freeContent : Bool} (represents : Represents elements rest contents vars) :
    Runs (Call.perform.unlinked (listUnlink key callback freeContent)) contents vars
      fun response contents' vars' => ∃ elements', Represents elements' rest contents' vars' ∧
        Unlinks callback key freeContent elements response elements' := by
  rw [Call.perform.unlinked]
  refine Runs.bind _ (listUnlink_spec represents) ?_
  rintro _ contents' vars' (⟨rfl, rfl, rfl, noMatch⟩
    | ⟨xs, addr, content, ys, rfl, isMatch, rfl, after⟩)
  · exact Runs.pure ⟨elements, represents, .inl ⟨rfl, rfl, rfl, noMatch⟩⟩
  · exact Runs.pure ⟨xs ++ ys, after, .inr ⟨xs, addr, content, ys, rfl, isMatch, rfl, rfl, rfl⟩⟩

omit [DecidableEq Content] in
theorem append_spec {malloc : Malloc Nat (ListElement Content)} {content : Option Content}
    {size : UInt64} {index : Nat} (represents : Represents elements rest contents vars)
    (behind : elements.length ≤ index) :
    Runs (listAppend malloc content size) contents vars fun newel contents' vars' =>
      ∃ elements', Represents elements' rest contents' vars' ∧
        Adds elements index content { element := newel } elements' := by
  refine (listAppend_spec represents).imp ?_
  rintro _ contents' vars' (⟨rfl, rfl, rfl, -⟩ | ⟨addr, rfl, new, after, -⟩)
  · exact ⟨elements, represents, .inl ⟨rfl, rfl⟩⟩
  · refine ⟨_, after, .inr ⟨addr, rfl, new, ?_⟩⟩
    rw [List.take_of_length_le behind, List.drop_of_length_le behind]

omit [DecidableEq Content] in
theorem insert_spec {malloc : Malloc Nat (ListElement Content)} {content : Option Content}
    {size : UInt64} {index : Nat} (represents : Represents elements rest contents vars) :
    Runs (listInsert malloc content size (elements[index]?.map Prod.fst)) contents vars
      fun newel contents' vars' => ∃ elements', Represents elements' rest contents' vars' ∧
        Adds elements index content { element := newel } elements' := by
  cases here : elements[index]? with
  | none =>
      rw [Option.map_none, listInsert_none]
      exact append_spec represents (List.getElem?_eq_none_iff.mp here)
  | some element =>
      rcases element with ⟨place, found⟩
      have split : elements = elements.take index ++ (place, found) ::
        elements.drop (index + 1) := by
        rcases List.getElem?_eq_some_iff.mp here with ⟨inside, here⟩
        rw [← here, List.getElem_cons_drop, List.take_append_drop]
      have behind : (place, found) :: elements.drop (index + 1) = elements.drop index := by
        rcases List.getElem?_eq_some_iff.mp here with ⟨inside, here⟩
        rw [← here, List.getElem_cons_drop]
      have isSplit := represents
      rw [split] at isSplit
      refine (listInsert_spec isSplit).imp ?_
      rintro _ contents' vars' (⟨rfl, rfl, rfl, -⟩ | ⟨addr, rfl, new, after⟩)
      · exact ⟨elements, represents, .inl ⟨rfl, rfl⟩⟩
      · rw [← split] at new
        rw [behind] at after
        exact ⟨_, after, .inr ⟨addr, rfl, new, rfl⟩⟩

/-- One call. -/
theorem Call.perform_spec (call : Call Content)
    (represents : Represents elements rest contents vars) :
    Runs call.perform contents vars fun response contents' vars' =>
      ∃ elements', Represents elements' rest contents' vars' ∧
      call.Does elements response elements' := by
  cases call with
  | append malloc content size =>
      exact Runs.bind _ (append_spec represents (Nat.le_refl _)) fun _ _ _ done => Runs.pure done
  | insert malloc content size index =>
      refine Runs.bind _ (walk_spec represents index) ?_
      rintro _ _ _ ⟨rfl, rfl, rfl⟩
      exact Runs.bind _ (insert_spec represents) fun _ _ _ done => Runs.pure done
  | findItem key callback =>
      refine Runs.bind _ (listFindItem_spec represents) ?_
      rintro _ _ vars' ⟨rfl, ⟨rfl, rfl, noMatch⟩ | ⟨addr, content, rfl, mem, isMatch, rfl⟩⟩
      · refine Runs.pure ⟨elements, represents, rfl, fun addr found => ?_, fun _ => noMatch⟩
        cases found
      · refine Runs.pure ⟨elements, { represents with current_mem := ?_ }, rfl, ?_, fun found => ?_⟩
        · rintro _ ⟨⟩
          exact ⟨content, mem⟩
        · rintro _ ⟨⟩
          exact ⟨content, mem, isMatch⟩
        · cases found
  | detach | remove | detachItem | removeItem => exact unlinked_spec represents
  | detachHead =>
      refine Runs.bind _ (listDetachHead_spec represents) ?_
      rintro _ contents' vars' ⟨after, rfl⟩
      exact Runs.pure ⟨_, after, rfl, rfl⟩
  | removeHead =>
      rw [Call.perform, listRemoveHead, bind_assoc]
      refine Runs.bind _ (listDetachHead_spec represents) ?_
      rintro _ contents' vars' ⟨after, rfl⟩
      exact Runs.pure ⟨_, after, rfl, rfl⟩
  | popTail =>
      refine Runs.bind _ (listPopTail_spec represents) ?_
      rintro _ contents' vars' ⟨after, rfl⟩
      exact Runs.pure ⟨_, after, rfl, rfl⟩
  | empty =>
      refine Runs.bind _ (listEmpty_spec represents) ?_
      rintro _ contents' vars' ⟨after, rfl⟩
      exact Runs.pure ⟨_, after, rfl, rfl⟩
  | walk n =>
      refine Runs.bind _ (walk_spec represents n) ?_
      rintro _ _ _ ⟨rfl, rfl, rfl⟩
      exact Runs.pure ⟨elements, represents, rfl, rfl⟩
  | walkBack n =>
      refine Runs.bind _ (walkBack_spec represents n) ?_
      rintro _ _ _ ⟨rfl, rfl, rfl⟩
      exact Runs.pure ⟨elements, represents, rfl, rfl⟩

/-- Any calls. -/
theorem perform_spec (calls : List (Call Content))
    (represents : Represents elements rest contents vars) :
    Runs (perform calls) contents vars fun _ contents' vars' =>
      ∃ elements', Represents elements' rest contents' vars' := by
  induction calls generalizing elements contents vars with
  | nil => exact Runs.pure ⟨elements, represents⟩
  | cons call calls ih =>
      refine Runs.bind _ (call.perform_spec represents) ?_
      rintro _ contents' vars' ⟨elements', after, -⟩
      exact ih after

end Specification

/-- A list in memory, where nothing else is. -/
structure WellFormed (memory : Memory Nat (ListElement Content) ListVars)
    (elements : Elements Content) :
    Prop where
  nodup : (elements.map Prod.fst).Nodup
  element : ∀ xs addr content ys, elements = xs ++ (addr, content) :: ys → memory.records addr =
    some ⟨xs.getLast?.map Prod.fst, ys.head?.map Prod.fst, content⟩
  no_other : ∀ addr ∉ elements.map Prod.fst, memory.records addr = none
  first : memory.vars.first = elements.head?.map Prod.fst
  last : memory.vars.last = elements.getLast?.map Prod.fst
  count : memory.vars.count = elements.length
  current : ∀ addr, memory.vars.current = some addr → addr ∈ elements.map Prod.fst

/-- `next` and `prev` are inverse to each other. -/
theorem WellFormed.inverse {memory : Memory Nat (ListElement Content) ListVars}
    {elements : Elements Content} (wellFormed : WellFormed memory elements) {a b : Nat}
    {x y : ListElement Content} (isFirst : memory.records a = some x)
    (isSecond : memory.records b = some y) :
    x.next = some b ↔ y.prev = some a := by
  have isElement {place : Nat} {record : ListElement Content}
    (isThere : memory.records place = some record) :
      ∃ content, (place, content) ∈ elements := by
    by_contra absent
    rw [wellFormed.no_other place] at isThere
    · cases isThere
    · intro mem
      rcases List.mem_map.mp mem with ⟨⟨_, content⟩, inList, rfl⟩
      exact absent ⟨content, inList⟩
  constructor
  · intro next
    rcases isElement isFirst with ⟨content, mem⟩
    rcases List.append_of_mem mem with ⟨xs, ys, split⟩
    rw [wellFormed.element xs a content ys split] at isFirst
    cases isFirst
    rcases ys with _ | ⟨⟨place, found⟩, ys⟩
    · cases next
    · cases next
      rw [wellFormed.element (xs ++ [(a, content)]) place found ys
        (by rw [split]; simp)] at isSecond
      cases isSecond
      rw [List.getLast?_concat]
      rfl
  · intro prev
    rcases isElement isSecond with ⟨content, mem⟩
    rcases List.append_of_mem mem with ⟨xs, ys, split⟩
    rw [wellFormed.element xs b content ys split] at isSecond
    cases isSecond
    rcases List.eq_nil_or_concat' xs with rfl | ⟨xs, ⟨place, found⟩, rfl⟩
    · cases prev
    · rw [List.getLast?_concat] at prev
      cases prev
      rw [wellFormed.element xs place found ((b, content) :: ys) (by rw [split]; simp)] at isFirst
      cases isFirst
      rfl

theorem wellFormed_of_represents {records : Nat → Option (ListElement Content)}
    {elements : Elements Content} {contents : Multiset (Nat × ListElement Content)}
    {vars : ListVars} (holds : Holds records contents)
    (represents : Represents elements 0 contents vars) :
    WellFormed ⟨records, vars⟩ elements where
  nodup := represents.nodup holds.nodup
  element := by
    rintro xs addr content ys rfl
    rw [← lastOf_eq_getLast?, ← firstOf_eq_head?]
    exact holds.read (represents.mem_contents _)
  no_other := by
    intro addr absent
    rw [Option.eq_none_iff_forall_not_mem]
    intro record mem
    refine absent ?_
    have isThere := Holds.mem_map_of_mem ((holds.eq_some_iff addr record).mp mem)
    rw [represents.contents_eq, add_zero, map_fst_links] at isThere
    exact isThere
  first := by rw [represents.first_eq, firstOf_eq_head?]
  last := by rw [represents.last_eq, lastOf_eq_getLast?]
  count := represents.count_eq
  current := by
    intro addr isCurrent
    rcases represents.current_mem addr isCurrent with ⟨content, mem⟩
    exact List.mem_map_of_mem mem

/-- The list is well-formed after any calls, and after a further call from any `current`. Elements
keep their order, and a search finds an element that matches if there is one. -/
theorem perform_wellFormed [DecidableEq Content] (calls : List (Call Content)) :
    ∃ memory elements, perform calls ⟨fun _ => none, listZero⟩ = some ((), memory) ∧
      WellFormed memory elements ∧
      (∀ a x b y, memory.records a = some x → memory.records b = some y →
        (x.next = some b ↔ y.prev = some a)) ∧
      ∀ current : Option Nat, (∀ addr, current = some addr → addr ∈ elements.map Prod.fst) →
        ∀ call : Call Content, ∃ response memory' elements',
          call.perform ⟨memory.records, { memory.vars with current := current }⟩ =
          some (response, memory') ∧
          WellFormed memory' elements' ∧ call.Does elements response elements' ∧
          KeepsOrder elements elements' := by
  have start : Represents ([] : Elements Content) 0 0 listZero :=
    ⟨rfl, rfl, rfl, rfl, fun _ isCurrent => by cases isCurrent⟩
  rcases perform_spec calls start _ Holds.empty with
    ⟨⟨⟩, records, contents, vars, done, holds, elements, represents⟩
  have wellFormed := wellFormed_of_represents holds represents
  refine ⟨_, elements, done, wellFormed, fun _ _ _ _ => wellFormed.inverse,
    fun current isElement call => ?_⟩
  have moved : Represents elements 0 contents { vars with current := current } :=
    { represents with
      current_mem := fun addr isCurrent => by
        rcases List.mem_map.mp (isElement addr isCurrent) with ⟨⟨_, content⟩, mem, rfl⟩
        exact ⟨content, mem⟩ }
  rcases call.perform_spec moved _ holds with
    ⟨response, records', contents', vars', done', holds', elements', after, does⟩
  exact ⟨response, _, elements', done', wellFormed_of_represents holds' after, does,
    does.keepsOrder wellFormed.nodup⟩

end Lists

end Paho
