import Paho.Pointers.LinkedList

/-!
# The links of a list

The elements of a list in memory, with their `prev` and `next`, and what each function of
`LinkedList.c` makes of them.
-/

namespace Paho

open Records

namespace Lists

variable {Content : Type}

/-- Elements with their addresses and contents. -/
abbrev Elements (Content : Type) :=
  List (Nat × Option Content)

/-- The pointer to the first of these elements, and behind them otherwise. -/
def firstOf (elements : Elements Content) (next : Option Nat) : Option Nat :=
  match elements with
  | [] => next
  | (addr, _) :: _ => some addr

/-- The pointer to the last of these elements, and in front of them otherwise. -/
def lastOf (prev : Option Nat) : Elements Content → Option Nat
  | [] => prev
  | (addr, _) :: elements => lastOf (some addr) elements

/-- The records of linked elements between two pointers. -/
def links (prev : Option Nat) : Elements Content → Option Nat → Multiset (Nat × ListElement Content)
  | [], _ => 0
  | (addr, content) :: elements, next =>
      {(addr, ⟨prev, firstOf elements next, content⟩)} + links (some addr) elements next

variable {xs ys elements : Elements Content} {prev next : Option Nat} {addr : Nat}
  {content : Option Content}

@[simp]
theorem firstOf_append : firstOf (xs ++ ys) next = firstOf xs (firstOf ys next) := by
  cases xs <;> rfl

@[simp]
theorem lastOf_append : lastOf prev (xs ++ ys) = lastOf (lastOf prev xs) ys := by
  induction xs generalizing prev with
  | nil => rfl
  | cons x xs ih => exact ih

theorem firstOf_eq_head? : firstOf elements none = elements.head?.map Prod.fst := by
  cases elements <;> rfl

theorem lastOf_eq_getLast? : lastOf none elements = elements.getLast?.map Prod.fst := by
  rcases List.eq_nil_or_concat' elements with rfl | ⟨front, ⟨addr, content⟩, rfl⟩
  · rfl
  · rw [lastOf_append, List.getLast?_concat]
    rfl

theorem lastOf_none_eq_none_iff : lastOf none elements = none ↔ firstOf elements none = none := by
  rcases List.eq_nil_or_concat' elements with rfl | ⟨front, ⟨addr, content⟩, rfl⟩
  · rfl
  · cases front <;> simp [lastOf, firstOf]

theorem links_append :
    links prev (xs ++ ys) next = links prev xs (firstOf ys next) +
      links (lastOf prev xs) ys next := by
  induction xs generalizing prev with
  | nil => simp [links, lastOf]
  | cons x xs ih => simp [links, lastOf, ih]

/-- The records at an element in the middle. -/
theorem links_middle :
    links prev (xs ++ (addr, content) :: ys) next =
      {(addr, ⟨lastOf prev xs, firstOf ys next, content⟩)} +
        (links prev xs (some addr) + links (some addr) ys next) := by
  rw [links_append, links, firstOf]
  ac_rfl

theorem map_fst_links : (links prev elements next).map Prod.fst =
    (elements.map Prod.fst : List Nat) := by
  induction elements generalizing prev with
  | nil => rfl
  | cons x xs ih => simp [links, ih]

/-- The variables and the records of a list; `rest` is in memory beside it. -/
structure Represents (elements : Elements Content)
    (rest contents : Multiset (Nat × ListElement Content)) (vars : ListVars) : Prop where
  contents_eq : contents = links none elements none + rest
  first_eq : vars.first = firstOf elements none
  last_eq : vars.last = lastOf none elements
  count_eq : vars.count = elements.length
  current_mem : ∀ addr, vars.current = some addr → ∃ content, (addr, content) ∈ elements

theorem Represents.not_mem {rest contents : Multiset (Nat × ListElement Content)} {vars : ListVars}
    (represents : Represents elements rest contents vars) (new : addr ∉ contents.map Prod.fst) :
    addr ∉ elements.map Prod.fst := by
  rw [represents.contents_eq, Multiset.map_add, map_fst_links, Multiset.mem_add, not_or] at new
  exact new.1

section Functions

variable {rest contents : Multiset (Nat × ListElement Content)} {vars : ListVars} {size : UInt64}
  {malloc : Malloc Nat (ListElement Content)} {place : Nat}

section Relinking

variable {α : Type} {post : α → Multiset (Nat × ListElement Content) → ListVars → Prop}
  {continuation : Unit → ListProgram Content α}

/-- `next` of the last of these elements is set to another pointer. -/
theorem storeNext_spec {p : Option Nat} (prev q : Option Nat)
    (rest : Multiset (Nat × ListElement Content)) (some_element : xs ≠ [])
    (parts : contents = links prev xs q + rest)
    (continues : Runs (continuation ()) (links prev xs p + rest) vars post) :
    Runs (store (lastOf prev xs) (fun el => { el with next := p }) >>= continuation)
      contents vars post := by
  subst parts
  rcases List.eq_nil_or_concat' xs with rfl | ⟨front, ⟨addr, content⟩, rfl⟩
  · exact absurd rfl some_element
  · rw [lastOf_append]
    refine Runs.store ⟨lastOf prev front, q, content⟩
      (links prev front (some addr) + rest) ?_ ?_
    · rw [links_middle]
      simp only [links, firstOf, add_zero]
      ac_rfl
    · rw [links_middle] at continues
      simp only [links, firstOf, add_zero, add_assoc] at continues
      exact continues

/-- `prev` of the first of these elements is set to another pointer. -/
theorem storePrev_spec {p : Option Nat} (ys : Elements Content) (next q : Option Nat)
    (rest : Multiset (Nat × ListElement Content)) (some_element : ys ≠ [])
    (parts : contents = links q ys next + rest)
    (continues : Runs (continuation ()) (links p ys next + rest) vars post) :
    Runs (store (firstOf ys next) (fun el => { el with prev := p }) >>= continuation)
      contents vars post := by
  subst parts
  rcases ys with _ | ⟨⟨addr, content⟩, ys⟩
  · exact absurd rfl some_element
  · refine Runs.store ⟨q, firstOf ys next, content⟩
      (links (some addr) ys next + rest) ?_ ?_
    · rw [links, add_assoc]
    · rw [links, add_assoc] at continues
      exact continues

/-- `next` of the last of these elements, or `first`, is set to another pointer. -/
theorem setNext_spec {p : Option Nat} (q : Option Nat) (rest : Multiset (Nat × ListElement Content))
    (parts : contents = links none xs q + rest)
    (first_eq : vars.first = firstOf xs q)
    (continues : Runs (continuation ()) (links none xs p + rest)
      { vars with first := firstOf xs p } post) :
    Runs ((if lastOf none xs = none then assign fun aList => { aList with first := p }
      else store (lastOf none xs) fun el => { el with next := p }) >>= continuation)
        contents vars post := by
  rcases xs with _ | ⟨⟨addr, content⟩, xs⟩
  · subst parts
    rw [if_pos (show lastOf none ([] : Elements Content) = none from rfl)]
    exact Runs.assign continues
  · have same : { vars with first := firstOf ((addr, content) :: xs) p } = vars := by
      rw [firstOf, ← show vars.first = some addr from first_eq]
    rw [same] at continues
    rw [if_neg (by rw [lastOf_none_eq_none_iff]; exact Option.some_ne_none addr)]
    exact storeNext_spec _ _ _ (List.cons_ne_nil _ _) parts continues

/-- `prev` of the first of these elements, or `last`, is set to another pointer. -/
theorem setPrev_spec {p : Option Nat} (q : Option Nat) (rest : Multiset (Nat × ListElement Content))
    (parts : contents = links q ys none + rest)
    (last_eq : vars.last = lastOf q ys)
    (continues : Runs (continuation ()) (links p ys none + rest)
      { vars with last := lastOf p ys } post) :
    Runs ((if firstOf ys none = none then assign fun aList => { aList with last := p }
      else store (firstOf ys none) fun el => { el with prev := p }) >>= continuation)
        contents vars post := by
  rcases ys with _ | ⟨⟨addr, content⟩, ys⟩
  · subst parts
    rw [if_pos (show firstOf ([] : Elements Content) none = none from rfl)]
    exact Runs.assign continues
  · have same : { vars with last := lastOf p ((addr, content) :: ys) } = vars := by
      rw [lastOf, ← show vars.last = lastOf (some addr) ys by rw [last_eq, lastOf]]
    rw [same] at continues
    rw [if_neg (show firstOf ((addr, content) :: ys) none ≠ none from Option.some_ne_none addr)]
    exact storePrev_spec _ _ _ _ (List.cons_ne_nil _ _) parts continues

end Relinking

theorem listAppendNoMalloc_spec (represents : Represents elements rest contents vars)
    {old : ListElement Content} :
    Runs (listAppendNoMalloc content (some addr) size) ({(addr, old)} + contents) vars
      fun _ contents' vars' => Represents (elements ++ [(addr, content)]) rest contents' vars' ∧
        vars'.current = vars.current := by
  rw [listAppendNoMalloc]
  refine Runs.look (Runs.store _ _ rfl (Runs.store _ _ rfl (Runs.store _ _ rfl ?_)))
  simp only [represents.first_eq, represents.last_eq, ← lastOf_none_eq_none_iff]
  refine setNext_spec none ({(addr, ⟨lastOf none elements, none, content⟩)} + rest) ?_
    represents.first_eq ?_
  · rw [represents.contents_eq]
    ac_rfl
  · refine Runs.assign (Runs.assign (Runs.assign_last ⟨?_, rfl⟩))
    refine ⟨?_, ?_, ?_, ?_, fun place isCurrent => ?_⟩
    · rw [links_append]
      simp only [links, firstOf, add_zero]
      ac_rfl
    · rw [firstOf_append, firstOf]
    · rw [lastOf_append, lastOf, lastOf]
    · rw [List.length_append]
      exact congrArg (· + 1) represents.count_eq
    · exact (represents.current_mem place isCurrent).imp fun _ mem => List.mem_append_left _ mem

theorem listAppend_spec (represents : Represents elements rest contents vars) :
    Runs (listAppend malloc content size) contents vars fun newel contents' vars' =>
      (newel = none ∧ contents' = contents ∧ vars' = vars ∧
          ∃ records, Holds records contents ∧ malloc.result records = none) ∨
        ∃ addr, newel = some addr ∧ addr ∉ elements.map Prod.fst ∧
          Represents (elements ++ [(addr, content)]) rest contents' vars' ∧
          vars'.current = vars.current := by
  rw [listAppend]
  refine Runs.malloc ?_ ?_
  · exact fun failed => Runs.pure (.inl ⟨rfl, rfl, rfl, failed⟩)
  · intro addr old _ new
    rw [if_neg (Option.some_ne_none addr)]
    refine Runs.bind _ (listAppendNoMalloc_spec represents) ?_
    exact fun _ contents' vars' after => Runs.pure (.inr ⟨addr, rfl, represents.not_mem new, after⟩)

theorem listInsert_spec {found : Option Content}
    (represents : Represents (xs ++ (place, found) :: ys) rest contents vars) :
    Runs (listInsert malloc content size (some place)) contents vars fun newel contents' vars' =>
      (newel = none ∧ contents' = contents ∧ vars' = vars ∧
          ∃ records, Holds records contents ∧ malloc.result records = none) ∨
        ∃ addr, newel = some addr ∧ addr ∉ (xs ++ (place, found) :: ys).map Prod.fst ∧
          Represents (xs ++ (addr, content) :: (place, found) :: ys) rest contents' vars' := by
  rw [listInsert]
  refine Runs.malloc ?_ ?_
  · exact fun failed => Runs.pure (.inl ⟨rfl, rfl, rfl, failed⟩)
  · intro addr old _ new
    have kept : ∀ place', vars.current = some place' →
        ∃ content', (place', content') ∈ xs ++ (addr, content) :: (place, found) :: ys := by
      intro place' isCurrent
      rcases represents.current_mem place' isCurrent with ⟨content', mem⟩
      refine ⟨content', ?_⟩
      simp only [List.mem_append, List.mem_cons] at mem ⊢
      tauto
    have parts : contents = {(place, ⟨lastOf none xs, firstOf ys none, found⟩)} +
        (links none xs (some place) + links (some place) ys none + rest) := by
      rw [represents.contents_eq, links_middle]
      ac_rfl
    rw [if_neg (Option.some_ne_none addr), if_neg (Option.some_ne_none place)]
    refine Runs.store _ _ rfl
      (Runs.store _ _ rfl (Runs.load ⟨lastOf none xs, firstOf ys none, found⟩ ?_ ?_))
    · rw [parts]
      simp
    refine Runs.store _ _ rfl (Runs.store ⟨lastOf none xs, firstOf ys none, found⟩
      ({(addr, ⟨lastOf none xs, some place, content⟩)} +
        (links none xs (some place) + links (some place) ys none + rest)) ?_ ?_)
    · rw [parts]
      ac_rfl
    have first : vars.first = firstOf xs (some place) := by
      rw [represents.first_eq, firstOf_append, firstOf]
    refine setNext_spec (some place) ({(place, ⟨some addr, firstOf ys none, found⟩)} +
      {(addr, ⟨lastOf none xs, some place, content⟩)} + (links (some place) ys none + rest)) ?_
        first ?_
    · ac_rfl
    · refine Runs.assign (Runs.assign (Runs.pure (.inr ⟨addr, rfl, represents.not_mem new, ?_⟩)))
      refine ⟨?_, ?_, ?_, ?_, kept⟩
      · rw [links_middle, links]
        simp only [firstOf]
        ac_rfl
      · rw [firstOf_append, firstOf]
      · simp only [represents.last_eq, lastOf_append, lastOf]
      · have count := represents.count_eq
        simp only [List.length_append, List.length_cons] at count ⊢
        omega

/-- Without an element to insert at, `ListInsert` is `ListAppend`. -/
theorem listInsert_none : listInsert malloc content size none = listAppend malloc content size := by
  rw [listInsert, listAppend]
  simp

theorem Represents.mem_contents (xs : Elements Content)
    (represents : Represents (xs ++ (addr, content) :: ys) rest contents vars) :
    (addr, ⟨lastOf none xs, firstOf ys none, content⟩) ∈ contents := by
  rw [represents.contents_eq, links_middle]
  simp

section Walks

variable {α : Type} {post : α → Multiset (Nat × ListElement Content) → ListVars → Prop}
  {continuation : Option Nat → ListProgram Content α}

/-- `ListNextElement` from any position of a walk. -/
theorem listNextElement_spec (xs ys : Elements Content)
    (represents : Represents (xs ++ ys) rest contents vars)
    (continues : Runs (continuation (firstOf ys none)) contents vars post) :
    Runs (listNextElement (lastOf none xs) >>= continuation) contents vars post := by
  rcases List.eq_nil_or_concat' xs with rfl | ⟨front, ⟨place, found⟩, rfl⟩
  · have first := represents.first_eq
    rw [List.nil_append] at first
    rw [← first] at continues
    exact continues
  · rw [lastOf_append, lastOf, lastOf, listNextElement,
      if_neg (Option.some_ne_none place), bind_assoc]
    rw [List.append_assoc, List.singleton_append] at represents
    exact Runs.load _ (represents.mem_contents _) continues

/-- `ListPrevElement` from any position of a walk. -/
theorem listPrevElement_spec (xs ys : Elements Content)
    (represents : Represents (xs ++ ys) rest contents vars)
    (continues : Runs (continuation (lastOf none xs)) contents vars post) :
    Runs (listPrevElement (firstOf ys none) >>= continuation) contents vars post := by
  rcases ys with _ | ⟨⟨place, found⟩, ys⟩
  · have last := represents.last_eq
    rw [List.append_nil] at last
    rw [← last] at continues
    exact continues
  · rw [firstOf, listPrevElement, if_neg (Option.some_ne_none place), bind_assoc]
    exact Runs.load _ (represents.mem_contents _) continues

end Walks

theorem findFrom_spec {found : Option Content → Bool} (xs ys : Elements Content)
    (represents : Represents (xs ++ ys) rest contents vars) :
    Runs (findFrom found (lastOf none xs)) contents vars fun rc contents' vars' =>
      contents' = contents ∧ vars' = vars ∧
      rc = (ys.find? fun element => found element.2).map Prod.fst := by
  induction ys generalizing xs with
  | nil =>
      rw [findFrom]
      exact listNextElement_spec _ _ represents (Runs.pure ⟨rfl, rfl, rfl⟩)
  | cons y ys ih =>
      rcases y with ⟨place, content⟩
      rw [findFrom]
      refine listNextElement_spec _ _ represents ?_
      rw [firstOf, if_neg (Option.some_ne_none place)]
      refine Runs.load _ (represents.mem_contents _) ?_
      by_cases here : found content
      · rw [if_pos here]
        exact Runs.pure ⟨rfl, rfl, by simp [here]⟩
      · rw [if_neg here]
        simp only [List.find?_cons, here]
        have next := ih (xs ++ [(place, content)]) (by simpa using represents)
        rwa [lastOf_append] at next

/-- What `ListFindItem` leaves: it has found an element that matches, or there is none. -/
def ItemFound [DecidableEq Content] (callback : Option (Callback Content)) (key : Option Content)
    (elements : Elements Content) (vars : ListVars) (rc : Option Nat) (vars' : ListVars) : Prop :=
  (rc = none ∧ vars' = vars ∧ ∀ element ∈ elements, matchesContent callback element.2 key = false) ∨
    ∃ addr content, rc = some addr ∧ (addr, content) ∈ elements ∧
      matchesContent callback content key = true ∧ vars' = { vars with current := some addr }

theorem listFindItem_spec [DecidableEq Content] {key : Option Content}
    {callback : Option (Callback Content)} (represents : Represents elements rest contents vars) :
    Runs (listFindItem key callback) contents vars fun rc contents' vars' =>
      contents' = contents ∧ ItemFound callback key elements vars rc vars' := by
  have behind : Runs (do
      let rc ← findFrom (fun found => matchesContent callback found key) none
      if rc = none then return none
      else
        assign fun aList => { aList with current := rc }
        return rc) contents vars fun rc contents' vars' =>
      contents' = contents ∧ ItemFound callback key elements vars rc vars' := by
    refine Runs.bind _ (findFrom_spec [] elements represents) ?_
    rintro rc _ _ ⟨rfl, rfl, rfl⟩
    cases search : elements.find? fun element : Nat × Option Content =>
      matchesContent callback element.2 key with
    | none =>
        refine Runs.pure ⟨rfl, .inl ⟨rfl, rfl, fun element mem => ?_⟩⟩
        simpa using List.find?_eq_none.mp search element mem
    | some element =>
        rcases element with ⟨addr, content⟩
        have holds := List.find?_some search
        exact Runs.assign (Runs.pure ⟨rfl,
          .inr ⟨addr, content, rfl, List.mem_of_find?_eq_some search,
          holds, rfl⟩⟩)
  rw [listFindItem]
  refine Runs.look ?_
  cases current : vars.current with
  | none => exact behind
  | some addr =>
      rcases represents.current_mem addr current with ⟨content, mem⟩
      rcases List.append_of_mem mem with ⟨xs, ys, split⟩
      have isThere : (addr, ⟨lastOf none xs, firstOf ys none, content⟩) ∈ contents := by
        rw [split] at represents
        exact represents.mem_contents _
      dsimp only
      rw [if_neg (Option.some_ne_none addr), bind_assoc]
      refine Runs.load _ isThere ?_
      rw [pure_bind]
      by_cases here : matchesContent callback content key
      · rw [if_pos here]
        refine Runs.pure ⟨rfl, .inr ⟨addr, content, rfl, mem, here, ?_⟩⟩
        rw [← current]
      · rw [if_neg here]
        exact behind

/-- What `ListUnlink` leaves: an element that matches is gone, or there is none. -/
def ItemUnlinked [DecidableEq Content] (callback : Option (Callback Content)) (key : Option Content)
    (freeContent : Bool) (elements : Elements Content)
    (rest contents : Multiset (Nat × ListElement Content)) (vars : ListVars)
    (result : Bool × List Content) (contents' : Multiset (Nat × ListElement Content))
    (vars' : ListVars) : Prop :=
  (result = (false, []) ∧ contents' = contents ∧ vars' = vars ∧
      ∀ element ∈ elements, matchesContent callback element.2 key = false) ∨
    ∃ xs addr content ys, elements = xs ++ (addr, content) :: ys ∧
      matchesContent callback content key = true ∧
      result = (true, if freeContent then content.toList else []) ∧
      Represents (xs ++ ys) rest contents' vars'

/-- `current` moves only from the element that is gone. -/
theorem listUnlink_current [DecidableEq Content] {key : Option Content}
    {callback : Option (Callback Content)} {freeContent : Bool}
    (represents : Represents elements rest contents vars) :
    Runs (listUnlink key callback freeContent) contents vars fun result contents' vars' =>
      (result = (false, []) ∧ contents' = contents ∧ vars' = vars ∧
          ∀ element ∈ elements, matchesContent callback element.2 key = false) ∨
        ∃ xs addr content ys, elements = xs ++ (addr, content) :: ys ∧
          matchesContent callback content key = true ∧
          result = (true, if freeContent then content.toList else []) ∧
          Represents (xs ++ ys) rest contents' vars' ∧
          vars'.current = if vars.current = some addr then firstOf ys none else vars.current := by
  rw [listUnlink]
  refine Runs.look (Runs.bind _ (listFindItem_spec represents) ?_)
  rintro _ _ vars' ⟨rfl, ⟨rfl, rfl, noMatch⟩ | ⟨addr, content, rfl, mem, isMatch, rfl⟩⟩
  · exact Runs.pure (.inl ⟨rfl, rfl, rfl, noMatch⟩)
  · rcases List.append_of_mem mem with ⟨xs, ys, rfl⟩
    rw [if_neg (Option.some_ne_none addr)]
    refine Runs.look (Runs.load _ (represents.mem_contents _) ?_)
    have first : vars.first = firstOf xs (some addr) := by
      rw [represents.first_eq, firstOf_append, firstOf]
    have last : vars.last = lastOf (some addr) ys := by
      rw [represents.last_eq, lastOf_append, lastOf]
    refine setNext_spec (some addr) ({(addr, ⟨lastOf none xs, firstOf ys none, content⟩)} +
      (links (some addr) ys none + rest)) ?_ first ?_
    · rw [represents.contents_eq, links_middle]
      ac_rfl
    refine setPrev_spec (some addr) ({(addr, ⟨lastOf none xs, firstOf ys none, content⟩)} +
      (links none xs (firstOf ys none) + rest)) ?_ last ?_
    · ac_rfl
    refine Runs.load ⟨lastOf none xs, firstOf ys none, content⟩ (by simp) ?_
    refine Runs.free ⟨lastOf none xs, firstOf ys none, content⟩
      (links none (xs ++ ys) none + rest) ?_ ?_
    · rw [links_append]
      ac_rfl
    refine Runs.assign
      (Runs.assign (Runs.pure (.inr ⟨xs, addr, content, ys, rfl, isMatch, rfl, ?_, rfl⟩)))
    refine ⟨rfl, ?_, ?_, ?_, fun place isCurrent => ?_⟩
    · rw [firstOf_append]
    · rw [lastOf_append]
    · have count := represents.count_eq
      simp only [List.length_append, List.length_cons] at count ⊢
      omega
    · dsimp only at isCurrent
      split at isCurrent
      case isTrue =>
        rcases ys with _ | ⟨⟨next, nextContent⟩, ys⟩
        · cases isCurrent
        · cases isCurrent
          exact ⟨nextContent, by simp⟩
      case isFalse other =>
        rcases represents.current_mem place isCurrent with ⟨found, isElement⟩
        refine ⟨found, ?_⟩
        have apart : place ≠ addr := fun same => other (isCurrent.trans (congrArg some same))
        simpa [apart] using isElement

theorem listUnlink_spec [DecidableEq Content] {key : Option Content}
    {callback : Option (Callback Content)} {freeContent : Bool}
    (represents : Represents elements rest contents vars) :
    Runs (listUnlink key callback freeContent) contents vars
      (ItemUnlinked callback key freeContent elements rest contents vars) := by
  refine (listUnlink_current represents).imp ?_
  rintro result contents' vars'
    (notFound | ⟨xs, addr, content, ys, split, isMatch, isResult, after, -⟩)
  · exact .inl notFound
  · exact .inr ⟨xs, addr, content, ys, split, isMatch, isResult, after⟩

theorem Represents.nodup (represents : Represents elements rest contents vars)
    (nodup : (contents.map Prod.fst).Nodup) : (elements.map Prod.fst).Nodup := by
  rw [represents.contents_eq, Multiset.map_add, map_fst_links] at nodup
  exact Multiset.coe_nodup.mp (Multiset.nodup_of_le (Multiset.le_add_right _ _) nodup)

theorem lastOf_mem (prev : Option Nat) (some_element : ys ≠ []) :
    ∃ addr ∈ ys.map Prod.fst, lastOf prev ys = some addr := by
  rcases List.eq_nil_or_concat' ys with rfl | ⟨front, ⟨addr, content⟩, rfl⟩
  · exact absurd rfl some_element
  · refine ⟨addr, by simp, ?_⟩
    rw [lastOf_append]
    rfl

theorem listDetachHead_spec (represents : Represents elements rest contents vars) :
    Runs listDetachHead contents vars fun result contents' vars' =>
      Represents elements.tail rest contents' vars' ∧ result = elements.head?.bind Prod.snd := by
  refine Runs.of_nodup fun nodup => ?_
  have apart := represents.nodup nodup
  rw [listDetachHead]
  refine Runs.look ?_
  rcases elements with _ | ⟨⟨addr, content⟩, elements⟩
  · have count : vars.count = 0 := represents.count_eq
    rw [if_neg (by omega)]
    exact Runs.pure ⟨represents, rfl⟩
  · have first : vars.first = some addr := represents.first_eq
    have last : vars.last = lastOf (some addr) elements := represents.last_eq
    have count := represents.count_eq
    rw [List.length_cons] at count
    have parts : contents = {(addr, ⟨none, firstOf elements none, content⟩)} +
        (links (some addr) elements none + rest) := by
      rw [represents.contents_eq, links, add_assoc]
    rw [if_pos (by omega), first]
    refine Runs.load _ (represents.mem_contents []) (Runs.assign (Runs.assign (Runs.assign ?_)))
    have kept : ∀ place, (if vars.current = some addr then firstOf elements none else
      vars.current) = some place →
        ∃ content, (place, content) ∈ elements := by
      intro place isCurrent
      split at isCurrent
      case isTrue =>
        rcases elements with _ | ⟨⟨next, nextContent⟩, elements⟩
        · cases isCurrent
        · cases isCurrent
          exact ⟨nextContent, List.mem_cons_self⟩
      case isFalse other =>
        rcases represents.current_mem place isCurrent with ⟨found, isElement⟩
        refine ⟨found, (List.mem_cons.mp isElement).resolve_left fun same => ?_⟩
        cases same
        exact other isCurrent
    rcases elements with _ | ⟨⟨next, nextContent⟩, elements⟩
    · rw [if_pos (show firstOf ([] : Elements Content) none = none from rfl), pure_bind]
      refine Runs.free _ _ parts (Runs.assign (Runs.pure ⟨⟨?_, rfl, ?_, ?_, kept⟩, rfl⟩))
      · rfl
      · exact if_pos last
      · rw [count]
        rfl
    · rw [if_neg (show firstOf ((next, nextContent) :: elements) none ≠ none from
        Option.some_ne_none next)]
      refine Runs.store ⟨some addr, firstOf elements none, nextContent⟩
        ({(addr, ⟨none, some next, content⟩)} + (links (some next) elements none + rest)) ?_ ?_
      · rw [parts, links]
        simp only [firstOf]
        ac_rfl
      refine Runs.free ⟨none, some next, content⟩
        (links none ((next, nextContent) :: elements) none + rest) ?_ ?_
      · rw [links]
        ac_rfl
      refine Runs.assign (Runs.pure ⟨⟨rfl, rfl, ?_, ?_, kept⟩, rfl⟩)
      · have other : vars.last ≠ some addr := by
          rcases lastOf_mem (some addr) (List.cons_ne_nil (next, nextContent) elements) with
            ⟨place, mem, place_eq⟩
          rw [last, place_eq]
          intro same
          cases same
          exact (List.nodup_cons.mp apart).1 mem
        exact (if_neg other).trans last
      · simp only [List.length_cons, List.tail_cons] at count ⊢
        omega

theorem firstOf_mem (next : Option Nat) (some_element : xs ≠ []) :
    ∃ addr ∈ xs.map Prod.fst, firstOf xs next = some addr := by
  rcases xs with _ | ⟨⟨addr, content⟩, xs⟩
  · exact absurd rfl some_element
  · exact ⟨addr, List.mem_cons_self, rfl⟩

theorem listPopTail_spec (represents : Represents elements rest contents vars) :
    Runs listPopTail contents vars fun result contents' vars' =>
      Represents elements.dropLast rest contents' vars' ∧
      result = elements.getLast?.bind Prod.snd := by
  refine Runs.of_nodup fun nodup => ?_
  have apart := represents.nodup nodup
  rw [listPopTail]
  refine Runs.look ?_
  rcases List.eq_nil_or_concat' elements with rfl | ⟨elements, ⟨addr, content⟩, rfl⟩
  · have count : vars.count = 0 := represents.count_eq
    rw [if_neg (by omega)]
    exact Runs.pure ⟨represents, rfl⟩
  · have first : vars.first = firstOf elements (some addr) := by
      rw [represents.first_eq, firstOf_append, firstOf]
    have last : vars.last = some addr := by
      rw [represents.last_eq, lastOf_append, lastOf, lastOf]
    have count := represents.count_eq
    rw [List.length_append, List.length_singleton] at count
    have parts : contents = {(addr, ⟨lastOf none elements, none, content⟩)} +
        (links none elements (some addr) + rest) := by
      rw [represents.contents_eq, links_middle, links, add_zero, firstOf, add_assoc]
    rw [if_pos (by omega), last, List.dropLast_concat, List.getLast?_concat]
    refine Runs.load _ (represents.mem_contents _) (Runs.assign (Runs.assign (Runs.assign ?_)))
    have kept : ∀ place, (if vars.current = some addr then lastOf none elements else vars.current) =
      some place →
        ∃ content, (place, content) ∈ elements := by
      intro place isCurrent
      split at isCurrent
      case isTrue =>
        rcases List.eq_nil_or_concat' elements with rfl | ⟨front, ⟨prev, prevContent⟩, rfl⟩
        · cases isCurrent
        · rw [lastOf_append] at isCurrent
          cases isCurrent
          exact ⟨prevContent, by simp⟩
      case isFalse other =>
        rcases represents.current_mem place isCurrent with ⟨found, isElement⟩
        refine ⟨found, (List.mem_append.mp isElement).resolve_right fun same => ?_⟩
        cases List.mem_singleton.mp same
        exact other isCurrent
    rcases List.eq_nil_or_concat' elements with rfl | ⟨front, ⟨prev, prevContent⟩, rfl⟩
    · rw [if_pos (show lastOf none ([] : Elements Content) = none from rfl), pure_bind]
      refine Runs.free _ _ parts (Runs.assign (Runs.pure ⟨⟨?_, ?_, rfl, ?_, kept⟩, rfl⟩))
      · rfl
      · exact if_pos first
      · rw [count]
        rfl
    · have last_eq : lastOf none (front ++ [(prev, prevContent)]) = some prev := by
        rw [lastOf_append]
        rfl
      simp only [last_eq] at parts ⊢
      rw [if_neg (Option.some_ne_none prev)]
      refine Runs.store ⟨lastOf none front, some addr, prevContent⟩
        ({(addr, ⟨some prev, none, content⟩)} + (links none front (some prev) + rest)) ?_ ?_
      · rw [parts, links_middle]
        simp only [links, firstOf, add_zero]
        ac_rfl
      refine Runs.free ⟨some prev, none, content⟩
        (links none (front ++ [(prev, prevContent)]) none + rest) ?_ ?_
      · rw [links_middle]
        simp only [links, firstOf, add_zero]
        ac_rfl
      refine Runs.assign (Runs.pure ⟨⟨rfl, ?_, last_eq.symm, ?_, ?_⟩, rfl⟩)
      · have other : vars.first ≠ some addr := by
          rcases firstOf_mem (some addr) (List.append_ne_nil_of_right_ne_nil front
            (List.cons_ne_nil (prev, prevContent) [])) with ⟨place, mem, place_eq⟩
          rw [first, place_eq]
          intro same
          cases same
          rw [List.map_append] at apart
          exact (List.nodup_append.mp apart).2.2 addr mem addr (by simp) rfl
        refine (if_neg other).trans ?_
        rw [first]
        cases front <;> rfl
      · dsimp only
        rw [count]
        omega
      · rw [last_eq] at kept
        exact kept

/-- The contents that are freed with these elements. -/
def contentsOf (elements : Elements Content) : List Content :=
  elements.flatMap fun element => element.2.toList

theorem emptyFrom_spec (contents_eq : contents = links prev elements none + rest)
    (first : vars.first = firstOf elements none) :
    Runs emptyFrom contents vars fun freed contents' _ => freed = contentsOf elements ∧
      contents' = rest := by
  induction elements generalizing prev contents vars with
  | nil =>
      rw [emptyFrom]
      refine Runs.look ?_
      dsimp only
      rw [first, firstOf, if_pos rfl]
      exact Runs.pure ⟨rfl, by rw [contents_eq, links, zero_add]⟩
  | cons element elements ih =>
      rcases element with ⟨addr, content⟩
      have parts : contents = {(addr, ⟨prev, firstOf elements none, content⟩)} +
          (links (some addr) elements none + rest) := by
        rw [contents_eq, links, add_assoc]
      rw [emptyFrom]
      refine Runs.look ?_
      dsimp only
      rw [first, firstOf, if_neg (Option.some_ne_none addr)]
      refine Runs.load ⟨prev, firstOf elements none, content⟩ (by rw [parts]; simp) ?_
      refine Runs.assign (Runs.free _ _ parts (Runs.bind _ (ih rfl rfl) ?_))
      rintro _ _ _ ⟨rfl, rfl⟩
      exact Runs.pure ⟨rfl, rfl⟩

theorem listEmpty_spec (represents : Represents elements rest contents vars) :
    Runs listEmpty contents vars fun freed contents' vars' =>
      Represents [] rest contents' vars' ∧ freed = contentsOf elements := by
  rw [listEmpty]
  refine Runs.bind _ (emptyFrom_spec represents.contents_eq represents.first_eq) ?_
  rintro freed _ _ ⟨rfl, rfl⟩
  refine Runs.assign (Runs.pure ⟨⟨?_, rfl, rfl, rfl, fun _ isCurrent => ?_⟩, rfl⟩)
  · rw [links, zero_add]
  · cases isCurrent

end Functions

end Lists

end Paho
