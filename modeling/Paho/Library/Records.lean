import Mathlib.Algebra.Order.Group.Multiset
import Mathlib.Data.Fintype.EquivFin
import Mathlib.Logic.Function.Basic

/-!
# Programs over records in memory

Records lie at addresses and point to each other. A program that follows a pointer to no record has
no result. What a program does is said about the multiset of the records, so that the parts of a
structure can be put in any order and the rest of memory is a summand.
-/

namespace Paho

namespace Records

/-- The records at their addresses, and the variables of a program. -/
structure Memory (Addr Record Vars : Type) where
  records : Addr → Option Record
  vars : Vars

/-- A program over memory. -/
abbrev Program (Addr Record Vars : Type) :=
  StateT (Memory Addr Record Vars) Option

section Programs

variable {Addr Record Vars : Type}

/-- Read the record that a pointer points to. -/
def load (pointer : Option Addr) : Program Addr Record Vars Record :=
  fun memory => (pointer.bind memory.records).map fun record => (record, memory)

/-- Change fields of the record that a pointer points to. -/
def store [DecidableEq Addr] (pointer : Option Addr) (change : Record → Record) :
    Program Addr Record Vars Unit :=
  fun memory => pointer.bind fun addr => (memory.records addr).map fun record =>
    ((), { memory with records := Function.update memory.records addr (some (change record)) })

/-- Put a record at an address where there is none. -/
def place [DecidableEq Addr] (addr : Addr) (record : Record) : Program Addr Record Vars Unit :=
  fun memory =>
    if (memory.records addr).isNone then
      some ((), { memory with records := Function.update memory.records addr (some record) })
    else none

/-- Take the record away that a pointer points to. -/
def free [DecidableEq Addr] (pointer : Option Addr) : Program Addr Record Vars Unit :=
  fun memory => pointer.bind fun addr => (memory.records addr).map fun _ =>
    ((), { memory with records := Function.update memory.records addr none })

/-- Read the variables. -/
def look : Program Addr Record Vars Vars :=
  fun memory => some (memory.vars, memory)

/-- Change the variables. -/
def assign (change : Vars → Vars) : Program Addr Record Vars Unit :=
  fun memory => some ((), { memory with vars := change memory.vars })

end Programs

/-- What a call of `malloc` gives in any memory: NULL, or a new record with some contents. -/
structure Malloc (Addr Record : Type) where
  result : (Addr → Option Record) → Option (Addr × Record)
  fresh : ∀ records addr record, result records = some (addr, record) → records addr = none

/-- It fails only where every address is used. -/
def Malloc.Succeeds {Addr Record : Type} (malloc : Malloc Addr Record) : Prop :=
  ∀ records, (∃ addr, records addr = none) → malloc.result records ≠ none

/-- `malloc`. -/
def Malloc.run {Addr Record Vars : Type} [DecidableEq Addr] (malloc : Malloc Addr Record) :
    Program Addr Record Vars (Option Addr) :=
  fun memory =>
    match malloc.result memory.records with
    | some (addr, record) =>
        some (some addr,
          { memory with records := Function.update memory.records addr (some record) })
    | none => some (none, memory)

/-- These are the records of memory. -/
structure Holds {Addr Record : Type} (records : Addr → Option Record)
    (contents : Multiset (Addr × Record)) : Prop where
  nodup : (contents.map Prod.fst).Nodup
  eq_some_iff : ∀ addr record, records addr = some record ↔ (addr, record) ∈ contents

namespace Holds

variable {Addr Record : Type} {records : Addr → Option Record}
  {contents rest : Multiset (Addr × Record)} {addr : Addr} {record : Record}

theorem read (holds : Holds records contents) (mem : (addr, record) ∈ contents) :
    records addr = some record :=
  (holds.eq_some_iff addr record).mpr mem

theorem empty : Holds (fun _ : Addr => (none : Option Record)) 0 where
  nodup := by simp
  eq_some_iff := by simp

theorem not_mem_rest (holds : Holds records ({(addr, record)} + rest)) :
    addr ∉ rest.map Prod.fst := by
  have nodup := holds.nodup
  rw [Multiset.singleton_add, Multiset.map_cons, Multiset.nodup_cons] at nodup
  exact nodup.1

theorem nodup_rest (holds : Holds records ({(addr, record)} + rest)) :
    (rest.map Prod.fst).Nodup := by
  have nodup := holds.nodup
  rw [Multiset.singleton_add, Multiset.map_cons, Multiset.nodup_cons] at nodup
  exact nodup.2

theorem mem_map_of_mem {other : Record} (mem : (addr, other) ∈ contents) :
    addr ∈ contents.map Prod.fst :=
  Multiset.mem_map_of_mem Prod.fst mem

theorem not_mem_of_none (holds : Holds records contents) (absent : records addr = none) :
    addr ∉ contents.map Prod.fst := by
  intro mem
  rcases Multiset.mem_map.mp mem with ⟨⟨place, other⟩, isThere, rfl⟩
  rw [holds.read isThere] at absent
  cases absent

/-- There is always another address. -/
theorem exists_free [Infinite Addr] (holds : Holds records contents) :
    ∃ addr, records addr = none := by
  classical
  rcases Infinite.exists_notMem_finset (contents.map Prod.fst).toFinset with ⟨addr, absent⟩
  rw [Multiset.mem_toFinset] at absent
  refine ⟨addr, ?_⟩
  rw [Option.eq_none_iff_forall_not_mem]
  exact fun record mem => absent (mem_map_of_mem ((holds.eq_some_iff addr record).mp mem))

theorem result_ne_none [Infinite Addr] (holds : Holds records contents)
    {malloc : Malloc Addr Record} (succeeds : malloc.Succeeds) : malloc.result records ≠ none :=
  succeeds records holds.exists_free

variable [DecidableEq Addr]

/-- A record at an address of its own. -/
theorem place (record : Record) (holds : Holds records rest) (new : records addr = none) :
    Holds (Function.update records addr (some record)) ({(addr, record)} + rest) := by
  have absent (other : Record) : (addr, other) ∉ rest :=
    fun mem => holds.not_mem_of_none new (mem_map_of_mem mem)
  refine ⟨?_, fun place other => ?_⟩
  · rw [Multiset.singleton_add, Multiset.map_cons, Multiset.nodup_cons]
    exact ⟨holds.not_mem_of_none new, holds.nodup⟩
  · rw [Multiset.singleton_add, Multiset.mem_cons]
    by_cases same : place = addr
    · subst same
      simp [absent, eq_comm]
    · simp [same, holds.eq_some_iff]

theorem free (holds : Holds records ({(addr, record)} + rest)) :
    Holds (Function.update records addr none) rest := by
  refine ⟨holds.nodup_rest, fun place other => ?_⟩
  by_cases same : place = addr
  · subst same
    have absent : (place, other) ∉ rest := fun mem => holds.not_mem_rest (mem_map_of_mem mem)
    simp [absent]
  · simp [same, holds.eq_some_iff]

theorem store (record' : Record) (holds : Holds records ({(addr, record)} + rest)) :
    Holds (Function.update records addr (some record')) ({(addr, record')} + rest) := by
  have placed := holds.free.place record' (Function.update_self addr none records)
  rwa [Function.update_idem] at placed

end Holds

section Rules

variable {Addr Record Vars α β : Type} {contents rest : Multiset (Addr × Record)} {vars : Vars}
  {addr : Addr} {record : Record}

/-- From these records and variables, the program has a result, and this holds then. -/
def Runs (program : Program Addr Record Vars α) (contents : Multiset (Addr × Record)) (vars : Vars)
    (post : α → Multiset (Addr × Record) → Vars → Prop) : Prop :=
  ∀ records, Holds records contents →
    ∃ result records' contents' vars', program ⟨records, vars⟩ = some (result, ⟨records', vars'⟩) ∧
      Holds records' contents' ∧ post result contents' vars'

variable {post : α → Multiset (Addr × Record) → Vars → Prop}
  {post' : β → Multiset (Addr × Record) → Vars → Prop}

theorem Runs.pure {result : α} (holds : post result contents vars) :
    Runs (pure result) contents vars post :=
  fun records isHeld => ⟨result, records, contents, vars, rfl, isHeld, holds⟩

theorem Runs.bind (post : α → Multiset (Addr × Record) → Vars → Prop)
    {first : Program Addr Record Vars α} {next : α → Program Addr Record Vars β}
    (runs : Runs first contents vars post)
    (continues : ∀ result contents vars, post result contents vars →
      Runs (next result) contents vars post') :
    Runs (first >>= next) contents vars post' := by
  intro records holds
  rcases runs records holds with ⟨result, records', contents', vars', done, holds', after⟩
  rcases continues result contents' vars' after records' holds' with
    ⟨result', records'', contents'', vars'', done', holds'', after'⟩
  refine ⟨result', records'', contents'', vars'', ?_, holds'', after'⟩
  exact (congrArg (Option.bind · _) done).trans done'

theorem Runs.imp {program : Program Addr Record Vars α}
    {weaker : α → Multiset (Addr × Record) → Vars → Prop} (runs : Runs program contents vars post)
    (implies : ∀ result contents vars, post result contents vars → weaker result contents vars) :
    Runs program contents vars weaker := by
  intro records holds
  rcases runs records holds with ⟨result, records', contents', vars', done, holds', after⟩
  exact ⟨result, records', contents', vars', done, holds', implies _ _ _ after⟩

/-- No two records have the same address. -/
theorem Runs.of_nodup {program : Program Addr Record Vars α}
    (runs : (contents.map Prod.fst).Nodup → Runs program contents vars post) :
    Runs program contents vars post :=
  fun records holds => runs holds.nodup records holds

/-- The rule for `load`, and what follows it. -/
theorem Runs.load {next : Record → Program Addr Record Vars β} (record : Record)
    (mem : (addr, record) ∈ contents) (continues : Runs (next record) contents vars post') :
    Runs (load (some addr) >>= next) contents vars post' := by
  refine Runs.bind (fun result after vars' => result = record ∧ after = contents ∧
    vars' = vars) ?_ ?_
  · intro records holds
    refine ⟨record, records, contents, vars, ?_, holds, rfl, rfl, rfl⟩
    simp [Records.load, holds.read mem]
  · rintro _ _ _ ⟨rfl, rfl, rfl⟩
    exact continues

theorem Runs.look {next : Vars → Program Addr Record Vars β}
    (continues : Runs (next vars) contents vars post') :
    Runs (look >>= next) contents vars post' :=
  continues

theorem Runs.assign {change : Vars → Vars} {next : Unit → Program Addr Record Vars β}
    (continues : Runs (next ()) contents (change vars) post') :
    Runs (assign change >>= next) contents vars post' :=
  continues

/-- `assign` at the end of a program. -/
theorem Runs.assign_last {change : Vars → Vars}
    {after : Unit → Multiset (Addr × Record) → Vars → Prop}
    (holds : after () contents (change vars)) : Runs (Records.assign change) contents vars after :=
  fun records isHeld => ⟨(), records, contents, change vars, rfl, isHeld, holds⟩

/-- From these records and variables, the program does what another one does from others. -/
def Leads (program : Program Addr Record Vars α) (contents : Multiset (Addr × Record)) (vars : Vars)
    (post : Program Addr Record Vars α → Multiset (Addr × Record) → Vars → Prop) : Prop :=
  ∀ records, Holds records contents →
    ∃ program' records' contents' vars', program ⟨records, vars⟩ = program' ⟨records', vars'⟩ ∧
      Holds records' contents' ∧ post program' contents' vars'

section Leads

variable {program : Program Addr Record Vars β}
  {leadsTo : Program Addr Record Vars β → Multiset (Addr × Record) → Vars → Prop}

theorem Leads.refl (holds : leadsTo program contents vars) : Leads program contents vars leadsTo :=
  fun records isHeld => ⟨program, records, contents, vars, rfl, isHeld, holds⟩

/-- A program that runs, and what follows it. -/
theorem Leads.bind (post : α → Multiset (Addr × Record) → Vars → Prop)
    {first : Program Addr Record Vars α} {next : α → Program Addr Record Vars β}
    (runs : Runs first contents vars post)
    (continues : ∀ result contents vars, post result contents vars →
      Leads (next result) contents vars leadsTo) :
    Leads (first >>= next) contents vars leadsTo := by
  intro records holds
  rcases runs records holds with ⟨result, records', contents', vars', done, holds', after⟩
  rcases continues result contents' vars' after records' holds' with
    ⟨program', records'', contents'', vars'', same, holds'', after'⟩
  refine ⟨program', records'', contents'', vars'', ?_, holds'', after'⟩
  exact (congrArg (Option.bind · _) done).trans same

end Leads

variable [DecidableEq Addr]

/-- The rule for `store`, and what follows it. The record is a summand. -/
theorem Runs.store {change : Record → Record} {next : Unit → Program Addr Record Vars β}
    (record : Record) (rest : Multiset (Addr × Record)) (parts : contents = {(addr, record)} + rest)
    (continues : Runs (next ()) ({(addr, change record)} + rest) vars post') :
    Runs (store (some addr) change >>= next) contents vars post' := by
  subst parts
  refine Runs.bind (fun _ after vars' => after = {(addr, change record)} + rest ∧
    vars' = vars) ?_ ?_
  · intro records holds
    refine ⟨(), _, _, vars, ?_, holds.store (change record), rfl, rfl⟩
    simp [Records.store, holds.read (Multiset.mem_add.mpr (.inl (Multiset.mem_singleton_self _)))]
  · rintro _ _ _ ⟨rfl, rfl⟩
    exact continues

theorem Runs.place {next : Unit → Program Addr Record Vars β} (new : addr ∉ contents.map Prod.fst)
    (continues : Runs (next ()) ({(addr, record)} + contents) vars post') :
    Runs (place addr record >>= next) contents vars post' := by
  refine Runs.bind (fun _ after vars' => after = {(addr, record)} + contents ∧ vars' = vars) ?_ ?_
  · intro records holds
    have absent : records addr = none := by
      rw [Option.eq_none_iff_forall_not_mem]
      exact fun other mem => new (Holds.mem_map_of_mem ((holds.eq_some_iff addr other).mp mem))
    refine ⟨(), _, _, vars, ?_, holds.place record absent, rfl, rfl⟩
    simp [Records.place, absent]
  · rintro _ _ _ ⟨rfl, rfl⟩
    exact continues

theorem Runs.free {next : Unit → Program Addr Record Vars β} (record : Record)
    (rest : Multiset (Addr × Record)) (parts : contents = {(addr, record)} + rest)
    (continues : Runs (next ()) rest vars post') :
    Runs (free (some addr) >>= next) contents vars post' := by
  subst parts
  refine Runs.bind (fun _ after vars' => after = rest ∧ vars' = vars) ?_ ?_
  · intro records holds
    refine ⟨(), _, _, vars, ?_, holds.free, rfl, rfl⟩
    simp [Records.free, holds.read (Multiset.mem_add.mpr (.inl (Multiset.mem_singleton_self _)))]
  · rintro _ _ _ ⟨rfl, rfl⟩
    exact continues

/-- The rule for `malloc`: it fails, or it gives a record of its own. -/
theorem Runs.malloc {malloc : Malloc Addr Record} {next : Option Addr → Program Addr Record Vars β}
    (fails : (∃ records, Holds records contents ∧ malloc.result records = none) →
      Runs (next none) contents vars post')
    (succeeds : ∀ addr record, (∃ records, Holds records contents ∧ malloc.result records =
      some (addr, record)) →
      addr ∉ contents.map Prod.fst → Runs (next (some addr))
      ({(addr, record)} + contents) vars post') :
    Runs (malloc.run >>= next) contents vars post' := by
  refine Runs.bind (fun result after vars' => vars' = vars ∧
    ((result = none ∧ after = contents ∧ ∃ records, Holds records contents ∧
      malloc.result records = none) ∨
      ∃ addr record, result = some addr ∧
        (∃ records, Holds records contents ∧ malloc.result records = some (addr, record)) ∧
        addr ∉ contents.map Prod.fst ∧ after = {(addr, record)} + contents)) ?_ ?_
  · intro records holds
    cases outcome : malloc.result records with
    | none =>
        refine ⟨none, records, contents, vars, ?_, holds, rfl,
          .inl ⟨rfl, rfl, records, holds, outcome⟩⟩
        simp [Malloc.run, outcome]
    | some new =>
        rcases new with ⟨addr, record⟩
        have absent := malloc.fresh records addr record outcome
        refine ⟨some addr, _, _, vars, ?_, holds.place record absent, rfl,
          .inr ⟨addr, record, rfl, ⟨records, holds, outcome⟩, holds.not_mem_of_none absent, rfl⟩⟩
        simp [Malloc.run, outcome]
  · rintro _ _ _ ⟨rfl, ⟨rfl, rfl, outcome⟩ | ⟨addr, record, rfl, outcome, absent, rfl⟩⟩
    · exact fails outcome
    · exact succeeds addr record outcome absent

end Rules

end Records

end Paho
