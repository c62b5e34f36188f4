import Mathlib.Data.List.Nodup
import Mathlib.Data.List.Pairwise
import Mathlib.Data.List.Perm.Basic
import Mathlib.Logic.Function.Basic

/-!
# Records under numbers that grow

Entries get numbers from a counter, and some have a record under their number. While the numbers
grow in the order in which the entries are added, no record is written over another entry's or
removed with it, and the entries that have records are found again in order, whatever order the
records are read in.
-/

namespace Paho

universe u v

namespace Numbered

section Insertion

variable {Entry : Type u} (number : Entry → Nat)

/-- Insert an entry before the first one with a larger number. -/
def insertOrdered (entry : Entry) : List Entry → List Entry
  | [] => [entry]
  | first :: rest =>
      if number entry < number first then entry :: first :: rest
      else first :: insertOrdered entry rest

/-- Insert entries one after the other. -/
def insertAll (entries : List Entry) : List Entry :=
  entries.foldl (fun queue entry => insertOrdered number entry queue) []

variable {number} {entry : Entry} {queue entries : List Entry}

theorem perm_insertOrdered : (insertOrdered number entry queue).Perm (entry :: queue) := by
  induction queue with
  | nil => exact List.Perm.refl _
  | cons first rest ih =>
      rw [insertOrdered]
      split
      · exact List.Perm.refl _
      · exact (ih.cons first).trans (List.Perm.swap entry first rest)

theorem pairwise_insertOrdered (ordered : queue.Pairwise fun a b => number a ≤ number b) :
    (insertOrdered number entry queue).Pairwise fun a b => number a ≤ number b := by
  induction queue with
  | nil => exact List.pairwise_singleton _ _
  | cons first rest ih =>
      rcases List.pairwise_cons.mp ordered with ⟨before, ordered'⟩
      rw [insertOrdered]
      split
      next smaller =>
        refine List.pairwise_cons.mpr ⟨?_, ordered⟩
        intro other mem
        rcases List.mem_cons.mp mem with rfl | mem
        · exact Nat.le_of_lt smaller
        · exact Nat.le_trans (Nat.le_of_lt smaller) (before other mem)
      next larger =>
        refine List.pairwise_cons.mpr ⟨?_, ih ordered'⟩
        intro other mem
        rcases List.mem_cons.mp (perm_insertOrdered.mem_iff.mp mem) with rfl | mem
        · exact Nat.le_of_not_lt larger
        · exact before other mem

theorem foldl_insertOrdered :
    ∀ {start : List Entry}, start.Pairwise (fun a b => number a ≤ number b) →
      (entries.foldl (fun queue entry => insertOrdered number entry queue) start).Perm
          (entries ++ start) ∧
        (entries.foldl (fun queue entry => insertOrdered number entry queue) start).Pairwise
          fun a b => number a ≤ number b := by
  induction entries with
  | nil => exact fun ordered => ⟨List.Perm.refl _, ordered⟩
  | cons entry entries ih =>
      intro start ordered
      rcases ih (@pairwise_insertOrdered _ number entry _ ordered) with ⟨perm, ordered'⟩
      refine ⟨perm.trans ?_, ordered'⟩
      exact (perm_insertOrdered.append_left entries).trans List.perm_middle

theorem ne_of_increasing {a b : Entry} (increasing : queue.Pairwise fun a b => number a < number b)
    (memA : a ∈ queue) (memB : b ∈ queue) (different : a ≠ b) : number a ≠ number b := by
  have distinct : queue.Pairwise fun a b => number a ≠ number b := increasing.imp Nat.ne_of_lt
  have : Std.Symm fun a b : Entry => number a ≠ number b := ⟨fun _ _ => Ne.symm⟩
  exact distinct.forall memA memB different

/-- Entries with numbers that grow have one order. -/
theorem eq_of_increasing (increasing : queue.Pairwise fun a b => number a < number b)
    (same : entries.Perm queue) (ordered : entries.Pairwise fun a b => number a ≤ number b) :
    entries = queue := by
  apply List.Perm.eq_of_pairwise _ ordered (increasing.imp Nat.le_of_lt) same
  intro a b memA memB le ge
  by_contra different
  exact ne_of_increasing increasing (same.mem_iff.mp memA) memB different
    (Nat.le_antisymm le ge)

/-- Entries with numbers that grow are put in order again. -/
theorem insertAll_eq (increasing : queue.Pairwise fun a b => number a < number b)
    (same : entries.Perm queue) : insertAll number entries = queue := by
  rcases @foldl_insertOrdered _ number entries [] List.Pairwise.nil with ⟨perm, ordered⟩
  rw [List.append_nil] at perm
  exact eq_of_increasing increasing (perm.trans same) ordered

end Insertion

section Records

variable {Entry Record View : Type u} (number : Entry → Nat) (write : Entry → Record)

/-- The entries have numbers that grow. -/
def Increasing (live : List Entry) : Prop :=
  live.Pairwise fun a b => number a < number b

/-- Every record is that of an entry. -/
def Sound (live : List Entry) (records : Nat → Option Record) : Prop :=
  ∀ n record, records n = some record → ∃ entry ∈ live, number entry = n ∧ write entry = record

/-- Every entry has its record. -/
def Complete (live : List Entry) (records : Nat → Option Record) : Prop :=
  ∀ entry ∈ live, records (number entry) = some (write entry)

variable {number write} {live live' front back : List Entry} {entry : Entry} {n : Nat}
  {records : Nat → Option Record}

theorem Increasing.append (increasing : Increasing number live)
    (larger : ∀ other ∈ live, number other < number entry) :
    Increasing number (live ++ [entry]) := by
  apply List.pairwise_append.mpr
  refine ⟨increasing, List.pairwise_singleton _ _, ?_⟩
  intro other mem last isLast
  rw [List.mem_singleton.mp isLast]
  exact larger other mem

theorem Increasing.ne (increasing : Increasing number (front ++ entry :: back)) :
    ∀ other ∈ front ++ back, number other ≠ number entry := by
  rcases List.pairwise_append.mp increasing with ⟨_, after, before⟩
  intro other mem
  rcases List.mem_append.mp mem with mem | mem
  · exact Nat.ne_of_lt (before other mem entry List.mem_cons_self)
  · exact Nat.ne_of_gt ((List.pairwise_cons.mp after).1 other mem)

theorem Sound.put (sound : Sound number write live records) (entry : Entry) :
    Sound number write (live ++ [entry])
      (Function.update records (number entry) (some (write entry))) := by
  intro n record found
  by_cases same : n = number entry
  · subst same
    rw [Function.update_self] at found
    cases found
    exact ⟨entry, by simp, rfl, rfl⟩
  · rw [Function.update_of_ne same] at found
    rcases sound n record found with ⟨other, mem, isOther⟩
    exact ⟨other, List.mem_append_left _ mem, isOther⟩

theorem Complete.put (complete : Complete number write live records)
    (larger : ∀ other ∈ live, number other < number entry) :
    Complete number write (live ++ [entry])
      (Function.update records (number entry) (some (write entry))) := by
  intro other mem
  rcases List.mem_append.mp mem with mem | mem
  · rw [Function.update_of_ne (Nat.ne_of_lt (larger other mem))]
    exact complete other mem
  · rw [List.mem_singleton.mp mem, Function.update_self]

/-- An entry without a record is added. -/
theorem Sound.add (sound : Sound number write live records) (entry : Entry) :
    Sound number write (live ++ [entry]) records := by
  intro n record found
  rcases sound n record found with ⟨other, mem, isOther⟩
  exact ⟨other, List.mem_append_left _ mem, isOther⟩

theorem Sound.remove (sound : Sound number write (front ++ entry :: back) records) :
    Sound number write (front ++ back) (Function.update records (number entry) none) := by
  intro n record found
  by_cases same : n = number entry
  · subst same
    rw [Function.update_self] at found
    cases found
  · rw [Function.update_of_ne same] at found
    rcases sound n record found with ⟨other, mem, isNumber, isRecord⟩
    refine ⟨other, ?_, isNumber, isRecord⟩
    rcases List.mem_append.mp mem with mem | mem
    · exact List.mem_append_left _ mem
    · rcases List.mem_cons.mp mem with rfl | mem
      · exact absurd isNumber.symm same
      · exact List.mem_append_right _ mem

theorem Complete.remove (complete : Complete number write (front ++ entry :: back) records)
    (increasing : Increasing number (front ++ entry :: back)) :
    Complete number write (front ++ back) (Function.update records (number entry) none) := by
  intro other mem
  rw [Function.update_of_ne (increasing.ne other mem)]
  apply complete
  rcases List.mem_append.mp mem with mem | mem
  · exact List.mem_append_left _ mem
  · exact List.mem_append_right _ (List.mem_cons_of_mem _ mem)

/-- Under a number that no entry has, there is no record. -/
theorem Sound.stray (sound : Sound number write live records)
    (free : ∀ other ∈ live, number other ≠ n) : Function.update records n none = records := by
  funext m
  by_cases same : m = n
  · subst same
    rw [Function.update_self]
    cases found : records m with
    | none => rfl
    | some record =>
        rcases sound m record found with ⟨other, mem, isNumber, _⟩
        exact absurd isNumber (free other mem)
  · rw [Function.update_of_ne same]

/-- What is read from the records, in whatever order, is what the entries with records look
like. -/
theorem perm_of_records {read : Nat → Record → Option View} {view : Entry → View}
    {viewNumber : View → Nat} {keys : List Nat}
    (increasing : Increasing number live) (sound : Sound number write live records)
    (nodup : keys.Nodup) (isKey : ∀ n, n ∈ keys ↔ (records n).isSome)
    (reads : ∀ entry ∈ live, read (number entry) (write entry) = some (view entry))
    (sameNumber : ∀ entry, viewNumber (view entry) = number entry) :
    (keys.filterMap fun n => (records n).bind (read n)).Perm
      ((live.filter fun entry => (records (number entry)).isSome).map view) := by
  have isView {n : Nat} {v : View} (found : (records n).bind (read n) = some v) :
      ∃ entry ∈ live, number entry = n ∧ (records n).isSome ∧ view entry = v := by
    rcases Option.bind_eq_some_iff.mp found with ⟨record, hasRecord, isRead⟩
    rcases sound n record hasRecord with ⟨entry, mem, rfl, rfl⟩
    have same := (reads entry mem).symm.trans isRead
    exact ⟨entry, mem, rfl, by simp [hasRecord], Option.some.inj same⟩
  have viewed {entry : Entry} (mem : entry ∈ live)
      (hasRecord : (records (number entry)).isSome) :
      (records (number entry)).bind (read (number entry)) = some (view entry) := by
    rcases Option.isSome_iff_exists.mp hasRecord with ⟨record, isRecord⟩
    rcases sound _ record isRecord with ⟨other, memOther, sameNumber', rfl⟩
    rw [isRecord, Option.bind_some, ← sameNumber', reads other memOther]
    have same : other = entry := by
      by_contra different
      exact ne_of_increasing increasing memOther mem different sameNumber'
    rw [same]
  apply (List.perm_ext_iff_of_nodup ?_ ?_).mpr
  · intro v
    constructor
    · intro mem
      rcases List.mem_filterMap.mp mem with ⟨n, _, found⟩
      rcases isView found with ⟨entry, memLive, rfl, hasRecord, isViewed⟩
      exact List.mem_map.mpr ⟨entry, List.mem_filter.mpr ⟨memLive, hasRecord⟩, isViewed⟩
    · intro mem
      rcases List.mem_map.mp mem with ⟨entry, memFilter, rfl⟩
      rcases List.mem_filter.mp memFilter with ⟨memLive, hasRecord⟩
      exact List.mem_filterMap.mpr
        ⟨number entry, (isKey _).mpr hasRecord, viewed memLive hasRecord⟩
  · refine List.Nodup.filterMap ?_ nodup
    intro n m v atN atM
    rcases isView atN with ⟨entry, _, rfl, _, rfl⟩
    rcases isView atM with ⟨other, _, rfl, _, same⟩
    rw [← sameNumber entry, ← same, sameNumber other]
  · apply List.Nodup.of_map viewNumber
    rw [List.map_map]
    have numbers : (viewNumber ∘ view) = number := funext sameNumber
    rw [numbers]
    apply List.pairwise_map.mpr
    exact (increasing.sublist List.filter_sublist).imp Nat.ne_of_lt

theorem Complete.filter (complete : Complete number write live records) :
    (live.filter fun entry => (records (number entry)).isSome) = live := by
  apply List.filter_eq_self.mpr
  intro entry mem
  rw [complete entry mem]
  rfl

end Records

end Numbered

end Paho
