import Mathlib.Data.List.Basic

/-!
# Reading items off a stream that arrives in pieces

A splitter takes one item off the front of a stream, if the front holds a complete one. What it
takes does not change when more of the stream is known. A reader that keeps what it has seen of
an incomplete item therefore reads the items of the whole stream, however the stream arrives.
-/

namespace Paho

universe u v

/-- A way to take one item off the front of a stream. -/
structure Splitter (Symbol : Type u) (Item : Type v) where
  take : List Symbol → Option (Item × List Symbol)
  /-- Whether nothing is read after this item. -/
  stops : Item → Bool
  shrinks : ∀ {stream item rest}, take stream = some (item, rest) →
    rest.length < stream.length
  grows : ∀ {stream item rest} more, take stream = some (item, rest) →
    take (stream ++ more) = some (item, rest ++ more)

namespace Splitter

variable {Symbol : Type u} {Item : Type v} (splitter : Splitter Symbol Item)

/-- The items at the front of a stream, up to the first one that stops the reading. -/
def items (stream : List Symbol) : List Item :=
  match _taken : splitter.take stream with
  | none => []
  | some (item, rest) => if splitter.stops item then [item] else item :: items rest
termination_by stream.length
decreasing_by exact splitter.shrinks _taken

variable {splitter} {stream rest : List Symbol} {item : Item}

theorem items_of_none (incomplete : splitter.take stream = none) : splitter.items stream = [] := by
  rw [items]
  split
  · rfl
  next taken => cases incomplete.symm.trans taken

theorem items_of_take (taken : splitter.take stream = some (item, rest)) :
    splitter.items stream =
      if splitter.stops item then [item] else item :: splitter.items rest := by
  rw [items]
  split
  next incomplete => cases taken.symm.trans incomplete
  next other others taken' =>
    cases taken.symm.trans taken'
    rfl

variable (splitter) in
/-- What is left of a stream when every complete item is taken off it, whether or not it stops the
reading. -/
def remainder (stream : List Symbol) : List Symbol :=
  match _taken : splitter.take stream with
  | none => stream
  | some (_, rest) => remainder rest
termination_by stream.length
decreasing_by exact splitter.shrinks _taken

theorem remainder_of_none (incomplete : splitter.take stream = none) :
    splitter.remainder stream = stream := by
  rw [remainder]
  split
  · rfl
  next taken => cases incomplete.symm.trans taken

theorem remainder_of_take (taken : splitter.take stream = some (item, rest)) :
    splitter.remainder stream = splitter.remainder rest := by
  rw [remainder]
  split
  next incomplete => cases taken.symm.trans incomplete
  next other others taken' =>
    cases taken.symm.trans taken'
    rfl

/-- No complete item is left. -/
theorem take_remainder (splitter : Splitter Symbol Item) (stream : List Symbol) :
    splitter.take (splitter.remainder stream) = none := by
  fun_induction splitter.remainder stream with
  | case1 stream incomplete => exact incomplete
  | case2 stream item rest taken ih => exact ih

/-- More of the stream is appended to what is left. -/
theorem remainder_append (splitter : Splitter Symbol Item) (stream more : List Symbol) :
    splitter.remainder (splitter.remainder stream ++ more) =
      splitter.remainder (stream ++ more) := by
  fun_induction splitter.remainder stream with
  | case1 stream incomplete => rfl
  | case2 stream item rest taken ih => rw [ih, remainder_of_take (splitter.grows more taken)]

/-- A reader: what it has not used of the stream, what it has read, and whether an item has
stopped it. -/
structure Reader (Symbol : Type u) (Item : Type v) where
  unread : List Symbol
  read : List Item
  stopped : Bool

namespace Reader

/-- More of the stream is known. -/
def extend (reader : Reader Symbol Item) (more : List Symbol) : Reader Symbol Item :=
  { reader with unread := reader.unread ++ more }

/-- Read an item, if a complete one is known. -/
def next (splitter : Splitter Symbol Item) (reader : Reader Symbol Item) : Reader Symbol Item :=
  if reader.stopped then reader
  else
    match splitter.take reader.unread with
    | none => reader
    | some (item, rest) =>
        { unread := rest
          read := reader.read ++ [item]
          stopped := splitter.stops item }

/-- The reader has read what the whole stream begins with, and the rest is still to come. -/
def Follows (splitter : Splitter Symbol Item) (stream coming : List Symbol)
    (reader : Reader Symbol Item) : Prop :=
  if reader.stopped then splitter.items stream = reader.read
  else splitter.items stream = reader.read ++ splitter.items (reader.unread ++ coming)

variable {coming more : List Symbol} {reader : Reader Symbol Item}

theorem Follows.start (splitter : Splitter Symbol Item) (stream : List Symbol) :
    Follows splitter stream stream ⟨[], [], false⟩ := by
  simp [Follows]

theorem Follows.extend (follows : Follows splitter stream (more ++ coming) reader) :
    Follows splitter stream coming (reader.extend more) := by
  unfold Follows at follows ⊢
  cases stopped : reader.stopped with
  | true => simpa [Reader.extend, stopped] using follows
  | false => simpa [Reader.extend, stopped] using follows

theorem Follows.next (follows : Follows splitter stream coming reader) :
    Follows splitter stream coming (reader.next splitter) := by
  unfold Reader.next
  split
  · exact follows
  next going =>
    split
    · exact follows
    next item rest taken =>
      have whole := items_of_take (splitter.grows coming taken)
      unfold Follows at follows ⊢
      rw [if_neg going] at follows
      cases stops : splitter.stops item with
      | true => simpa [whole, stops] using follows
      | false => simpa [whole, stops] using follows

/-- What has been read is what the stream begins with. -/
theorem Follows.isPrefix (follows : Follows splitter stream coming reader) :
    reader.read <+: splitter.items stream := by
  unfold Follows at follows
  split at follows
  · exact follows ▸ List.prefix_refl _
  · exact follows ▸ List.prefix_append _ _

/-- When nothing is to come and no complete item is left, all has been read. -/
theorem Follows.complete (follows : Follows splitter stream [] reader)
    (done : reader.stopped = true ∨ splitter.take reader.unread = none) :
    reader.read = splitter.items stream := by
  unfold Follows at follows
  split at follows
  · exact follows.symm
  next going =>
    rcases done with stopped | incomplete
    · exact absurd stopped going
    · rw [List.append_nil, items_of_none incomplete, List.append_nil] at follows
      exact follows.symm

/-- Reading makes progress while a complete item is left. -/
theorem read_next (going : reader.stopped = false)
    (taken : splitter.take reader.unread = some (item, rest)) :
    (reader.next splitter).read = reader.read ++ [item] := by
  simp [Reader.next, going, taken]

end Reader

end Splitter

end Paho
