import Paho.Async.Inbox
import Paho.Library.Run

/-!
# The order in which messages are delivered

A publication is passed to `messageArrived` at once only when no earlier one waits in the message
queue; otherwise it goes to the end of the queue, whose first message is passed again later.
-/

namespace Paho

namespace Delivery

open MQTTAsyncs

/-- What happens to the messages for the application. `accepts` is the answer of `messageArrived`
when it is called. -/
inductive Input where
  | process (publish : Publish) (accepts : Bool)
  /-- `MQTTAsync_receiveThread` passes on the first message of the queue. -/
  | redeliver (accepts : Bool)
  | setConnected (connected : Bool)
  deriving DecidableEq, Repr

def step (s : MQTTAsyncs) : Input → MQTTAsyncs
  | .process publish accepts => processPublication s publish accepts
  | .redeliver accepts => deliverQueued s accepts
  | .setConnected connected => { s with c := { s.c with connected := connected } }

/-- The publication that `Protocol_processPublication` is called with. -/
def Input.processed : Input → Option Publish
  | .process publish _ => some publish
  | _ => none

/-- The publication of an event in which `messageArrived` took a message. -/
def taken : AsyncEvent → Option Publish
  | .passed publish => some publish
  | _ => none

/-- The messages that `messageArrived` took, in this order, and then those in the queue. -/
def delivered (s : MQTTAsyncs) : List Publish :=
  (s.history.filterMap taken).reverse ++ s.messageQueue.map QueueEntry.publish

variable {s : MQTTAsyncs}

theorem delivered_passed (publish : Publish) (noQueue : s.messageQueue = []) :
    delivered (s.log (.passed publish)) = delivered s ++ [publish] := by
  have queue : (s.log (.passed publish)).messageQueue = [] := noQueue
  rw [delivered, delivered, queue, noQueue]
  simp [log, taken]

theorem delivered_queued (publish : Publish) (entry : QueueEntry) (same : entry.publish = publish) :
    delivered ({ s with messageQueue := s.messageQueue ++ [entry] }.log (.queued publish)) =
      delivered s ++ [publish] := by
  simp [delivered, log, taken, same, List.filterMap_cons]

theorem persistQueueEntry_spec (s : MQTTAsyncs) (publish : Publish) :
    delivered (persistQueueEntry s publish).1 = delivered s ∧
      (persistQueueEntry s publish).2.publish = publish := by
  unfold persistQueueEntry
  split
  · refine ⟨?_, rfl⟩
    dsimp only
    split <;> rfl
  · exact ⟨rfl, rfl⟩

theorem delivered_processPublication (s : MQTTAsyncs) (publish : Publish) (accepts : Bool) :
    delivered (processPublication s publish accepts) = delivered s ++ [publish] := by
  unfold processPublication
  split
  next direct =>
    simp only [Bool.and_eq_true, List.isEmpty_iff] at direct
    exact delivered_passed publish direct.1.1
  · rcases persistQueueEntry_spec s publish with ⟨kept, same⟩
    rw [← kept]
    exact delivered_queued publish _ same

theorem delivered_deliverQueued (s : MQTTAsyncs) (accepts : Bool) :
    delivered (deliverQueued s accepts) = delivered s := by
  unfold deliverQueued
  split
  · rfl
  next entry rest queue =>
    split
    · simp [delivered, log, taken, queue]
    · rfl

theorem delivered_step (s : MQTTAsyncs) (input : Input) :
    delivered (step s input) = delivered s ++ input.processed.toList := by
  cases input with
  | process publish accepts => exact delivered_processPublication s publish accepts
  | redeliver accepts => simp [step, Input.processed, delivered_deliverQueued]
  | setConnected connected => simp [step, Input.processed, delivered]

/-- The messages that the application has taken, followed by those that wait, are the publications
that were processed, in the order in which they arrived. -/
theorem delivered_inOrder (s : MQTTAsyncs) (inputs : List Input) :
    delivered (Machine.run step s inputs) = delivered s ++ inputs.filterMap Input.processed := by
  induction inputs generalizing s with
  | nil => simp
  | cons input inputs ih =>
      rw [Machine.run_cons, ih, delivered_step, List.append_assoc]
      cases published : input.processed <;> simp [published]

end Delivery

end Paho
