import Paho.Protocol.Resend
import Paho.Protocol.Settings

/-!
# When a session is cleaned

The session is cleaned when a connection is closed that it does not outlive, and when a connection
is made that does not take it up. A retry pass closes the connection when a packet is not written.
-/

namespace Paho

namespace Clients

/-- How often the session was cleaned. -/
def cleanings (c : Clients) : Nat :=
  c.trace.count .sessionCleaned

/-- Closing the connection discards the session. -/
def DiscardsOnClose (c : Clients) : Prop :=
  c.moreToTry = false ∧ ¬c.KeepsOnClose

/-- Nothing that decides about the session has changed. -/
structure Alike (c c' : Clients) : Prop where
  settings : c'.settings = c.settings
  moreToTry : c'.moreToTry = c.moreToTry
  connected : c'.connected = c.connected
  retryInterval : c'.retryInterval = c.retryInterval
  cleanings : c'.cleanings = c.cleanings

theorem Alike.discardsOnClose {c c' : Clients} (alike : Alike c c') :
    c'.DiscardsOnClose ↔ c.DiscardsOnClose := by
  unfold DiscardsOnClose
  rw [alike.moreToTry]
  have keeps : c'.KeepsOnClose ↔ c.KeepsOnClose :=
    ⟨fun keeps => keeps.of_settings alike.settings.symm,
      fun keeps => keeps.of_settings alike.settings⟩
  rw [keeps]

end Clients

section Closing

variable {c : Clients}

theorem cleanings_cleanSession :
    (MQTTAsync.cleanSession c).cleanings = c.cleanings + 1 := by
  simp [MQTTAsync.cleanSession, Clients.cleanings]

theorem cleanings_asyncCloseSession :
    c.cleanings < (MQTTAsync.closeSession c).cleanings ↔ ¬c.KeepsOnClose := by
  have closed : (MQTTAsync.closeOnly c).cleanings = c.cleanings := rfl
  have discards : ((c.cleansession ||
      (decide (mqttVersion5 ≤ c.mqttVersion) && c.sessionExpiry == 0)) = true) ↔
        ¬c.KeepsOnClose := by
    unfold Clients.KeepsOnClose
    cases c.cleansession <;> simp
  unfold MQTTAsync.closeSession
  simp only
  split
  next ends =>
    rw [cleanings_cleanSession, closed]
    simp only [Nat.lt_add_one, true_iff]
    exact discards.mp ends
  next stays =>
    rw [closed]
    simp only [Nat.lt_irrefl, false_iff]
    exact fun fails => stays (discards.mpr fails)

theorem cleanings_closeSession :
    c.cleanings < (MQTTProtocol.closeSession c).cleanings ↔ c.DiscardsOnClose := by
  have closed : (MQTTAsync.closeOnly c).cleanings = c.cleanings := rfl
  unfold MQTTProtocol.closeSession MQTTAsync.nextOrClose Clients.DiscardsOnClose
  split
  next more => simp [closed, more]
  next none => simp [none, cleanings_asyncCloseSession]

end Closing

/-! ## Retry passes -/

instance decidableDue (m : Messages) : Decidable m.Due :=
  inferInstanceAs (Decidable (_ ∨ _ ∧ _))

/-- A pass that sends a packet for each of these messages meets one that is not written: the write
fails, or that of a PUBREL is interrupted. -/
def CutOff : List CompletionCode → List Messages → Prop
  | .complete :: writes, _ :: rest => CutOff writes rest
  | .interrupted :: _, m :: _ => ¬Exchange.AwaitsPublish m
  | .socketError :: _, _ :: _ => True
  | _, _ => False

theorem cutOff_nil (writes : List CompletionCode) : ¬CutOff writes [] := by
  rcases writes with _ | ⟨_ | _ | _, writes⟩ <;> exact id

theorem cutOff_cons (writes : List CompletionCode) (m : Messages) (rest : List Messages) :
    CutOff writes (m :: rest) ↔
      match writes.head?.getD .complete with
      | .complete => CutOff writes.tail rest
      | .interrupted => ¬Exchange.AwaitsPublish m
      | .socketError => True := by
  rcases writes with _ | ⟨_ | _ | _, writes⟩
  · simp [CutOff]
  · rfl
  · rfl
  · rfl

section Passes

variable {c : Clients} {m : Messages}

/-- The retry of a message: nothing is sent, or its packet is written, or the session is closed. -/
theorem retryMessage_cases (c : Clients) (m : Messages) :
    let rc := (Socket.putdatas c.net).1
    (¬m.Due ∧ MQTTProtocol.retryMessage c m = (true, c)) ∨
      (m.Due ∧ (rc = .complete ∨ (rc = .interrupted ∧ Exchange.AwaitsPublish m)) ∧
        ∃ c', MQTTProtocol.retryMessage c m = (true, c') ∧ c.Alike c' ∧ c'.good = c.good ∧
          c'.net = (Socket.putdatas c.net).2) ∨
      (m.Due ∧ (rc = .socketError ∨ (rc = .interrupted ∧ ¬Exchange.AwaitsPublish m)) ∧
        ∃ c', MQTTProtocol.retryMessage c m = (false, MQTTProtocol.closeSession c') ∧
          c.Alike c') := by
  rcases send_publish_result c (MQTTProtocol.retryPublish m) true m.qos m.retain
    with ⟨published, publish⟩
  rcases send_ack_result c m.mqttVersion .pubrel m.msgid with ⟨released, pubrel⟩
  unfold MQTTProtocol.retryMessage
  rw [publish, pubrel]
  generalize Socket.putdatas c.net = write at *
  rcases write with ⟨code, after⟩
  simp only
  by_cases publishes : m.qos = 1 ∨ (m.qos = 2 ∧ m.nextMessageType = some .pubrec)
  · have due : m.Due := .inl publishes
    rw [if_pos publishes]
    right
    cases code with
    | complete =>
        left
        exact ⟨due, .inl rfl, _, rfl, ⟨rfl, rfl, rfl, rfl, rfl⟩, rfl, rfl⟩
    | interrupted =>
        left
        exact ⟨due, .inr ⟨rfl, publishes⟩, _, rfl, ⟨rfl, rfl, rfl, rfl, rfl⟩, rfl, rfl⟩
    | socketError =>
        right
        exact ⟨due, .inl rfl, _, rfl, ⟨rfl, rfl, rfl, rfl, rfl⟩⟩
  · rw [if_neg publishes]
    by_cases releases : m.qos ≠ 0 ∧ m.nextMessageType = some .pubcomp
    · have due : m.Due := .inr releases
      rw [if_pos releases]
      right
      cases code with
      | complete =>
          left
          exact ⟨due, .inl rfl, _, rfl, ⟨rfl, rfl, rfl, rfl, rfl⟩, rfl, rfl⟩
      | interrupted =>
          right
          exact ⟨due, .inr ⟨rfl, publishes⟩, _, rfl, ⟨rfl, rfl, rfl, rfl, rfl⟩⟩
      | socketError =>
          right
          exact ⟨due, .inl rfl, _, rfl, ⟨rfl, rfl, rfl, rfl, rfl⟩⟩
    · rw [if_neg releases]
      left
      exact ⟨fun due => due.elim publishes releases, rfl⟩

theorem alike_countSent (c : Clients) (regardless : Bool) :
    c.Alike (MQTTProtocol.countSent c regardless) ∧
      (MQTTProtocol.countSent c regardless).good = c.good ∧
      (MQTTProtocol.countSent c regardless).net = c.net := by
  unfold MQTTProtocol.countSent
  split <;> exact ⟨⟨rfl, rfl, rfl, rfl, rfl⟩, rfl, rfl⟩

theorem Clients.Alike.trans {c c' c'' : Clients} (first : c.Alike c') (second : c'.Alike c'') :
    c.Alike c'' where
  settings := second.settings.trans first.settings
  moreToTry := second.moreToTry.trans first.moreToTry
  connected := second.connected.trans first.connected
  retryInterval := second.retryInterval.trans first.retryInterval
  cleanings := second.cleanings.trans first.cleanings

/-- A pass cleans the session when it is cut off and the session ends with its connection. -/
theorem retryLoop_cleanings (now : Nat) (regardless : Bool) {messages : List Messages} {c : Clients}
    (connected : c.connected = true) (good : c.good = true) (idle : c.net.pendingWrites = false) :
    c.cleanings < (MQTTProtocol.retryLoop now regardless c messages).cleanings ↔
      CutOff c.net.writes
          (messages.filter fun m => isDue now regardless c.retryInterval m && decide m.Due) ∧
        c.DiscardsOnClose := by
  induction messages generalizing c with
  | nil => simp [MQTTProtocol.retryLoop, cutOff_nil]
  | cons m rest ih =>
      rw [retryLoop_cons connected good idle]
      cases due : isDue now regardless c.retryInterval m with
      | false =>
          rw [if_neg Bool.false_ne_true, ih connected good idle,
            List.filter_cons_of_neg (by simp [due])]
      | true =>
          rw [if_pos rfl]
          rcases alike_countSent c regardless with ⟨counted, countedGood, countedNet⟩
          have cases := retryMessage_cases (MQTTProtocol.countSent c regardless) m
          rw [countedNet, putdatas_idle idle] at cases
          rcases cases with ⟨silent, result⟩ | ⟨sends, written, c', result, alike, good', net'⟩ |
            ⟨sends, fails, c', result, alike⟩
          · rw [result, List.filter_cons_of_neg (by simp [silent])]
            simp only
            rw [← counted.cleanings, ih (counted.connected.trans connected)
              (countedGood.trans good) (by rw [countedNet]; exact idle), counted.discardsOnClose,
              counted.retryInterval, countedNet]
          · have alike := counted.trans alike
            rw [result, List.filter_cons_of_pos (by simp [due, sends]), cutOff_cons]
            simp only at written ⊢
            rcases written with complete | ⟨interrupted, publishes⟩
            · have idle' : c'.net.pendingWrites = false := by simp [net', complete]
              rw [← alike.cleanings, ih (alike.connected.trans connected)
                ((good'.trans countedGood).trans good) idle', alike.discardsOnClose,
                alike.retryInterval, net', complete]
            · have pending : c'.net.pendingWrites = true := by simp [net', interrupted]
              rw [retryLoop_pending pending, alike.cleanings, interrupted]
              simp [publishes]
          · have alike := counted.trans alike
            rw [result, List.filter_cons_of_pos (by simp [due, sends]), cutOff_cons]
            simp only at fails ⊢
            rw [← alike.cleanings, cleanings_closeSession, alike.discardsOnClose]
            rcases fails with error | ⟨interrupted, releases⟩
            · simp [error]
            · simp [interrupted, releases]

/-- A retry pass of the timer closes the connection: it is found to be broken, or it breaks. -/
def Clients.RetryCloses (c : Clients) (now : Nat) (doRetry : Bool) : Prop :=
  c.connected = true ∧
    (c.good = false ∨
      (c.net.pendingWrites = false ∧ doRetry = true ∧
        (0 < c.retryInterval ∨ c.connectSent ≠ c.connectCount) ∧
        CutOff c.net.writes (c.outboundMsgs.filter fun m =>
          isDue now (decide (c.connectSent < c.connectCount)) c.retryInterval m && decide m.Due)))

theorem retry_cleanings (now : Nat) (doRetry : Bool) (c : Clients) :
    c.cleanings < (MQTTProtocol.retry now doRetry false c).cleanings ↔
      c.RetryCloses now doRetry ∧ c.DiscardsOnClose := by
  unfold MQTTProtocol.retry Clients.RetryCloses
  cases connected : c.connected with
  | false => simp
  | true =>
      cases good : c.good with
      | false => simp [cleanings_closeSession]
      | true =>
          cases idle : c.net.pendingWrites with
          | true => simp [Socket.noPendingWrites, idle]
          | false =>
              cases doRetry with
              | false => simp [Socket.noPendingWrites, idle]
              | true =>
                  have passes := @retryLoop_cleanings now (decide (c.connectSent < c.connectCount))
                    c.outboundMsgs c connected good idle
                  by_cases waits : c.retryInterval ≤ 0 ∧ c.connectSent = c.connectCount
                  · have settled : ¬(0 < c.retryInterval ∨ c.connectSent ≠ c.connectCount) := by
                      omega
                    simp only [settled, false_and, and_false, or_false,
                      Bool.true_eq_false, iff_false]
                    simp [Socket.noPendingWrites, idle, MQTTProtocol.retries, waits.1, waits.2]
                  · have going : 0 < c.retryInterval ∨ c.connectSent ≠ c.connectCount := by omega
                    have begins : (true && decide (c.retryInterval ≤ 0) &&
                        c.connectSent == c.connectCount) = false := by
                      rw [Bool.eq_false_iff]
                      simpa using not_and.mp waits
                    simp only [Socket.noPendingWrites, idle, MQTTProtocol.retries, begins, going,
                      Bool.not_true, Bool.not_false, Bool.false_eq_true,
                        Bool.true_eq_false, if_false,
                      if_true, passes, true_and, false_or]

theorem cutOff_untouchedMessages (writes : List CompletionCode) (messages : List Messages) :
    CutOff writes (untouchedMessages messages) ↔ CutOff writes messages := by
  induction messages generalizing writes with
  | nil => rfl
  | cons m rest ih =>
      change CutOff writes (_ :: untouchedMessages rest) ↔ _
      rw [cutOff_cons, cutOff_cons, ih]
      rfl

/-- The pass of a new connection closes it again. -/
def Clients.ConnectCloses (c : Clients) : Prop :=
  c.net.pendingWrites = false ∧ CutOff c.net.writes (c.outboundMsgs.filter fun m => decide m.Due)

theorem retry_connected_cleanings {c : Clients} (connected : c.connected = true)
    (good : c.good = true) :
    c.cleanings < (MQTTProtocol.retry 0 true true c).cleanings ↔
      c.ConnectCloses ∧ c.DiscardsOnClose := by
  unfold Clients.ConnectCloses
  cases idle : c.net.pendingWrites with
  | true => simp [MQTTProtocol.retry, Socket.noPendingWrites, idle, connected, good]
  | false =>
      have passes := @retryLoop_cleanings 0 true c.outboundMsgs
        { c with connectCount := c.outboundMsgs.length } connected good idle
      simp only [isDue, Bool.true_or, Bool.true_and] at passes
      have retried : MQTTProtocol.retry 0 true true c =
          MQTTProtocol.retryLoop 0 true { c with connectCount := c.outboundMsgs.length }
            c.outboundMsgs := by
        simp [MQTTProtocol.retry, MQTTProtocol.retries, connected, good, idle,
          Socket.noPendingWrites]
      rw [retried]
      simp only [true_and]
      exact passes

/-- A new connection cleans the session unless it takes it up, or when its first pass breaks it. -/
theorem completeConnection_cleanings (c : Clients) (sessionPresent : Bool) :
    c.cleanings < (MQTTAsync.completeConnection c sessionPresent).cleanings ↔
      ¬Session.KeepsSession c sessionPresent ∨ (c.ConnectCloses ∧ c.DiscardsOnClose) := by
  have cleans (after : Clients) (same : after.cleanings = c.cleanings) :
      c.cleanings < (if 0 < (MQTTAsync.cleanSession after).outboundMsgs.length then
        MQTTProtocol.retry 0 true true { MQTTAsync.cleanSession after with
          outboundMsgs := untouchedMessages (MQTTAsync.cleanSession after).outboundMsgs }
        else MQTTAsync.cleanSession after).cleanings := by
    rw [if_neg (show ¬0 < (MQTTAsync.cleanSession after).outboundMsgs.length from Nat.lt_irrefl 0),
      cleanings_cleanSession, same]
    exact Nat.lt_succ_self _
  unfold MQTTAsync.completeConnection
  simp only
  split
  next flags =>
    have renewed : ¬Session.KeepsSession c sessionPresent := by
      rintro ⟨notClean, notStart, -⟩
      simp [notClean, notStart] at flags
    simp only [renewed, not_false_eq_true, true_or, iff_true]
    exact cleans _ (by simp [Clients.cleanings])
  next flags =>
    split
    next absent =>
      have renewed : ¬Session.KeepsSession c sessionPresent := by
        rintro ⟨-, -, present⟩
        simp only [Bool.and_eq_true, decide_eq_true_eq, Bool.not_eq_true'] at absent
        simp [present absent.1] at absent
      simp only [renewed, not_false_eq_true, true_or, iff_true]
      exact cleans _ (by simp [Clients.cleanings])
    next present =>
      have keeps : Session.KeepsSession c sessionPresent := by
        refine ⟨by simp_all, by simp_all, fun version => ?_⟩
        simpa [version] using present
      simp only [keeps, not_true_eq_false, false_or]
      have logged : (c.log .connected).cleanings = c.cleanings := by
        simp [Clients.cleanings, Clients.log]
      split
      next pending =>
        have passes := @retry_connected_cleanings { c with
          connected := true
          good := true
          trace := .connected :: c.trace
          outboundMsgs := untouchedMessages c.outboundMsgs } rfl rfl
        have filtered : (untouchedMessages c.outboundMsgs).filter (fun m => decide m.Due) =
            untouchedMessages (c.outboundMsgs.filter fun m => decide m.Due) := by
          rw [untouchedMessages, untouchedMessages, List.filter_map]
          rfl
        unfold Clients.ConnectCloses at passes ⊢
        simp only [filtered, cutOff_untouchedMessages] at passes
        rw [← logged]
        exact passes
      next absent =>
        have empty : c.outboundMsgs = [] := by simpa using absent
        change c.cleanings < (c.log .connected).cleanings ↔ _
        simp [logged, Clients.ConnectCloses, empty, cutOff_nil]

end Passes

end Paho
