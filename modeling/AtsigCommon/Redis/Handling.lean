import AtsigCommon.Coroutine.Contract
import AtsigCommon.Redis.Consumer

/-!
# What a handling sends

A handling of a message awaits a slot, `process_message` with the envelope that was read, the
pause, and at its end the `XACK` and the write of a dead letter.  `handleEnvelope_sends`,
`rejectInvalidMessage_sends` and `deadLetterReclaimed_sends` say so of every execution.
-/

namespace Atsig

open Coroutine Python

section Rules

variable {α : Type} {P : Command → Prop}

lemma sendsOnly_send {c : Command} (h : P c) : (send c).SendsOnly P :=
  Co.SendsOnly.call (S := consumerSig) h

lemma sendsOnly_writeLog (level : Level) (rid text : String) :
    (writeLog level rid text).SendsOnly P :=
  Co.SendsOnly.modify _

lemma sendsOnly_exceptException {x : Consumer α} {handler : PyException → Consumer α}
    (hx : x.SendsOnly P) (hh : ∀ e, (handler e).SendsOnly P) :
    (exceptException x handler).SendsOnly P := by
  refine hx.protect fun e => ?_
  cases e with
  | cancelled => exact Co.SendsOnly.raise _
  | exception e => exact hh e

end Rules

/-- The end of a message: the dead letter, and the ACK. -/
inductive IsDisposal (cfg : Config) (messageId : EntryId) (payload : String) : Command → Prop
  | xadd (error : Option String) : IsDisposal cfg messageId payload
      (.xadd (dlqName cfg.streamName) ⟨messageId, payload, error, cfg.groupName⟩ cfg.dlqMaxlen)
  | xack : IsDisposal cfg messageId payload (.xack cfg.streamName cfg.groupName messageId)

/-- The commands of a handling; `process_message` is awaited with one envelope only. -/
inductive IsHandling (cfg : Config) (rid : String) (messageId : EntryId) (action : String)
    (payload : Payload) (letter : String) : Command → Prop
  | acquire : IsHandling cfg rid messageId action payload letter .acquire
  | processMessage : IsHandling cfg rid messageId action payload letter
      (.processMessage rid messageId action payload)
  | sleep : IsHandling cfg rid messageId action payload letter (.sleep cfg.retryDelay)
  | disposal (c : Command) (h : IsDisposal cfg messageId letter c) :
      IsHandling cfg rid messageId action payload letter c

section Sends

variable (cfg : Config) (rid : String) (messageId : EntryId) (action : String) (payload : Payload)
  (letter : String)

lemma handleAttempt_sends (attempt : ℕ) :
    (handleAttempt cfg rid messageId action payload attempt).SendsOnly
      (IsHandling cfg rid messageId action payload letter) := by
  refine sendsOnly_exceptException ?_ fun e => Co.SendsOnly.ite ?_ ?_
  · refine (sendsOnly_writeLog _ _ _).bind fun _ => Co.SendsOnly.bind ?_ fun _ =>
      (sendsOnly_writeLog _ _ _).bind fun _ => .ret _
    refine (sendsOnly_send .acquire).bind fun _ => Co.SendsOnly.finally_ ?_ _
    exact (sendsOnly_send .processMessage).bind fun outcome =>
      (sendsOnly_send (.disposal _ .xack)).bind fun _ => .ret outcome
  · exact (sendsOnly_writeLog _ _ _).bind fun _ => .ret _
  · refine (sendsOnly_writeLog _ _ _).bind fun _ => Co.SendsOnly.bind (.ite ?_ ?_) fun _ => .ret _
    · exact sendsOnly_send .sleep
    · exact .ret ()

lemma retryLoop_sends : ∀ (attempt left : ℕ) (lastError : Option String),
    (retryLoop cfg rid messageId action payload attempt left lastError).SendsOnly
      (IsHandling cfg rid messageId action payload letter)
  | _, 0, _ => .ret _
  | attempt, left + 1, _ => by
      refine (handleAttempt_sends cfg rid messageId action payload letter attempt).bind
        fun ending => ?_
      cases ending with
      | acked => exact .ret _
      | nonRetryable lastError => exact .ret _
      | failed lastError => exact retryLoop_sends (attempt + 1) left (some lastError)

variable [StandardLibrary]

/-- The write of a dead letter and the ACK, among the commands of whatever they are part of. -/
lemma sendToDlq_xack_sends {P : Command → Prop} (rawPayload : Dict String Text)
    (hP : ∀ c, IsDisposal cfg messageId (dumpsDefaultStr rawPayload) c → P c)
    (errorMsg : Option String) :
    Co.SendsOnly P (do sendToDlq cfg rid messageId rawPayload errorMsg; xack cfg messageId) := by
  refine Co.SendsOnly.bind ?_ fun _ => sendsOnly_send (hP _ .xack)
  refine sendsOnly_exceptException (Co.SendsOnly.bind ?_ fun _ => sendsOnly_writeLog _ _ _)
    fun e => (sendsOnly_writeLog _ _ _).bind fun _ => .raise _
  exact sendsOnly_send (hP _ (.xadd errorMsg))

lemma handleEnvelope_sends (normalizedPayload : Dict String String) :
    (handleEnvelope cfg rid messageId normalizedPayload action payload).SendsOnly
      (IsHandling cfg rid messageId action payload
        (dumpsDefaultStr (textValues normalizedPayload))) := by
  refine (retryLoop_sends cfg rid messageId action payload _ 1 _ none).bind fun ending => ?_
  cases ending with
  | acked => exact .ret _
  | gaveUp lastError skippedRetries =>
      refine (sendsOnly_writeLog _ _ _).bind fun _ => ?_
      exact sendToDlq_xack_sends cfg rid messageId (textValues normalizedPayload)
        (fun c hc => .disposal c hc) lastError

lemma rejectInvalidMessage_sends (rawPayload : Fields) (reason : String) :
    (rejectInvalidMessage cfg rid messageId rawPayload reason).SendsOnly
      (IsDisposal cfg messageId (dumpsDefaultStr (stringKeys rawPayload))) :=
  (sendsOnly_writeLog _ _ _).bind fun _ =>
    sendToDlq_xack_sends cfg rid messageId (stringKeys rawPayload) (fun _ hc => hc) _

lemma deadLetterReclaimed_sends (fields : Fields) (deliveries : ℕ) :
    (deadLetterReclaimed cfg rid messageId fields deliveries).SendsOnly
      (IsDisposal cfg messageId (dumpsDefaultStr (stringKeys fields))) :=
  (sendsOnly_writeLog _ _ _).bind fun _ =>
    sendToDlq_xack_sends cfg rid messageId (stringKeys fields) (fun _ hc => hc) _

/-- A message with a valid envelope. -/
lemma handleMessage_sends {rawPayload : Fields} {normalizedPayload : Dict String String}
    (hread : readEnvelope rawPayload = .ok (normalizedPayload, action, payload)) :
    (handleMessage cfg messageId rawPayload).SendsOnly
      (IsHandling cfg ((requestIdOf rawPayload).getD (toString messageId)) messageId action payload
        (dumpsDefaultStr (textValues normalizedPayload))) := by
  rw [handleMessage, handleEntry, hread]
  exact sendsOnly_exceptException (handleEnvelope_sends cfg _ messageId action payload _)
    fun e => sendsOnly_writeLog _ _ _

/-- A message without one. -/
lemma handleMessage_sends_invalid {rawPayload : Fields} {e : PyException}
    (hread : readEnvelope rawPayload = .error e) :
    (handleMessage cfg messageId rawPayload).SendsOnly
      (IsDisposal cfg messageId (dumpsDefaultStr (stringKeys rawPayload))) := by
  rw [handleMessage, handleEntry, hread]
  exact sendsOnly_exceptException (rejectInvalidMessage_sends cfg _ messageId rawPayload _)
    fun e => sendsOnly_writeLog _ _ _

end Sends

end Atsig
