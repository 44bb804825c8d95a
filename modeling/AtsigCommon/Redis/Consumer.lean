import AtsigCommon.Coroutine.Contract
import AtsigCommon.Logger.Context
import AtsigCommon.Python.Values
import Mathlib.Algebra.Order.Field.Rat

/-!
# `BaseRedisConsumer`

The coroutines of `atsig_common.redis.consumer`, as the source writes them, over the commands
they await: the Redis calls, `process_message` (which a service overrides), the slot semaphore,
`asyncio.sleep` and `asyncio.gather`.

The object's own fields that change (`_is_running`, the semaphore) and what it reads and writes
without awaiting (the monotonic clock, the log) are the shared state, `Self`.  The request id of
the context, a context variable in the source, is an argument: `rid`.  A coroutine object that
was created and not yet started is its call, a `Job`; `gather` starts the jobs it is given.

`run` and `_reclaim_pending` have loops without a bound; their first argument bounds the
unfolding (`Program.spent`).
-/

namespace Atsig

open Coroutine Python

/-! ## Data -/

/-- The id of a stream entry. -/
structure EntryId where
  ms : ℕ
  seq : ℕ
  deriving DecidableEq, Repr

/-- `"0-0"`, the cursor at which a scan starts and ends. -/
def EntryId.zero : EntryId := ⟨0, 0⟩

instance : ToString EntryId := ⟨fun e => toString e.ms ++ "-" ++ toString e.seq⟩

/-- The fields of a stream entry. -/
abbrev Fields := Dict Text Text

/-- The payload of an event: a JSON object. -/
abbrev Payload := List (String × Json)

/-- What a handler did with an event. -/
inductive ConsumerOutcome
  | applied
  | ignored
  deriving DecidableEq, Repr

instance : ToString ConsumerOutcome where
  toString
    | .applied => "applied"
    | .ignored => "ignored"

/-- `dlq_name` of `atsig_common.events`. -/
def dlqName (streamName : String) : String := streamName ++ "_dlq"

/-- The arguments of `__init__`, with their defaults. -/
structure Config where
  streamName : String
  groupName : String
  consumerName : String
  blockMs : ℕ := 5000
  batchSize : ℕ := 10
  maxRetries : ℕ := 3
  retryDelay : ℚ := 2
  concurrency : ℕ := 10
  groupStartId : String := "0"
  dlqMaxlen : Option ℕ := none
  maxLoopFailures : ℕ := 20
  loopErrorDelay : Number := .int 5
  loopErrorMaxDelay : ℚ := 60
  reclaimIdleMs : ℕ := 120000
  reclaimIntervalS : ℚ := 60
  maxDeliveries : ℕ := 5

/-- The fields of an entry of the dead letter queue. -/
structure DlqFields where
  originalMessageId : EntryId
  payload : String
  error : Option String
  consumerGroup : String
  deriving DecidableEq, Repr

/-- A log line, with the request id of the context it is written in. -/
structure LogLine where
  level : Level
  requestId : String
  text : String
  deriving DecidableEq, Repr

/-- A coroutine object: a call of `_handle_message` or of `_dead_letter_reclaimed` that has not
started. -/
inductive Job
  | handleMessage (messageId : EntryId) (rawPayload : Fields)
  | deadLetterReclaimed (messageId : EntryId) (fields : Fields) (deliveries : ℕ)

/-- The entry a job is about. -/
def Job.messageId : Job → EntryId
  | .handleMessage e _ => e
  | .deadLetterReclaimed e _ _ => e

/-- What the consumer awaits. -/
inductive Command
  | xgroupCreate (name groupname id : String) (mkstream : Bool)
  | xreadgroup (groupname consumername stream : String) (count block : ℕ)
  | xautoclaim (name groupname consumername : String) (minIdleTime : ℕ) (startId : EntryId)
      (count : ℕ)
  | xpendingRange (name groupname : String) (min max : EntryId) (count : ℕ)
  | xadd (name : String) (fields : DlqFields) (maxlen : Option ℕ)
  | xack (name groupname : String) (id : EntryId)
  | processMessage (requestId : String) (messageId : EntryId) (action : String)
      (payload : Payload)
  | acquire
  | sleep (delay : ℚ)
  | gather (jobs : List Job)

/-- What each command answers.  `XREADGROUP` gives the entries by stream (nothing, or an empty
list, when there is none); `XAUTOCLAIM` gives a cursor and the entries, without fields where the
entry was trimmed; `XPENDING` gives `times_delivered` of each row. -/
@[reducible] def Command.Answer : Command → Type
  | .xreadgroup .. => List (String × List (EntryId × Fields))
  | .xautoclaim .. => EntryId × List (EntryId × Option Fields)
  | .xpendingRange .. => List ℕ
  | .processMessage .. => Option ConsumerOutcome
  | _ => Unit

/-- The commands that can raise an exception.  The awaits of `asyncio` itself can only be
cancelled: `gather` collects the exceptions of its jobs. -/
def Command.canRaise : Command → Bool
  | .acquire | .sleep _ | .gather _ => false
  | _ => true

/-- How an await on the command can end. -/
def Command.Possible (c : Command) (r : Except Raised c.Answer) : Prop :=
  ∀ e, r = .error (.exception e) → c.canRaise

/-- The part of a consumer object that changes, with the clock it reads and the log it writes. -/
structure Self where
  isRunning : Bool
  freeSlots : ℕ
  monotonic : ℚ
  log : List LogLine

/-- The object after `__init__`. -/
def Self.init (cfg : Config) (monotonic : ℚ) : Self := ⟨false, cfg.concurrency, monotonic, []⟩

/-- `stop()` -/
def Self.stop (self : Self) : Self := { self with isRunning := false }

/-- The signature of the consumer's coroutines. -/
abbrev consumerSig : Signature := ⟨Self, Command, Command.Answer, Raised⟩

/-- The await failed: it raised an `Exception`. -/
def Failed (x : Exchange consumerSig) : Prop := ∃ e, x.answer = .error (.exception e)

/-- A coroutine of the consumer. -/
abbrev Consumer (α : Type) := Co consumerSig α

/-! ## The calls -/

/-- `await`, for a command of the consumer. -/
def send (c : Command) : Consumer c.Answer := Co.call (S := consumerSig) c

/-- `except Exception as e`: a cancellation passes through. -/
def exceptException {α : Type} (x : Consumer α) (handler : PyException → Consumer α) :
    Consumer α :=
  x.protect fun
    | .exception e => handler e
    | .cancelled => .raise .cancelled

/-- `logger.<level>(text)` -/
def writeLog (level : Level) (rid text : String) : Consumer Unit :=
  .modify fun self => { self with log := self.log ++ [⟨level, rid, text⟩] }

section Calls

variable (cfg : Config)

def xgroupCreate : Consumer Unit :=
  send (.xgroupCreate cfg.streamName cfg.groupName cfg.groupStartId true)

def xreadgroup : Consumer (List (String × List (EntryId × Fields))) :=
  send (.xreadgroup cfg.groupName cfg.consumerName cfg.streamName cfg.batchSize cfg.blockMs)

def xautoclaim (startId : EntryId) : Consumer (EntryId × List (EntryId × Option Fields)) :=
  send (.xautoclaim cfg.streamName cfg.groupName cfg.consumerName cfg.reclaimIdleMs startId
    cfg.batchSize)

def xpendingRange (messageId : EntryId) : Consumer (List ℕ) :=
  send (.xpendingRange cfg.streamName cfg.groupName messageId messageId 1)

def xack (messageId : EntryId) : Consumer Unit :=
  send (.xack cfg.streamName cfg.groupName messageId)

end Calls

/-- `process_message`, which every service overrides. -/
def processMessage (rid : String) (messageId : EntryId) (action : String) (payload : Payload) :
    Consumer (Option ConsumerOutcome) :=
  send (.processMessage rid messageId action payload)

def sleep (delay : ℚ) : Consumer Unit := send (.sleep delay)

/-- `asyncio.gather(*jobs, return_exceptions=True)` -/
def gather (jobs : List Job) : Consumer Unit := send (.gather jobs)

def acquire : Consumer Unit := send .acquire

/-- `async with self._semaphore` -/
def withSlot {α : Type} (body : Consumer α) : Consumer α := do
  acquire
  body.finally_ fun self => { self with freeSlots := self.freeSlots + 1 }

/-! ## Proof rules for the consumer's own combinators -/

section Rules

variable {G α : Type} {C : Contract consumerSig G} {φ : α → G → Self → Prop}
  {ψ : Raised → G → Self → Prop}

lemma wp_send (c : Command) {φ : c.Answer → G → Self → Prop} :
    (send c).wp C φ ψ = fun g s =>
      C.may g s c ∧ (∀ a g' s', C.env g s c (.ok a) g' s' → φ a g' s')
        ∧ ∀ e g' s', C.env g s c (.error e) g' s' → ψ e g' s' :=
  Co.wp_call (S := consumerSig) c

@[simp] lemma wp_writeLog {φ : Unit → G → Self → Prop} (level : Level) (rid text : String) :
    (writeLog level rid text).wp C φ ψ = fun g s =>
      φ () g { s with log := s.log ++ [⟨level, rid, text⟩] } := rfl

@[simp] lemma wp_exceptException (x : Consumer α) (handler : PyException → Consumer α) :
    (exceptException x handler).wp C φ ψ
      = x.wp C φ fun e g s => match e with
          | .exception e => (handler e).wp C φ ψ g s
          | .cancelled => ψ .cancelled g s := by
  rw [exceptException, Co.wp_protect]
  congr
  funext e g s
  cases e <;> rfl

/-- A slot: taken by an await, given back whatever happens. -/
@[simp] lemma wp_withSlot (body : Consumer α) :
    (withSlot body).wp C φ ψ = fun g s =>
      C.may g s Command.acquire
        ∧ (∀ a g' s', C.env g s Command.acquire (.ok a) g' s' →
            body.wp C (fun a g s => φ a g { s with freeSlots := s.freeSlots + 1 })
              (fun e g s => ψ e g { s with freeSlots := s.freeSlots + 1 }) g' s')
        ∧ ∀ e g' s', C.env g s Command.acquire (.error e) g' s' → ψ e g' s' := by
  simp only [withSlot, Co.wp_bind, Co.wp_finally]
  exact wp_send Command.acquire

/-- The rule of the await, for each of the calls above. -/
lemma send_wp {c : Command} {φ : c.Answer → G → Self → Prop} {g : G} {s : Self}
    (hmay : C.may g s c) (hok : ∀ a g' s', C.env g s c (.ok a) g' s' → φ a g' s')
    (herr : ∀ e g' s', C.env g s c (.error e) g' s' → ψ e g' s') :
    (send c).wp C φ ψ g s := by
  rw [wp_send]
  exact ⟨hmay, hok, herr⟩

variable {I : G → Self → Prop}

/-- `except Exception` keeps a contract that both its parts keep. -/
lemma exceptException_keeps {x : Consumer α} {handler : PyException → Consumer α}
    (hx : x.Keeps C I) (hh : ∀ e, (handler e).Keeps C I) :
    (exceptException x handler).Keeps C I := by
  refine hx.protect fun e => ?_
  cases e with
  | cancelled => exact Co.keeps_raise _
  | exception e => exact hh e

/-- `except Exception` around what keeps a contract, with a handler that ends: only a
cancellation gets out. -/
lemma exceptException_catches {x : Consumer α} {handler : PyException → Consumer α} {g : G}
    {s : Self} (hx : x.Keeps C)
    (hh : ∀ e g s, (handler e).wp C (fun _ _ _ => True) (fun e _ _ => e = .cancelled) g s) :
    (exceptException x handler).wp C (fun _ _ _ => True) (fun e _ _ => e = .cancelled) g s := by
  rw [wp_exceptException]
  refine hx.wp trivial (fun _ _ _ h => h) (fun e g s _ => ?_)
  cases e with
  | cancelled => rfl
  | exception e => exact hh e g s

/-- The log is no part of an invariant of the ghost state. -/
lemma writeLog_keeps {I : G → Prop} (level : Level) (rid text : String) :
    (writeLog level rid text).Keeps C fun g _ => I g := Co.keeps_modify fun _ _ h => h

lemma send_keeps {c : Command} (hmay : ∀ g s, I g s → C.may g s c)
    (henv : ∀ g s r g' s', I g s → C.env g s c r g' s' → I g' s') : (send c).Keeps C I :=
  Co.keeps_call (S := consumerSig) hmay henv

end Rules

/-! ## Envelopes -/

/-- `_decode` -/
def decode : Text → Except PyException String
  | .str s => .ok s
  | .bytes b =>
      match String.fromUTF8? b with
      | some s => .ok s
      | none => .error unicodeDecodeError

/-- `{self._decode(k): self._decode(v) for k, v in raw_payload.items()}` -/
def normalize (rawPayload : Fields) : Except PyException (Dict String String) :=
  rawPayload.comprehend fun k v => do return (← decode k, ← decode v)

/-- `InvalidMessageError(reason)` -/
def invalidMessageError (reason : String) : PyException :=
  ⟨.invalidMessageError, "InvalidMessageError", reason⟩

section Messages

variable [StandardLibrary]

/-- `_parse_envelope` -/
def parseEnvelope (normalizedPayload : Dict String String) :
    Except PyException (String × Payload) :=
  match normalizedPayload.get? "action", normalizedPayload.get? "data" with
  | some action, some rawData =>
      match StandardLibrary.loads rawData with
      | .ok (.obj payload) => .ok (action, payload)
      | .ok _ => .error (invalidMessageError "'data' is not a JSON object")
      | .error e =>
          if e.cls = .typeError || e.isValueError then
            .error (invalidMessageError "'data' is not valid JSON")
          else .error e
  | _, _ => .error (invalidMessageError "missing 'action' or 'data'")

/-- The first step of `_handle_entry`: the normalized payload and its envelope. -/
def readEnvelope (rawPayload : Fields) :
    Except PyException (Dict String String × String × Payload) := do
  let normalizedPayload ← normalize rawPayload
  let (action, payload) ← parseEnvelope normalizedPayload
  return (normalizedPayload, action, payload)

/-- The reason for which `_handle_entry` rejects an envelope. -/
def rejectReason (e : PyException) : String :=
  if e.cls = .invalidMessageError then e.text else "unreadable entry (" ++ e.typeName ++ ")"

/-- `_request_id_of`: the request id the producer put in `meta`. -/
def requestIdOf (rawPayload : Fields) : Option String :=
  match normalize rawPayload with
  | .error _ => none
  | .ok fields =>
      let metaField := (fields.get? "meta").getD ""
      match StandardLibrary.loads (if metaField = "" then "\x7b\x7d" else metaField) with
      | .ok (.obj items) =>
          match items.lookup "request_id" with
          | some (.str s) => if isValidRequestId s then some s else none
          | _ => none
      | _ => none

end Messages

/-! ## Handling one message -/

section Handling

variable [StandardLibrary] (cfg : Config)

/-- `_send_to_dlq` -/
def sendToDlq (rid : String) (messageId : EntryId) (rawPayload : Dict String Text)
    (errorMsg : Option String) : Consumer Unit :=
  exceptException
    (do
      send (.xadd (dlqName cfg.streamName)
        ⟨messageId, dumpsDefaultStr rawPayload, errorMsg, cfg.groupName⟩ cfg.dlqMaxlen)
      writeLog .warning rid
        ("[Consumer] Message " ++ toString messageId ++ " moved to DLQ ("
          ++ dlqName cfg.streamName ++ ")."))
    fun dlqErr => do
      writeLog .critical rid
        ("[Consumer] FAILED TO WRITE TO DLQ for message " ++ toString messageId
          ++ ". It stays pending and will be retried. Error: " ++ dlqErr.typeName)
      .raise (.exception dlqErr)

/-- `{str(key): value for key, value in fields.items()}` -/
def stringKeys (fields : Fields) : Dict String Text :=
  Dict.ofPairs (fields.items.map fun p => (p.1.toStr, p.2))

/-- The normalized payload, as the values it holds. -/
def textValues (normalizedPayload : Dict String String) : Dict String Text :=
  Dict.ofPairs (normalizedPayload.items.map fun p => (p.1, .str p.2))

/-- `_reject_invalid_message` -/
def rejectInvalidMessage (rid : String) (messageId : EntryId) (rawPayload : Fields)
    (reason : String) : Consumer Unit := do
  writeLog .error rid
    ("[Consumer] Invalid message " ++ toString messageId ++ ": " ++ reason
      ++ ". Sending to DLQ.")
  sendToDlq cfg rid messageId (stringKeys rawPayload) (some ("Invalid message: " ++ reason))
  xack cfg messageId

/-- How one pass of the retry loop of `_handle_entry` ends. -/
inductive AttemptEnd
  | acked
  | nonRetryable (lastError : String)
  | failed (lastError : String)

/-- The `try` block of the retry loop: the handler and the ACK, in one slot. -/
def attemptBody (rid : String) (messageId : EntryId) (action : String) (payload : Payload)
    (attempt : ℕ) : Consumer AttemptEnd := do
  writeLog .debug rid
    ("[Consumer] Processing message " ++ toString messageId ++ " (attempt " ++ toString attempt
      ++ ")")
  let outcome ← withSlot do
    let outcome ← processMessage rid messageId action payload
    xack cfg messageId
    return outcome
  writeLog .debug rid
    ("[Consumer] Message " ++ toString messageId ++ " ACKed successfully"
      ++ (match outcome with
          | some o => " (" ++ toString o ++ ")"
          | none => "") ++ ".")
  return .acked

/-- `if attempt < self.max_retries: await asyncio.sleep(self.retry_delay)` -/
def retryPause (attempt : ℕ) : Consumer Unit :=
  if attempt < cfg.maxRetries then sleep cfg.retryDelay else return ()

/-- One pass of the retry loop: the `try` block with its two `except` clauses. -/
def handleAttempt (rid : String) (messageId : EntryId) (action : String) (payload : Payload)
    (attempt : ℕ) : Consumer AttemptEnd :=
  exceptException (attemptBody cfg rid messageId action payload attempt) fun e =>
    if e.cls = .nonRetryableError then do
      writeLog .error rid
        ("[Consumer] Non-retryable error processing " ++ toString messageId ++ ": " ++ e.text
          ++ ". Skipping remaining retries.")
      return .nonRetryable e.text
    else do
      writeLog .error rid
        ("[Consumer] Error processing " ++ toString messageId ++ " (attempt " ++ toString attempt
          ++ "/" ++ toString cfg.maxRetries ++ "): " ++ e.typeName)
      retryPause cfg attempt
      return .failed e.typeName

/-- How the retry loop ends: the entry was ACKed, or it has to be dead-lettered with the last
error, the remaining retries skipped or used up. -/
inductive RetryEnd
  | acked
  | gaveUp (lastError : Option String) (skippedRetries : Bool)

/-- The retry loop, `for attempt in range(attempt, attempt + left)`. -/
def retryLoop (rid : String) (messageId : EntryId) (action : String) (payload : Payload) :
    (attempt left : ℕ) → (lastError : Option String) → Consumer RetryEnd
  | _, 0, lastError => return .gaveUp lastError false
  | attempt, left + 1, _ => do
      match ← handleAttempt cfg rid messageId action payload attempt with
      | .acked => return .acked
      | .nonRetryable lastError => return .gaveUp (some lastError) true
      | .failed lastError =>
          retryLoop rid messageId action payload (attempt + 1) left (some lastError)

/-- What `_handle_entry` does with a valid envelope. -/
def handleEnvelope (rid : String) (messageId : EntryId) (normalizedPayload : Dict String String)
    (action : String) (payload : Payload) : Consumer Unit := do
  match ← retryLoop cfg rid messageId action payload 1 cfg.maxRetries none with
  | .acked => return ()
  | .gaveUp lastError skippedRetries => do
      writeLog .error rid
        ("[Consumer] " ++ (if skippedRetries then "Non-retryable error" else "Max retries exceeded")
          ++ " for " ++ toString messageId ++ ". Sending to DLQ.")
      sendToDlq cfg rid messageId (textValues normalizedPayload) lastError
      xack cfg messageId

/-- `_handle_entry` -/
def handleEntry (rid : String) (messageId : EntryId) (rawPayload : Fields) : Consumer Unit :=
  exceptException
    (match readEnvelope rawPayload with
      | .error envelopeError =>
          rejectInvalidMessage cfg rid messageId rawPayload (rejectReason envelopeError)
      | .ok (normalizedPayload, action, payload) =>
          handleEnvelope cfg rid messageId normalizedPayload action payload)
    fun fatalError =>
      writeLog .error rid
        ("[Consumer] Handler error for " ++ toString messageId ++ ", the message stays pending: "
          ++ fatalError.typeName)

/-- `_handle_message`: the entry is handled in the context of the request that caused it. -/
def handleMessage (messageId : EntryId) (rawPayload : Fields) : Consumer Unit :=
  handleEntry cfg ((requestIdOf rawPayload).getD (toString messageId)) messageId rawPayload

/-- `_dead_letter_reclaimed` -/
def deadLetterReclaimed (rid : String) (messageId : EntryId) (fields : Fields)
    (deliveries : ℕ) : Consumer Unit := do
  writeLog .error rid
    ("[Consumer] Message " ++ toString messageId ++ " was delivered " ++ toString deliveries
      ++ " times (limit " ++ toString cfg.maxDeliveries ++ "). Sending to DLQ.")
  sendToDlq cfg rid messageId (stringKeys fields)
    (some ("Delivery limit reached (" ++ toString deliveries ++ " deliveries)"))
  xack cfg messageId

/-- What `gather` runs for a job, in the context of `run`. -/
def Job.start : Job → Consumer Unit
  | .handleMessage messageId rawPayload => Atsig.handleMessage cfg messageId rawPayload
  | .deadLetterReclaimed messageId fields deliveries =>
      Atsig.deadLetterReclaimed cfg noRequestId messageId fields deliveries

end Handling

/-! ## Reclaiming -/

section Reclaiming

variable (cfg : Config)

/-- `_delivery_count`: how many times Redis delivered the entry, `none` when it can not tell. -/
def deliveryCount (messageId : EntryId) : Consumer (Option ℕ) :=
  exceptException
    (do
      let rows ← xpendingRange cfg messageId
      return rows.head?)
    fun _ => return none

/-- The job of a reclaimed entry that still has its fields. -/
def reclaimJob (messageId : EntryId) (fields : Fields) : Option ℕ → Job
  | some deliveries =>
      if deliveries > cfg.maxDeliveries then .deadLetterReclaimed messageId fields deliveries
      else .handleMessage messageId fields
  | none => .handleMessage messageId fields

/-- The loop of `_handle_reclaimed` that builds `tasks`. -/
def reclaimTasks : List (EntryId × Option Fields) → Consumer (List Job)
  | [] => return []
  | (messageId, none) :: claimed => do
      xack cfg messageId
      reclaimTasks claimed
  | (messageId, some fields) :: claimed => do
      let deliveries ← deliveryCount cfg messageId
      let tasks ← reclaimTasks claimed
      return reclaimJob cfg messageId fields deliveries :: tasks

/-- `if tasks: await asyncio.gather(*tasks, return_exceptions=True)` -/
def gatherTasks (tasks : List Job) : Consumer Unit :=
  if tasks.isEmpty then return () else gather tasks

/-- `_handle_reclaimed` -/
def handleReclaimed (claimed : List (EntryId × Option Fields)) : Consumer Unit := do
  let tasks ← reclaimTasks cfg claimed
  gatherTasks tasks

/-- `if claimed:` in the loop of `_reclaim_pending`. -/
def takeOver (claimed : List (EntryId × Option Fields)) : Consumer Unit :=
  if claimed.isEmpty then return ()
  else do
    writeLog .warning noRequestId
      ("[Consumer] Reclaimed " ++ toString claimed.length ++ " pending message(s) of '"
        ++ cfg.streamName ++ "'.")
    handleReclaimed cfg claimed

/-- `_reclaim_pending`, from the head of its loop. -/
def reclaimPending : (fuel : ℕ) → (startId : EntryId) → (reclaimed : ℕ) → Consumer ℕ
  | 0, _, reclaimed => do
      if (← Co.get).isRunning then Co.spent else return reclaimed
  | fuel + 1, startId, reclaimed => do
      if (← Co.get).isRunning then
        let (nextId, claimed) ← xautoclaim cfg startId
        takeOver cfg claimed
        if nextId = .zero ∨ nextId = startId then return reclaimed + claimed.length
        else reclaimPending fuel nextId (reclaimed + claimed.length)
      else return reclaimed

end Reclaiming

/-! ## The read loop -/

section ReadLoop

variable (cfg : Config)

/-- `"BUSYGROUP" in str(e)` -/
def isBusyGroup (e : PyException) : Bool :=
  decide ("BUSYGROUP".toList <:+: e.text.toList)

/-- `_ensure_consumer_group` -/
def ensureConsumerGroup : Consumer Unit :=
  exceptException
    (do
      xgroupCreate cfg
      writeLog .info noRequestId
        ("[Consumer] Group '" ++ cfg.groupName ++ "' created on '" ++ cfg.streamName ++ "'."))
    fun e =>
      if e.cls = .responseError ∧ isBusyGroup e then
        writeLog .debug noRequestId
          ("[Consumer] Group '" ++ cfg.groupName ++ "' already exists.")
      else .raise (.exception e)

/-- The entries of an answer of `XREADGROUP`, whatever their stream. -/
def batchEntries (response : List (String × List (EntryId × Fields))) :
    List (EntryId × Fields) :=
  response.flatMap Prod.snd

/-- The jobs of what `XREADGROUP` answered, in its order. -/
def batchJobs (response : List (String × List (EntryId × Fields))) : List Job :=
  response.flatMap fun p => p.2.map fun m => .handleMessage m.1 m.2

lemma batchJobs_eq (response : List (String × List (EntryId × Fields))) :
    batchJobs response = (batchEntries response).map fun m => .handleMessage m.1 m.2 := by
  simp only [batchJobs, batchEntries, List.map_flatMap]

/-- `min(loop_error_delay * 2 ** (failures - 1), loop_error_max_delay)` -/
def loopDelay (failures : ℕ) : Except PyException Number :=
  (cfg.loopErrorDelay.mul (2 ^ (failures - 1))).map fun delay =>
    delay.min (.float cfg.loopErrorMaxDelay)

/-- The locals of `run` that its loop changes. -/
structure RunLocals where
  failures : ℕ
  lastReclaim : Option ℚ

/-- The reclaim of a pass of the loop, when it is due: the new `last_reclaim`. -/
def reclaimIfDue (fuel : ℕ) (lastReclaim : Option ℚ) : Consumer (Option ℚ) := do
  let now := (← Co.get).monotonic
  if lastReclaim.all fun last => decide (now - last ≥ cfg.reclaimIntervalS) then
    let _ ← reclaimPending cfg fuel .zero 0
    return some (← Co.get).monotonic
  else return lastReclaim

variable [StandardLibrary]

/-- `", giving up" if give_up else f", retrying in {delay:g}s"` -/
def retryNote (failures : ℕ) (delay : Number) : Except PyException String :=
  if cfg.maxLoopFailures ≠ 0 ∧ cfg.maxLoopFailures ≤ failures then .ok ", giving up"
  else delay.formatG.map fun text => ", retrying in " ++ text ++ "s"

/-- The two `except` clauses of `run`: a cancellation ends it, an exception is counted and
slept on until there are too many in a row. -/
def onLoopError (failures : ℕ) : Raised → Consumer ℕ
  | .cancelled => do
      writeLog .info noRequestId
        ("[Consumer] " ++ cfg.consumerName ++ " stopping gracefully...")
      .modify fun self => { self with isRunning := false }
      .raise .cancelled
  | .exception loopError => do
      let failures := failures + 1
      let giveUp := cfg.maxLoopFailures ≠ 0 ∧ cfg.maxLoopFailures ≤ failures
      match loopDelay cfg failures with
      | .error e => .raise (.exception e)
      | .ok delay =>
          match retryNote cfg failures delay with
          | .error e => .raise (.exception e)
          | .ok note => do
              writeLog .error noRequestId
                ("[Consumer] Loop error " ++ loopError.typeName ++ " (" ++ toString failures
                  ++ " in a row" ++ note ++ ")")
              if giveUp then
                .modify fun self => { self with isRunning := false }
                .raise (.exception loopError)
              else
                sleep delay.value
                return failures

/-- One pass of the loop of `run`.  The `try` block is cut where its locals change, so that each
part meets the `except` clauses with the locals it has. -/
def runPass (fuel : ℕ) (locals : RunLocals) : Consumer RunLocals := do
  match ← (reclaimIfDue cfg fuel locals.lastReclaim).attempt with
  | .error e => return { locals with failures := ← onLoopError cfg locals.failures e }
  | .ok lastReclaim =>
      match ← (xreadgroup cfg).attempt with
      | .error e => return ⟨← onLoopError cfg locals.failures e, lastReclaim⟩
      | .ok response =>
          match ← (gatherTasks (batchJobs response)).attempt with
          | .error e => return ⟨← onLoopError cfg 0 e, lastReclaim⟩
          | .ok () => return ⟨0, lastReclaim⟩

/-- `while self._is_running` -/
def runLoop : (fuel : ℕ) → RunLocals → Consumer Unit
  | 0, _ => do
      if (← Co.get).isRunning then Co.spent
  | fuel + 1, locals => do
      if (← Co.get).isRunning then
        let locals ← runPass cfg (fuel + 1) locals
        runLoop fuel locals

/-- `run` -/
def run (fuel : ℕ) : Consumer Unit := do
  ensureConsumerGroup cfg
  .modify fun self => { self with isRunning := true }
  writeLog .info noRequestId
    ("[Consumer] Starting " ++ cfg.consumerName ++ " listening to " ++ cfg.streamName ++ "...")
  runLoop cfg fuel ⟨0, none⟩

end ReadLoop

/-! ## A consumer, an entry and an error for concrete executions -/

/-- A consumer with the default settings. -/
def soloConfig : Config where
  streamName := "events"
  groupName := "users"
  consumerName := "worker"

/-- An entry with a valid envelope. -/
def pingFields : Fields :=
  Dict.ofPairs [(.str "action", .str "ping"), (.str "data", .str "\x7b\x7d")]

/-- The connection to Redis broke. -/
def connectionError : PyException := ⟨.other, "ConnectionError", "Connection closed by server."⟩

end Atsig
