import AtsigCommon.Coroutine.Contract
import AtsigCommon.Logger.Context
import AtsigCommon.Python.Values
import Mathlib.Algebra.Order.Field.Rat

/-!
# `EventProducer`

The coroutines of `atsig_common.redis.producer`, over the two things they await: `XADD`, on the
connection or on a pipeline, and `asyncio.sleep`.  The request id of the context is an argument,
`rid`; the log is the state.

A payload may hold any Python value, so what `json.dumps` makes of it may be an exception.
-/

namespace Atsig

open Coroutine Python

/-- A payload, as far as `json.dumps` is concerned. -/
inductive PayloadValue
  | json (items : List (String × Json))
  | unserializable (e : PyException)

/-- Where a command of the producer goes. -/
inductive XaddTarget
  | redisManager
  | pipe
  deriving DecidableEq

/-- `self.default_maxlen`, `self.default_retries` -/
structure EventProducer where
  defaultMaxlen : Option ℤ := none
  defaultRetries : ℤ := 0

/-- The arguments of `emit`. -/
structure Emission where
  streamName : String
  action : String
  payload : PayloadValue
  target : XaddTarget := .redisManager
  maxlen : Option ℤ := none
  retries : Option ℤ := none
  retryDelay : ℚ := 1 / 5

/-- What the producer awaits. -/
inductive ProducerCommand
  | xadd (target : XaddTarget) (streamName : String) (fields : Dict String String)
      (maxlen : Option ℤ)
  | sleep (delay : ℚ)

/-- `XADD` answers the id of the entry; on a pipeline, the pipeline. -/
@[reducible] def ProducerCommand.Answer : ProducerCommand → Type
  | .xadd .. => String
  | .sleep _ => Unit

abbrev producerSig : Signature :=
  ⟨List (Level × String), ProducerCommand, ProducerCommand.Answer, Raised⟩

/-- A coroutine of the producer. -/
abbrev Producer (α : Type) := Co producerSig α

namespace Producer

/-- `logger.<level>(text)` -/
def log (level : Level) (text : String) : Producer Unit :=
  .modify fun lines => lines ++ [(level, text)]

/-- `await target.xadd(…)` -/
def xadd (target : XaddTarget) (streamName : String) (fields : Dict String String)
    (maxlen : Option ℤ) : Producer String :=
  Co.call (S := producerSig) (.xadd target streamName fields maxlen)

def sleep (delay : ℚ) : Producer Unit := Co.call (S := producerSig) (.sleep delay)

/-- `except Exception as e` -/
def exceptException {α : Type} (x : Producer α) (handler : PyException → Producer α) :
    Producer α :=
  x.protect fun
    | .exception e => handler e
    | .cancelled => .raise .cancelled

end Producer

/-- `UnboundLocalError` -/
def unboundLocalError : PyException :=
  ⟨.other, "UnboundLocalError",
    "cannot access local variable 'message_id' where it is not associated with a value"⟩

section Emit

variable [StandardLibrary]

/-- `json.dumps(payload, default=str)` -/
def dumpsPayload : PayloadValue → Except PyException String
  | .json items => .ok (StandardLibrary.dumps (.obj items))
  | .unserializable e => .error e

/-- The value of `meta`. -/
def metaJson (requestId : String) : Json := .obj [("request_id", .str requestId)]

/-- `stream_data` -/
def streamData (action data rid : String) : Dict String String :=
  let fields : Dict String String := Dict.ofPairs [("action", action), ("data", data)]
  match currentRequestId rid with
  | some requestId => fields.set "meta" (StandardLibrary.dumps (metaJson requestId))
  | none => fields

variable (producer : EventProducer) (rid : String) (args : Emission)

/-- `maxlen if maxlen is not None else self.default_maxlen` -/
def Emission.limit : Option ℤ := args.maxlen.or producer.defaultMaxlen

/-- `(retries if pipe is None else 0) + 1`, with the default in place of a missing `retries`. -/
def Emission.attempts : ℤ :=
  (match args.target with
    | .redisManager => args.retries.getD producer.defaultRetries
    | .pipe => 0) + 1

/-- One pass of the loop of `emit`: the id of the entry, or nothing when it has to go on. -/
def emitAttempt (fields : Dict String String) (attempt : ℕ) : Producer (Option String) :=
  Producer.exceptException
    (do return some (← Producer.xadd args.target args.streamName fields (args.limit producer)))
    fun e =>
      if (attempt : ℤ) = args.attempts producer then do
        Producer.log .error
          ("[Producer] Failed to emit '" ++ args.action ++ "' to '" ++ args.streamName ++ "': "
            ++ e.typeName)
        .raise (.exception e)
      else do
        Producer.log .warning
          ("[Producer] Emit of '" ++ args.action ++ "' to '" ++ args.streamName ++ "' failed ("
            ++ e.typeName ++ "), attempt " ++ toString attempt ++ "/"
            ++ toString (args.attempts producer) ++ ". Retrying.")
        match floatMulInt args.retryDelay (2 ^ (attempt - 1)) with
        | .error e => .raise (.exception e)
        | .ok delay => do
            Producer.sleep delay
            return none

/-- `for attempt in range(attempt, attempt + left)` -/
def emitLoop (fields : Dict String String) : (attempt left : ℕ) → Producer (Option String)
  | _, 0 => return none
  | attempt, left + 1 => do
      match ← emitAttempt producer args fields attempt with
      | some messageId => return some messageId
      | none => emitLoop fields (attempt + 1) left

/-- `if pipe is None:` at the end of `emit`. -/
def logEmitted (messageId : String) : Producer Unit :=
  match args.target with
  | .redisManager =>
      Producer.log .info
        ("[Producer] Emitted '" ++ args.action ++ "' to '" ++ args.streamName ++ "' (ID: "
          ++ messageId ++ ")")
  | .pipe => return ()

/-- `emit` -/
def emit : Producer String :=
  match dumpsPayload args.payload with
  | .error e => do
      Producer.log .error
        ("[Producer] Could not serialize '" ++ args.action ++ "' for '" ++ args.streamName
          ++ "': " ++ e.typeName)
      .raise (.exception e)
  | .ok data => do
      let fields := streamData args.action data rid
      -- no pass of the loop leaves `message_id` without a value
      match ← emitLoop producer args fields 1 (args.attempts producer).toNat with
      | none => .raise (.exception unboundLocalError)
      | some messageId => do
          logEmitted args messageId
          return messageId

/-- `emit_safe`, which has no pipeline and two retries by default. -/
def emitSafe : Producer (Option String) :=
  let args := { args with target := .redisManager, retries := some (args.retries.getD 2) }
  Producer.exceptException (do return some (← emit producer rid args)) fun _ => return none

end Emit

end Atsig
