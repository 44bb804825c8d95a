import AtsigCommon.Redis.DeadLetter
import AtsigCommon.Redis.Producer

/-!
# The envelope between producer and consumer

`emit` writes `action`, `data` and, inside of a request, `meta`; the consumer reads them back,
whether its client decodes or not.

* `emit_sends` — every entry that `emit` writes has these fields.
* `readEnvelope_streamData`, `requestIdOf_streamData` — what the consumer makes of them.
* `emits_handledAs` — how an entry that was emitted is handled.
-/

namespace Atsig

open Coroutine Python

variable [StandardLibrary]

/-! ## What is written -/

/-- The commands of `emit`: copies of one entry, and the pauses between them. -/
inductive IsEmission (producer : EventProducer) (rid : String) (args : Emission) :
    ProducerCommand → Prop
  | xadd (data : String) (hdata : dumpsPayload args.payload = .ok data) :
      IsEmission producer rid args (.xadd args.target args.streamName
        (streamData args.action data rid) (args.limit producer))
  | sleep (delay : ℚ) : IsEmission producer rid args (.sleep delay)

section Emission

variable (producer : EventProducer) (rid : String) (args : Emission)

lemma emitAttempt_sends {data : String} (hdata : dumpsPayload args.payload = .ok data)
    (attempt : ℕ) : (emitAttempt producer args (streamData args.action data rid) attempt).SendsOnly
      (IsEmission producer rid args) := by
  have hxadd : (Producer.xadd args.target args.streamName (streamData args.action data rid)
      (args.limit producer)).SendsOnly (IsEmission producer rid args) :=
    Co.SendsOnly.call (S := producerSig) (.xadd data hdata)
  refine (hxadd.bind fun messageId => .ret _).protect fun e => ?_
  cases e with
  | cancelled => exact .raise _
  | exception e =>
      refine Co.SendsOnly.ite ?_ ?_
      · exact (Co.SendsOnly.modify _).bind fun _ => .raise _
      · refine (Co.SendsOnly.modify _).bind fun _ => ?_
        cases floatMulInt args.retryDelay (2 ^ (attempt - 1)) with
        | error e => exact .raise _
        | ok delay =>
            refine Co.SendsOnly.bind ?_ fun _ => .ret _
            exact Co.SendsOnly.call (S := producerSig) (.sleep delay)

lemma emitLoop_sends {data : String} (hdata : dumpsPayload args.payload = .ok data) :
    ∀ attempt left : ℕ,
      (emitLoop producer args (streamData args.action data rid) attempt left).SendsOnly
        (IsEmission producer rid args)
  | _, 0 => .ret _
  | attempt, left + 1 => by
      refine (emitAttempt_sends producer rid args hdata attempt).bind fun messageId => ?_
      cases messageId with
      | some messageId => exact .ret _
      | none => exact emitLoop_sends hdata (attempt + 1) left

/-- Every entry that `emit` writes has the fields of `stream_data`. -/
lemma emit_sends : (emit producer rid args).SendsOnly (IsEmission producer rid args) := by
  rw [emit]
  cases hdata : dumpsPayload args.payload with
  | error e => exact (Co.SendsOnly.modify _).bind fun _ => .raise _
  | ok data =>
      refine (emitLoop_sends producer rid args hdata 1 _).bind fun messageId => ?_
      cases messageId with
      | none => exact .raise _
      | some messageId =>
          refine Co.SendsOnly.bind ?_ fun _ => .ret _
          rw [logEmitted]
          cases args.target with
          | redisManager => exact .modify _
          | pipe => exact .ret _

end Emission

/-! ## What is read -/

/-- What the two sides rely on: `json.loads` undoes `json.dumps` on what was written, which is
never the empty text, and reads the empty object. -/
structure WireJson (payload : Payload) (rid : String) : Prop where
  payload : LoadsDumps (.obj payload)
  requestId : LoadsDumps (metaJson rid)
  nonempty : StandardLibrary.dumps (metaJson rid) ≠ ""
  empty : StandardLibrary.loads "\x7b\x7d" = .ok (.obj [])

section Reading

variable {payload : Payload} {rid : String} (h : WireJson payload rid) (action : String)
  (client : ClientText)

omit [StandardLibrary] in
lemma keys_action_data (action data : String) :
    (Dict.ofPairs [("action", action), ("data", data)]).items
      = [("action", action), ("data", data)] :=
  Dict.items_ofPairs (by simp)

lemma streamData_items (data : String) : (streamData action data rid).items
    = [("action", action), ("data", data)] ++ (match currentRequestId rid with
        | some requestId => [("meta", StandardLibrary.dumps (metaJson requestId))]
        | none => []) := by
  rw [streamData]
  cases currentRequestId rid with
  | none => rw [keys_action_data, List.append_nil]
  | some requestId =>
      show setItem _ _ (Dict.ofPairs _).items = _
      rw [keys_action_data, setItem_of_notMem (by simp)]

include h

/-- The consumer reads the action and the payload that were emitted. -/
lemma readEnvelope_streamData :
    readEnvelope (client.fields (streamData action (StandardLibrary.dumps (.obj payload)) rid))
      = .ok (streamData action (StandardLibrary.dumps (.obj payload)) rid, action, payload) := by
  have haction : (streamData action (StandardLibrary.dumps (.obj payload)) rid).get? "action"
      = some action := by
    rw [Dict.get?, streamData_items]
    rfl
  have hdata : (streamData action (StandardLibrary.dumps (.obj payload)) rid).get? "data"
      = some (StandardLibrary.dumps (.obj payload)) := by
    rw [Dict.get?, streamData_items]
    rfl
  have hparse : parseEnvelope (streamData action (StandardLibrary.dumps (.obj payload)) rid)
      = .ok (action, payload) := by
    rw [parseEnvelope, haction, hdata]
    dsimp only
    rw [h.payload]
  rw [readEnvelope, normalize_fields]
  show (parseEnvelope _ >>= _ : Except PyException _) = _
  rw [hparse]
  rfl

/-- It reads the request id, if the producer had one. -/
lemma requestIdOf_streamData :
    requestIdOf (client.fields (streamData action (StandardLibrary.dumps (.obj payload)) rid))
      = currentRequestId rid := by
  have hmeta : (streamData action (StandardLibrary.dumps (.obj payload)) rid).get? "meta"
      = (currentRequestId rid).map fun requestId => StandardLibrary.dumps (metaJson requestId) := by
    rw [Dict.get?, streamData_items]
    cases currentRequestId rid with
    | none => rfl
    | some requestId => rfl
  rw [requestIdOf, normalize_fields]
  dsimp only
  rw [hmeta]
  by_cases hrid : isValidRequestId rid = true
  · rw [currentRequestId, if_pos hrid, Option.map_some, Option.getD_some, if_neg h.nonempty,
      h.requestId]
    show (if isValidRequestId rid = true then some rid else none) = some rid
    rw [if_pos hrid]
  · rw [currentRequestId, if_neg hrid, Option.map_none, Option.getD_none, if_pos rfl, h.empty]
    rfl

end Reading

/-! ## How it is handled -/

/-- Some execution of `emit` writes an entry with these fields. -/
def Emits (producer : EventProducer) (rid : String) (args : Emission)
    (fields : Dict String String) : Prop :=
  ∃ s tr q target streamName maxlen, Run (emit producer rid args s) tr q
    ∧ .xadd target streamName fields maxlen ∈ commands tr q

lemma Emits.eq {producer : EventProducer} {rid : String} {args : Emission}
    {fields : Dict String String} (h : Emits producer rid args fields) :
    ∃ data, dumpsPayload args.payload = .ok data ∧ fields = streamData args.action data rid := by
  obtain ⟨s, tr, q, target, streamName, maxlen, hrun, hmem⟩ := h
  cases (emit_sends producer rid args).run hrun _ hmem with
  | xadd data hdata => exact ⟨data, hdata, rfl⟩

/-- `_handle_message` runs in the context of this request id, and calls `process_message` with this
action and this payload. -/
structure HandledAs (cfg : Config) (messageId : EntryId) (fields : Fields) (rid action : String)
    (payload : Payload) : Prop where
  /-- The handling runs under this id. -/
  context : handleMessage cfg messageId fields = handleEntry cfg rid messageId fields
  /-- It makes no other call. -/
  calls : (handleMessage cfg messageId fields).SendsOnly fun (c : Command) =>
    ∀ rid' messageId' action' payload', c = .processMessage rid' messageId' action' payload' →
      rid' = rid ∧ messageId' = messageId ∧ action' = action ∧ payload' = payload
  /-- It makes this call as soon as it gets a slot. -/
  first : 1 ≤ cfg.maxRetries → ∀ s, ∃ s₁ k, handleMessage cfg messageId fields s
    = .await .acquire s₁ k
      ∧ ∀ s₂, (k (.ok ()) s₂).command? = some (.processMessage rid messageId action payload)

/-- Some execution makes the call. -/
lemma HandledAs.exists_call {cfg : Config} {messageId : EntryId} {fields : Fields}
    {rid action : String} {payload : Payload}
    (h : HandledAs cfg messageId fields rid action payload) (hretries : 1 ≤ cfg.maxRetries)
    (s : Self) : ∃ tr q, Run (handleMessage cfg messageId fields s) tr q
      ∧ .processMessage rid messageId action payload ∈ commands tr q := by
  obtain ⟨s₁, k, hawait, hcall⟩ := h.first hretries s
  refine ⟨[⟨Command.acquire, s₁, .ok (), s⟩], k (.ok ()) s, ?_, ?_⟩
  · rw [hawait]
    exact .cons _ _ (.nil _)
  · refine List.mem_append_right _ ?_
    rw [hcall s]
    exact List.mem_singleton_self _

/-- A message with a valid envelope. -/
lemma handledAs_of_read (cfg : Config) (messageId : EntryId) {fields : Fields}
    {normalizedPayload : Dict String String} {action : String} {payload : Payload}
    (hread : readEnvelope fields = .ok (normalizedPayload, action, payload)) :
    HandledAs cfg messageId fields ((requestIdOf fields).getD (toString messageId)) action
      payload where
  context := rfl
  calls := by
    refine (handleMessage_sends cfg messageId action payload hread).mono ?_
    rintro c hc rid' messageId' action' payload' rfl
    cases hc with
    | processMessage => exact ⟨rfl, rfl, rfl, rfl⟩
    | disposal c hc => cases hc
  first := by
    intro hretries s
    obtain ⟨n, hn⟩ := Nat.exists_eq_add_of_le' hretries
    rw [handleMessage, handleEntry, hread]
    simp only [handleEnvelope, hn]
    exact ⟨_, _, rfl, fun _ => rfl⟩

/-- **Producer and consumer agree.**  Whatever `emit` writes is handled as the action and the
payload it was given, under the request id of the producer, or under the id of the entry when the
producer had none. -/
theorem emits_handledAs {producer : EventProducer} {rid : String} {args : Emission}
    {payload : Payload} (hpayload : args.payload = .json payload) (hjson : WireJson payload rid)
    {fields : Dict String String} (hemits : Emits producer rid args fields) (client : ClientText)
    (cfg : Config) (messageId : EntryId) :
    HandledAs cfg messageId (client.fields fields)
      ((currentRequestId rid).getD (toString messageId)) args.action payload := by
  obtain ⟨data, hdata, rfl⟩ := hemits.eq
  rw [hpayload] at hdata
  obtain rfl : StandardLibrary.dumps (.obj payload) = data := Except.ok.inj hdata
  have h := handledAs_of_read cfg messageId (readEnvelope_streamData hjson args.action client)
  rwa [requestIdOf_streamData hjson args.action client] at h

end Atsig
