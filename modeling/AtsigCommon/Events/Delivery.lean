import AtsigCommon.Events.Schemas
import AtsigCommon.Redis.Integrity

/-!
# Events from service to service

A service sends an event as the payload of `to_payload`; another gets the payload in
`process_message` and validates it with the same class.  In between are the producer, the stream
and any number of consumers that fail, retry, die and take over from each other.

* `Sent` — an entry that carries an event of one of the classes.
* `events_delivered` — what is validated is the event that was sent.
-/

namespace Atsig

open Coroutine Python Schema EventPayload

section Delivery

variable [FloatText] [Scalars] [LawfulScalars]

attribute [local instance] jsonLibrary

/-- Fields that `emit` wrote for an event. -/
def Sent (client : ClientText) (fields : Fields) : Prop :=
  ∃ cls ∈ eventClasses, ∃ (event : Record cls.fields) (entry : Dict String String)
    (rid action : String), EmittedAs client entry rid action (toPayload cls event).items fields

/-- A payload that is read as the event, in which there is no other key. -/
structure Carries (cls : RecordClass) (event : Record cls.fields) (payload : Payload) : Prop where
  payload_eq : payload = (toPayload cls event).items
  validated : modelValidate cls (.obj payload) = some event
  expected : unexpectedKeys cls (toPayload cls event) = []

omit [FloatText] in
lemma carries_toPayload {cls : RecordClass} (hcls : cls ∈ eventClasses)
    (event : Record cls.fields) : Carries cls event (toPayload cls event).items := by
  have hlawful := eventClasses_lawful cls hcls
  exact ⟨rfl, readFields_dumpFields cls event, unexpectedKeys_toPayload cls event⟩

omit [FloatText] [Scalars] [LawfulScalars] in
/-- A payload carries one event of a class. -/
lemma Carries.unique {cls : RecordClass} {event event' : Record cls.fields} {payload : Payload}
    (h : Carries cls event payload) (h' : Carries cls event' payload) : event = event' :=
  Option.some.inj (h.validated.symm.trans h'.validated)

variable {ι : Type} [DecidableEq ι]

/-- **Events are delivered as they were sent.**  In a run in which the stream has held only events,
every call of `process_message` gets a payload that its class validates to an event that was sent,
under the action and the request id with which it was sent; no other event of this class has this
payload. -/
theorem events_delivered (d : Deployment ι) (replies : Replies) (client : ClientText)
    (held : Entries) (sys : System ι) (hrun : System.History d replies held sys)
    (hsent : ∀ m ∈ held, Sent client m.2) {rid : String} {messageId : EntryId} {action : String}
    {payload : Payload} (hcalls : sys.Calls rid messageId action payload) :
    ∃ cls ∈ eventClasses, ∃ event : Record cls.fields, Carries cls event payload
      ∧ (∀ event', Carries cls event' payload → event' = event)
      ∧ ∃ entry origin, (messageId, client.fields entry) ∈ held
        ∧ EmittedAs client entry origin action (toPayload cls event).items (client.fields entry)
        ∧ rid = (currentRequestId origin).getD (toString messageId) := by
  have hemitted : ∀ m ∈ held, ∃ entry rid action payload,
      EmittedAs client entry rid action payload m.2 := by
    intro m hm
    obtain ⟨cls, -, event, entry, rid, action, h⟩ := hsent m hm
    exact ⟨entry, rid, action, _, h⟩
  obtain ⟨entry, origin, hmem, hentry, hrid⟩ := hrun.call_emitted hemitted hcalls
  obtain ⟨cls, hcls, event, entry', origin', action', h⟩ := hsent _ hmem
  -- the entry was emitted for this event
  have hread := hentry.reads.1
  rw [h.reads.1] at hread
  injection hread with hread
  injection hread with _ hread
  injection hread with _ hpayload
  subst hpayload
  have hcarries := carries_toPayload hcls event
  exact ⟨cls, hcls, event, hcarries, fun event' h' => h'.unique hcarries, entry, origin, hmem,
    hentry, hrid⟩

end Delivery

section User

attribute [local instance] integerText jsonLibrary textScalars

/-- A deleted user. -/
def deleteEvent : Record userDeleteEvent.fields := ("u1", ())

/-- The event of a deleted user arrives. -/
theorem events_delivered_user : ∃ held sys,
    System.History solo (fun _ _ _ => True) held sys
      ∧ ∃ cls ∈ eventClasses, ∃ event : Record cls.fields,
        Carries cls event (toPayload userDeleteEvent deleteEvent).items := by
  have hplain : (Json.obj (toPayload userDeleteEvent deleteEvent).items).Plain :=
    plain_texts [("uuid", "u1")] (List.nodup_singleton _)
  have hentry := emittedAs_streamData hplain "abc" "user.deleted"
  obtain ⟨held, sys, hrun, hcalls, hheld⟩ := exists_history hentry
  have hmem : userDeleteEvent ∈ eventClasses :=
    List.mem_cons_of_mem _ (List.mem_cons_of_mem _ (List.mem_cons_self ..))
  obtain ⟨cls, hcls, event, hcarries, -⟩ :=
    events_delivered solo _ .str held sys hrun
      (fun m hm => ⟨userDeleteEvent, hmem, deleteEvent, _, _, _, hheld m hm ▸ hentry⟩) hcalls
  exact ⟨held, sys, hrun, cls, hcls, event, hcarries⟩

end User

end Atsig
