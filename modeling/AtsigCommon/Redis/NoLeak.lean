import AtsigCommon.Coroutine.Twins
import AtsigCommon.Redis.Consumer

/-!
# What the logs and the dead letters tell of a message

The log lines of a handling, and the `error` of its dead letter, are the same for every two entries
of one envelope class that carry the same `meta`: no value of a payload is in them, and of an
exception only its type, unless a service raises it as a `NonRetryableError`.

* `handlingView` — what may be seen of an exchange.
* `handleMessage_twins`, `deadLetterReclaimed_twins` — the two handlings look the same.
* `handling_leaks_nothing` — so do any two executions of them.
-/

namespace Atsig

open Coroutine Python

/-! ## Envelope classes -/

/-- What is wrong with the envelope of an entry, if anything is. -/
inductive EnvelopeClass
  | valid
  | missingKey
  | notJson
  | notAnObject
  | undecodable
  | unreadable (typeName : String)
  deriving DecidableEq

/-- The reason that is given for the class. -/
def EnvelopeClass.reason : EnvelopeClass → Option String
  | .valid => none
  | .missingKey => some "missing 'action' or 'data'"
  | .notJson => some "'data' is not valid JSON"
  | .notAnObject => some "'data' is not a JSON object"
  | .undecodable => some "unreadable entry (UnicodeDecodeError)"
  | .unreadable typeName => some ("unreadable entry (" ++ typeName ++ ")")

section Classes

variable [StandardLibrary]

/-- The class of an entry. -/
def envelopeClass (rawPayload : Fields) : EnvelopeClass :=
  match normalize rawPayload with
  | .error _ => .undecodable
  | .ok fields =>
      match fields.get? "action", fields.get? "data" with
      | some _, some rawData =>
          match StandardLibrary.loads rawData with
          | .ok (.obj _) => .valid
          | .ok _ => .notAnObject
          | .error e =>
              if e.cls = .typeError || e.isValueError then .notJson else .unreadable e.typeName
      | _, _ => .missingKey

/-- The text of the field `meta`. -/
def metaField (rawPayload : Fields) : Option String :=
  match normalize rawPayload with
  | .error _ => none
  | .ok fields => fields.get? "meta"

omit [StandardLibrary] in
lemma decode_error {t : Text} {e : PyException} (h : decode t = .error e) :
    e = unicodeDecodeError := by
  cases t with
  | str s => cases h
  | bytes b =>
      rw [decode] at h
      split at h
      · cases h
      · injection h with h
        exact h.symm

omit [StandardLibrary] in
/-- An entry that can not be decoded says so, and no more. -/
lemma normalize_error {rawPayload : Fields} {e : PyException}
    (h : normalize rawPayload = .error e) : e = unicodeDecodeError := by
  obtain ⟨p, -, hp⟩ := Dict.comprehend_error h
  cases hk : decode p.1 with
  | error e' =>
      rw [hk] at hp
      cases hp
      exact decode_error hk
  | ok k =>
      cases hv : decode p.2 with
      | error e' =>
          rw [hk, hv] at hp
          cases hp
          exact decode_error hv
      | ok v =>
          rw [hk, hv] at hp
          cases hp

/-- A valid entry is read, and one that is not is rejected for the reason of its class. -/
lemma readEnvelope_cases (rawPayload : Fields) :
    (envelopeClass rawPayload = .valid ∧ ∃ x, readEnvelope rawPayload = .ok x)
      ∨ ∃ e, readEnvelope rawPayload = .error e
          ∧ (envelopeClass rawPayload).reason = some (rejectReason e) := by
  rw [envelopeClass, readEnvelope]
  cases hfields : normalize rawPayload with
  | error e =>
      rw [normalize_error hfields]
      exact .inr ⟨_, rfl, rfl⟩
  | ok fields =>
      show (_ ∧ ∃ x, (parseEnvelope fields >>= _ : Except PyException _) = .ok x)
        ∨ ∃ e, (parseEnvelope fields >>= _ : Except PyException _) = .error e ∧ _
      rw [parseEnvelope]
      dsimp only
      cases haction : fields.get? "action" with
      | none => exact .inr ⟨_, rfl, rfl⟩
      | some action =>
          cases hdata : fields.get? "data" with
          | none => exact .inr ⟨_, rfl, rfl⟩
          | some rawData =>
              dsimp only
              cases StandardLibrary.loads rawData with
              | error e =>
                  dsimp only
                  by_cases he : (e.cls = .typeError || e.isValueError) = true
                  · rw [if_pos he, if_pos he]
                    exact .inr ⟨_, rfl, rfl⟩
                  · rw [if_neg he, if_neg he]
                    refine .inr ⟨e, rfl, ?_⟩
                    have hcls : e.cls ≠ .invalidMessageError := by
                      intro hcls
                      exact he (by simp [PyException.isValueError, hcls])
                    rw [rejectReason, if_neg hcls]
                    rfl
              | ok v =>
                  cases v with
                  | obj payload => exact .inl ⟨rfl, _, rfl⟩
                  | null => exact .inr ⟨_, rfl, rfl⟩
                  | bool b => exact .inr ⟨_, rfl, rfl⟩
                  | num q => exact .inr ⟨_, rfl, rfl⟩
                  | str s => exact .inr ⟨_, rfl, rfl⟩
                  | arr items => exact .inr ⟨_, rfl, rfl⟩

/-- Entries of one class with the same `meta` are handled under the same request id. -/
lemma requestIdOf_eq {rawPayload rawPayload' : Fields}
    (hclass : envelopeClass rawPayload = envelopeClass rawPayload')
    (hmeta : metaField rawPayload = metaField rawPayload') :
    requestIdOf rawPayload = requestIdOf rawPayload' := by
  have hunread : ∀ {raw : Fields} {e : PyException}, normalize raw = .error e →
      envelopeClass raw = .undecodable ∧ requestIdOf raw = none := by
    intro raw e h
    rw [envelopeClass, requestIdOf, h]
    exact ⟨rfl, rfl⟩
  have hread : ∀ {raw : Fields} {fields : Dict String String}, normalize raw = .ok fields →
      envelopeClass raw ≠ .undecodable := by
    intro raw fields h
    rw [envelopeClass, h]
    dsimp only
    split
    · split
      · simp
      · simp
      · split <;> simp
    · simp
  cases h : normalize rawPayload with
  | error e =>
      obtain ⟨hun, hid⟩ := hunread h
      cases h' : normalize rawPayload' with
      | error e' => rw [hid, (hunread h').2]
      | ok fields' => exact absurd (hclass.symm.trans hun) (hread h')
  | ok fields =>
      cases h' : normalize rawPayload' with
      | error e' => exact absurd (hclass.trans (hunread h').1) (hread h)
      | ok fields' =>
          rw [metaField, metaField, h, h'] at hmeta
          rw [requestIdOf, requestIdOf, h, h']
          dsimp only at hmeta ⊢
          rw [hmeta]

end Classes

/-! ## What may be seen -/

/-- Of an exception its type, and the text of a `NonRetryableError`. -/
inductive SeenRaised
  | cancelled
  | exception (cls : ExceptionClass) (typeName : String) (text : Option String)
  deriving DecidableEq

def seenRaised : Raised → SeenRaised
  | .cancelled => .cancelled
  | .exception e =>
      .exception e.cls e.typeName (if e.cls = .nonRetryableError then some e.text else none)

/-- Of a command everything but the payload. -/
inductive SeenCommand
  | processMessage (requestId : String) (messageId : EntryId)
  | xadd (name : String) (originalMessageId : EntryId) (error : Option String)
      (consumerGroup : String) (maxlen : Option ℕ)
  | other (c : Command)

def Command.seen : Command → SeenCommand
  | .processMessage rid messageId _ _ => .processMessage rid messageId
  | .xadd name fields maxlen =>
      .xadd name fields.originalMessageId fields.error fields.consumerGroup maxlen
  | c => .other c

/-- How an await ended. -/
def seenEnd {α : Type} : Except Raised α → Except SeenRaised (Option ConsumerOutcome)
  | .ok _ => .ok none
  | .error e => .error (seenRaised e)

/-- Of an answer what a handler returns, and what is raised. -/
def seenAnswer : (c : Command) → Except Raised c.Answer →
    Except SeenRaised (Option ConsumerOutcome)
  | .processMessage .., r => r.mapError seenRaised
  | _, r => seenEnd r

/-- The same lines have been written. -/
def SameLines (s t s' t' : Self) : Prop :=
  ∃ lines, s'.log = s.log ++ lines ∧ t'.log = t.log ++ lines

lemma SameLines.refl (s t : Self) : SameLines s t s t :=
  ⟨[], (List.append_nil _).symm, (List.append_nil _).symm⟩

lemma SameLines.trans {s t s' t' s'' t'' : Self} (h : SameLines s t s' t')
    (h' : SameLines s' t' s'' t'') : SameLines s t s'' t'' := by
  obtain ⟨lines, hs, ht⟩ := h
  obtain ⟨lines', hs', ht'⟩ := h'
  refine ⟨lines ++ lines', ?_, ?_⟩
  · rw [hs', hs, List.append_assoc]
  · rw [ht', ht, List.append_assoc]

/-- What may be seen of a handling. -/
def handlingView : View consumerSig SeenCommand (Except SeenRaised (Option ConsumerOutcome)) where
  sent := Command.seen
  got := seenAnswer
  raised e e' := seenRaised e = seenRaised e'
  alike := SameLines
  alike_refl := SameLines.refl
  alike_trans := SameLines.trans

/-- Two coroutines of the consumer that look the same and return the same. -/
abbrev Twins {α : Type} (x y : Consumer α) : Prop := Co.Twins handlingView Eq x y

section Rules

variable {α : Type}

lemma ret_twins (a : α) : Twins (Co.ret a) (Co.ret a) := Co.Twins.ret rfl

lemma writeLog_twins (level : Level) (rid text : String) :
    Twins (writeLog level rid text) (writeLog level rid text) :=
  Co.Twins.modify rfl fun _ _ => ⟨_, rfl, rfl⟩

/-- What is seen of an answer without a value decides how the await ends. -/
lemma ends_of_seen {a b : Except Raised Unit} (h : seenEnd a = seenEnd b) :
    handlingView.ends Eq a b := by
  cases a with
  | ok a =>
      cases b with
      | ok b => rfl
      | error e => cases h
  | error e =>
      cases b with
      | ok b => cases h
      | error e' => exact Except.error.inj h

lemma acquire_twins : Twins acquire acquire := Co.Twins.call rfl fun _ _ h => ends_of_seen h

lemma sleep_twins (delay : ℚ) : Twins (sleep delay) (sleep delay) :=
  Co.Twins.call rfl fun _ _ h => ends_of_seen h

lemma xack_twins (cfg : Config) (messageId : EntryId) :
    Twins (xack cfg messageId) (xack cfg messageId) :=
  Co.Twins.call rfl fun _ _ h => ends_of_seen h

/-- The payload of a dead letter is not seen. -/
lemma xadd_twins (name : String) (messageId : EntryId) (payload payload' : String)
    (error : Option String) (group : String) (maxlen : Option ℕ) :
    Twins (send (.xadd name ⟨messageId, payload, error, group⟩ maxlen))
      (send (.xadd name ⟨messageId, payload', error, group⟩ maxlen)) :=
  Co.Twins.call rfl fun _ _ h => ends_of_seen h

/-- Neither is what a handler is given. -/
lemma processMessage_twins (rid : String) (messageId : EntryId) (action action' : String)
    (payload payload' : Payload) :
    Twins (processMessage rid messageId action payload)
      (processMessage rid messageId action' payload') := by
  refine Co.Twins.call rfl fun a b h => ?_
  change Except Raised (Option ConsumerOutcome) at a b
  cases a with
  | ok a =>
      cases b with
      | ok b => exact Except.ok.inj h
      | error e => cases h
  | error e =>
      cases b with
      | ok b => cases h
      | error e' => exact Except.error.inj h

lemma withSlot_twins {x y : Consumer α} (h : Twins x y) : Twins (withSlot x) (withSlot y) :=
  acquire_twins.bind fun _ _ _ => h.finally_ fun _ _ =>
    ⟨[], (List.append_nil _).symm, (List.append_nil _).symm⟩

/-- Handlers of exceptions are given exceptions of one type. -/
lemma exceptException_twins {x y : Consumer α} {f f' : PyException → Consumer α} (h : Twins x y)
    (hf : ∀ e e', e.cls = e'.cls → e.typeName = e'.typeName →
      (e.cls = .nonRetryableError → e.text = e'.text) → Twins (f e) (f' e')) :
    Twins (exceptException x f) (exceptException y f') := by
  refine h.protect fun e e' he => ?_
  change seenRaised e = seenRaised e' at he
  cases e with
  | cancelled =>
      cases e' with
      | cancelled => exact Co.Twins.raise rfl
      | exception e' => cases he
  | exception e =>
      cases e' with
      | cancelled => cases he
      | exception e' =>
          injection he with hcls htype htext
          refine hf e e' hcls htype fun hnon => ?_
          rw [if_pos hnon, if_pos (hcls ▸ hnon)] at htext
          exact Option.some.inj htext

end Rules

/-! ## The two handlings -/

section Handlings

variable [StandardLibrary] (cfg : Config)

lemma sendToDlq_twins (rid : String) (messageId : EntryId) (rawPayload rawPayload' : Dict String Text)
    (errorMsg : Option String) :
    Twins (sendToDlq cfg rid messageId rawPayload errorMsg)
      (sendToDlq cfg rid messageId rawPayload' errorMsg) := by
  refine exceptException_twins ?_ ?_
  · refine (xadd_twins _ messageId _ _ errorMsg _ _).bind fun _ _ _ => ?_
    exact writeLog_twins _ _ _
  · intro e e' hcls htype htext
    rw [htype]
    refine (writeLog_twins _ _ _).bind fun _ _ _ => Co.Twins.raise ?_
    show SeenRaised.exception _ _ _ = SeenRaised.exception _ _ _
    rw [hcls, htype]
    by_cases hnon : e'.cls = .nonRetryableError
    · rw [if_pos hnon, if_pos hnon, htext (hcls.trans hnon)]
    · rw [if_neg hnon, if_neg hnon]

lemma sendToDlq_xack_twins (rid : String) (messageId : EntryId)
    (rawPayload rawPayload' : Dict String Text) (errorMsg : Option String) :
    Twins (do sendToDlq cfg rid messageId rawPayload errorMsg; xack cfg messageId)
      (do sendToDlq cfg rid messageId rawPayload' errorMsg; xack cfg messageId) :=
  (sendToDlq_twins cfg rid messageId _ _ errorMsg).bind fun _ _ _ => xack_twins cfg messageId

omit [StandardLibrary] in
lemma retryPause_twins (attempt : ℕ) :
    Twins (retryPause cfg attempt) (retryPause cfg attempt) := by
  rw [retryPause]
  split
  · exact sleep_twins _
  · exact ret_twins ()

section Attempts

variable (rid : String) (messageId : EntryId) (action action' : String) (payload payload' : Payload)

omit [StandardLibrary] in
lemma attemptBody_twins (attempt : ℕ) :
    Twins (attemptBody cfg rid messageId action payload attempt)
      (attemptBody cfg rid messageId action' payload' attempt) := by
  refine (writeLog_twins _ _ _).bind fun _ _ _ => Co.Twins.bind (withSlot_twins ?_) ?_
  · refine (processMessage_twins rid messageId action action' payload payload').bind ?_
    rintro outcome _ rfl
    exact (xack_twins cfg messageId).bind fun _ _ _ => ret_twins outcome
  · rintro outcome _ rfl
    exact (writeLog_twins _ _ _).bind fun _ _ _ => ret_twins AttemptEnd.acked

omit [StandardLibrary] in
lemma handleAttempt_twins (attempt : ℕ) :
    Twins (handleAttempt cfg rid messageId action payload attempt)
      (handleAttempt cfg rid messageId action' payload' attempt) := by
  refine exceptException_twins (attemptBody_twins cfg rid messageId action action' payload payload'
    attempt) ?_
  intro e e' hcls htype htext
  by_cases hnon : e.cls = .nonRetryableError
  · rw [if_pos hnon, if_pos (hcls ▸ hnon), htext hnon]
    exact (writeLog_twins _ _ _).bind fun _ _ _ => ret_twins _
  · rw [if_neg hnon, if_neg (hcls ▸ hnon), htype]
    refine (writeLog_twins _ _ _).bind fun _ _ _ => ?_
    exact (retryPause_twins cfg attempt).bind fun _ _ _ => ret_twins _

omit [StandardLibrary] in
lemma retryLoop_twins : ∀ (attempt left : ℕ) (lastError : Option String),
    Twins (retryLoop cfg rid messageId action payload attempt left lastError)
      (retryLoop cfg rid messageId action' payload' attempt left lastError)
  | _, 0, lastError => ret_twins _
  | attempt, left + 1, _ => by
      refine (handleAttempt_twins cfg rid messageId action action' payload payload' attempt).bind ?_
      rintro ending _ rfl
      cases ending with
      | acked => exact ret_twins _
      | nonRetryable lastError => exact ret_twins _
      | failed lastError => exact retryLoop_twins (attempt + 1) left (some lastError)

lemma handleEnvelope_twins (normalizedPayload normalizedPayload' : Dict String String) :
    Twins (handleEnvelope cfg rid messageId normalizedPayload action payload)
      (handleEnvelope cfg rid messageId normalizedPayload' action' payload') := by
  refine (retryLoop_twins cfg rid messageId action action' payload payload' 1 cfg.maxRetries
    none).bind ?_
  rintro ending _ rfl
  cases ending with
  | acked => exact ret_twins ()
  | gaveUp lastError skippedRetries =>
      refine (writeLog_twins _ _ _).bind fun _ _ _ => ?_
      exact sendToDlq_xack_twins cfg rid messageId _ _ lastError

end Attempts

/-- Two entries of one envelope class. -/
lemma handleEntry_twins (rid : String) (messageId : EntryId) {rawPayload rawPayload' : Fields}
    (hclass : envelopeClass rawPayload = envelopeClass rawPayload') :
    Twins (handleEntry cfg rid messageId rawPayload) (handleEntry cfg rid messageId rawPayload') := by
  refine exceptException_twins ?_ ?_
  · rcases readEnvelope_cases rawPayload with ⟨hvalid, ⟨n, action, payload⟩, hread⟩
      | ⟨e, hread, hreason⟩
    · rcases readEnvelope_cases rawPayload' with ⟨-, ⟨n', action', payload'⟩, hread'⟩
        | ⟨e', hread', hreason'⟩
      · rw [hread, hread']
        exact handleEnvelope_twins cfg rid messageId action action' payload payload' n n'
      · rw [← hclass, hvalid] at hreason'
        cases hreason'
    · rcases readEnvelope_cases rawPayload' with ⟨hvalid', -⟩ | ⟨e', hread', hreason'⟩
      · rw [hclass, hvalid'] at hreason
        cases hreason
      · have hsame : rejectReason e = rejectReason e' := by
          rw [← hclass, hreason] at hreason'
          exact Option.some.inj hreason'
        rw [hread, hread']
        dsimp only
        rw [rejectInvalidMessage, rejectInvalidMessage, hsame]
        refine (writeLog_twins _ _ _).bind fun _ _ _ => ?_
        exact sendToDlq_xack_twins cfg rid messageId _ _ _
  · intro e e' _ htype _
    rw [htype]
    exact writeLog_twins _ _ _

lemma handleMessage_twins (messageId : EntryId) {rawPayload rawPayload' : Fields}
    (hclass : envelopeClass rawPayload = envelopeClass rawPayload')
    (hmeta : metaField rawPayload = metaField rawPayload') :
    Twins (handleMessage cfg messageId rawPayload) (handleMessage cfg messageId rawPayload') := by
  rw [handleMessage, handleMessage, requestIdOf_eq hclass hmeta]
  exact handleEntry_twins cfg _ messageId hclass

lemma deadLetterReclaimed_twins (rid : String) (messageId : EntryId) (fields fields' : Fields)
    (deliveries : ℕ) :
    Twins (deadLetterReclaimed cfg rid messageId fields deliveries)
      (deadLetterReclaimed cfg rid messageId fields' deliveries) :=
  (writeLog_twins _ _ _).bind fun _ _ _ => sendToDlq_xack_twins cfg rid messageId _ _ _

end Handlings

/-! ## Executions -/

/-- Two handlings of entries that may be told apart by the values of their payloads only. -/
inductive Comparable [StandardLibrary] : Job → Job → Prop
  | message (messageId : EntryId) (rawPayload rawPayload' : Fields)
      (hclass : envelopeClass rawPayload = envelopeClass rawPayload')
      (hmeta : metaField rawPayload = metaField rawPayload') :
      Comparable (.handleMessage messageId rawPayload) (.handleMessage messageId rawPayload')
  | reclaimed (messageId : EntryId) (fields fields' : Fields) (deliveries : ℕ) :
      Comparable (.deadLetterReclaimed messageId fields deliveries)
        (.deadLetterReclaimed messageId fields' deliveries)

lemma Comparable.twins [StandardLibrary] (cfg : Config) {job job' : Job} (h : Comparable job job') :
    Twins (job.start cfg) (job'.start cfg) := by
  cases h with
  | message messageId rawPayload rawPayload' hclass hmeta =>
      exact handleMessage_twins cfg messageId hclass hmeta
  | reclaimed messageId fields fields' deliveries =>
      exact deadLetterReclaimed_twins cfg _ messageId fields fields' deliveries

/-- What has been written between two states. -/
def newLines (s s' : Self) : List LogLine := s'.log.drop s.log.length

/-- The lines that an execution has written, the state it started in given. -/
def loggedLines {α : Type} (s : Self) (tr : List (Exchange consumerSig))
    (q : Program consumerSig α) : List LogLine :=
  (spans s tr q).flatMap fun span => newLines span.1 span.2

/-- The `error` of a command that writes a dead letter. -/
def SeenCommand.error? : SeenCommand → Option (Option String)
  | .xadd _ _ error _ _ => some error
  | _ => none

/-- The `error` of the dead letters that an execution has sent. -/
def deadLetterErrors {α : Type} (tr : List (Exchange consumerSig)) (q : Program consumerSig α) :
    List (Option String) :=
  (commands tr q).filterMap fun
    | .xadd _ fields _ => some fields.error
    | _ => none

lemma deadLetterErrors_eq {α : Type} (tr : List (Exchange consumerSig))
    (q : Program consumerSig α) :
    deadLetterErrors tr q = ((commands tr q).map Command.seen).filterMap SeenCommand.error? := by
  rw [deadLetterErrors, List.filterMap_map]
  congr 1
  funext c
  cases c <;> rfl

lemma SameLines.newLines {s t s' t' : Self} (h : SameLines s t s' t') :
    newLines s s' = newLines t t' := by
  obtain ⟨lines, hs, ht⟩ := h
  rw [Atsig.newLines, Atsig.newLines, hs, ht, List.drop_left, List.drop_left]

/-- Where the same was done everywhere, the same was written. -/
lemma lines_eq {spans spans' : List (Self × Self)}
    (h : List.Forall₂ (fun a b => SameLines a.1 b.1 a.2 b.2) spans spans') :
    spans.flatMap (fun span => newLines span.1 span.2)
      = spans'.flatMap fun span => newLines span.1 span.2 := by
  induction h with
  | nil => rfl
  | cons hspan h ih => rw [List.flatMap_cons, List.flatMap_cons, hspan.newLines, ih]

/-- **Logs and dead letters tell no values.**  Two executions whose entries are of one envelope
class and carry the same `meta`, and whose awaits end alike, write the same log lines and the same
`error`: whatever the payloads are, and whatever the texts of the exceptions, those of
`NonRetryableError` apart. -/
theorem handling_leaks_nothing [StandardLibrary] (cfg : Config) {job job' : Job}
    (hjobs : Comparable job job') {s s' : Self} {tr tr' : List (Exchange consumerSig)}
    {q q' : Program consumerSig Unit} (hrun : Run (job.start cfg s) tr q)
    (hrun' : Run (job'.start cfg s') tr' q')
    (hanswers : tr.map (fun x => seenAnswer x.command x.answer)
      = tr'.map fun x => seenAnswer x.command x.answer) :
    loggedLines s tr q = loggedLines s' tr' q'
      ∧ deadLetterErrors tr q = deadLetterErrors tr' q' := by
  obtain ⟨hsent, hspans⟩ := (hjobs.twins cfg s s').run hrun hrun' hanswers
  refine ⟨lines_eq hspans, ?_⟩
  rw [deadLetterErrors_eq, deadLetterErrors_eq]
  exact congrArg (List.filterMap SeenCommand.error?) hsent

section Emails

/-- A payload with the email of a user. -/
def emailPayload (email : String) : Json := .obj [("email", .str email)]

/-- An entry with it. -/
def emailFields (email : String) : Fields :=
  Dict.ofPairs [(.str "action", .str "ping"),
    (.str "data", .str (plainLibrary.dumps (emailPayload email)))]

/-- The error of the handler names the email. -/
def emailTaken (email : String) : PyException := ⟨.valueError, "ValueError", email ++ " is taken"⟩

/-- One attempt is made. -/
def onceConfig : Config := { soloConfig with maxRetries := 1 }

@[reducible] def emailLibrary : StandardLibrary :=
  readingLibrary [emailPayload "anna@mail", emailPayload "kostas@mail"]

attribute [local instance] emailLibrary

/-- The handler fails, and the entry is dead-lettered and acknowledged. -/
def emailTrace (email : String) (payload : Payload) (letter : DlqFields) (s s₁ s₂ s₃ s₄ : Self) :
    List (Exchange consumerSig) :=
  [⟨Command.acquire, s₁, .ok (), s⟩,
    ⟨Command.processMessage "1-0" ⟨1, 0⟩ "ping" payload, s₂,
      .error (Raised.exception (emailTaken email)), s⟩,
    ⟨Command.xadd "events_dlq" letter none, s₃, .ok (), s⟩,
    ⟨Command.xack "events" "users" ⟨1, 0⟩, s₄, .ok (), s⟩]

lemma email_run (email : String) {fields : Dict String String} {payload : Payload}
    (hread : readEnvelope (emailFields email) = .ok (fields, "ping", payload))
    (hmeta : requestIdOf (emailFields email) = none) (s : Self) :
    ∃ letter s₁ s₂ s₃ s₄ s', Run (handleMessage onceConfig ⟨1, 0⟩ (emailFields email) s)
        (emailTrace email payload letter s s₁ s₂ s₃ s₄) (.done (.ok ()) s')
      ∧ letter.error = some "ValueError" := by
  rw [handleMessage, handleEntry, hread, hmeta]
  exact ⟨_, _, _, _, _, _, .cons _ _ (.cons _ _ (.cons _ _ (.cons _ _ (.nil _)))), rfl⟩

/-- Two users whose emails are taken: the logs and the dead letters are the same. -/
theorem handling_leaks_nothing_failed :
    ∃ (s : Self) (tr tr' : List (Exchange consumerSig)) (q q' : Program consumerSig Unit),
      Run (handleMessage onceConfig ⟨1, 0⟩ (emailFields "anna@mail") s) tr q
        ∧ Run (handleMessage onceConfig ⟨1, 0⟩ (emailFields "kostas@mail") s) tr' q'
        ∧ tr.length = 4 ∧ loggedLines s tr q = loggedLines s tr' q'
        ∧ deadLetterErrors tr q = [some "ValueError"]
        ∧ deadLetterErrors tr' q' = [some "ValueError"] := by
  let s := Self.init onceConfig 0
  obtain ⟨letter, s₁, s₂, s₃, s₄, left, hrun, herror⟩ := email_run "anna@mail"
    (by with_unfolding_all rfl) (by with_unfolding_all rfl) s
  obtain ⟨letter', s₁', s₂', s₃', s₄', left', hrun', -⟩ := email_run "kostas@mail"
    (by with_unfolding_all rfl) (by with_unfolding_all rfl) s
  obtain ⟨hlines, herrors⟩ := handling_leaks_nothing onceConfig
    (.message ⟨1, 0⟩ (emailFields "anna@mail") (emailFields "kostas@mail")
      (by with_unfolding_all rfl) (by with_unfolding_all rfl)) hrun hrun' rfl
  have hone := congrArg (fun error => [error]) herror
  exact ⟨s, _, _, _, _, hrun, hrun', rfl, hlines, hone, herrors.symm.trans hone⟩

end Emails

end Atsig
