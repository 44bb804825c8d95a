import AtsigCommon.Redis.Group

/-!
# When a handled message is handled again

`_handle_entry` sends the `XACK` inside the `try` block of the retry loop, so a failure of the
`XACK` is treated as a failure of `process_message`: the message is processed again, or goes to
the dead letter queue.

`AckPhase` follows one call of `_handle_message` through its exchanges.  The call obeys it
(`handleMessage_phase`), and a call that returns is never in the middle of it, so what the call
did is read off the last phase: `handled_once_iff`.
-/

namespace Atsig

open Coroutine Python

/-- How far a call of `_handle_message` is with its message. -/
inductive AckPhase
  /-- `process_message` has not returned normally. -/
  | fresh
  /-- It has, and nothing was awaited since. -/
  | handled
  /-- The await after it did not fail. -/
  | acked
  /-- The await after it failed. -/
  | failed
  /-- Then `process_message` was called again, or the dead letter queue was written. -/
  | replayed
  deriving DecidableEq

/-- What must not happen to a message that was handled. -/
def Command.isReplay : Command → Bool
  | .processMessage .. | .xadd .. => true
  | _ => false

namespace AckPhase

def next : AckPhase → (c : Command) → Except Raised c.Answer → AckPhase
  | .fresh, .processMessage .., .ok _ => .handled
  | .fresh, _, _ => .fresh
  | .handled, _, .error (.exception _) => .failed
  | .handled, _, _ => .acked
  | .acked, _, _ => .acked
  | .failed, c, _ => if c.isReplay then .replayed else .failed
  | .replayed, _, _ => .replayed

/-- A handled message is ACKed, and that is all. -/
def Allowed : AckPhase → Command → Prop
  | .handled, c => ∃ name groupname e, c = .xack name groupname e
  | .acked, _ => False
  | _, _ => True

/-- The phases in which an attempt can start. -/
def Open (g : AckPhase) : Prop := g ≠ .handled ∧ g ≠ .acked

end AckPhase

/-- The monitor of a call of `_handle_message`. -/
def ackMonitor : Contract consumerSig AckPhase :=
  .monitor AckPhase.Allowed Command.Possible AckPhase.next

/-! ## The call obeys the phases -/

section Phases

variable {α : Type} {φ : α → AckPhase → Self → Prop} {ψ : Raised → AckPhase → Self → Prop}
  {g : AckPhase} {s : Self}

/-- The rule of the await for this monitor. -/
lemma send_phase {c : Command} {φ : c.Answer → AckPhase → Self → Prop} (hc : g.Allowed c)
    (hok : ∀ a s, φ a (g.next c (.ok a)) s)
    (herr : ∀ e s, c.Possible (.error e) → ψ e (g.next c (.error e)) s) :
    (send c).wp ackMonitor φ ψ g s := by
  refine send_wp hc (fun a g' s' henv => ?_) (fun e g' s' henv => ?_)
  · obtain ⟨-, rfl⟩ := henv
    exact hok a s'
  · obtain ⟨hpossible, rfl⟩ := henv
    exact herr e s' hpossible

lemma AckPhase.Open.allowed (hg : g.Open) (c : Command) : g.Allowed c := by
  cases g with
  | handled => exact absurd rfl hg.1
  | acked => exact absurd rfl hg.2
  | fresh | failed | replayed => trivial

/-- What is no replay changes nothing in an open phase. -/
lemma AckPhase.Open.next_eq (hg : g.Open) {c : Command} (hc : c.isReplay = false)
    (r : Except Raised c.Answer) : g.next c r = g := by
  cases g with
  | handled => exact absurd rfl hg.1
  | acked => exact absurd rfl hg.2
  | replayed => rfl
  | failed => simp [AckPhase.next, hc]
  | fresh =>
      cases c with
      | processMessage rid e action payload => cases hc
      | xgroupCreate | xreadgroup | xautoclaim | xpendingRange | xadd | xack | acquire | sleep
      | gather => rfl

/-- A call of `process_message` in an open phase: the message is handled now, or the phase is
open still. -/
lemma AckPhase.Open.next_process (hg : g.Open) (rid : String) (e : EntryId) (action : String)
    (payload : Payload) (r : Except Raised (Option ConsumerOutcome)) :
    (∃ a, r = .ok a ∧ g.next (.processMessage rid e action payload) r = .handled)
      ∨ g.next (.processMessage rid e action payload) r = .replayed
      ∨ (∃ err, r = .error err) ∧ (g.next (.processMessage rid e action payload) r).Open := by
  cases g with
  | handled => exact absurd rfl hg.1
  | acked => exact absurd rfl hg.2
  | failed => exact Or.inr (Or.inl rfl)
  | replayed => exact Or.inr (Or.inl rfl)
  | fresh =>
      cases r with
      | ok a => exact Or.inl ⟨a, rfl, rfl⟩
      | error err => exact Or.inr (Or.inr ⟨⟨err, rfl⟩, nofun, nofun⟩)

/-- The end of a handled message: ACKed without a failure, or a replay. -/
def AckPhase.Settled (g : AckPhase) : Prop := g = .acked ∨ g = .replayed

variable (cfg : Config)

/-- The `XACK` after `process_message`. -/
lemma xack_phase (e : EntryId) (hg : g = .handled ∨ g = .replayed) :
    (xack cfg e).wp ackMonitor (fun _ g _ => g.Settled)
      (fun e g _ => e = .cancelled ∨ g.Open) g s := by
  refine send_phase ?_ (fun _ _ => ?_) (fun err _ _ => ?_)
  · rcases hg with rfl | rfl
    · exact ⟨_, _, _, rfl⟩
    · trivial
  · rcases hg with rfl | rfl
    · exact Or.inl rfl
    · exact Or.inr rfl
  · cases err with
    | cancelled => exact Or.inl rfl
    | exception err =>
        rcases hg with rfl | rfl
        · exact Or.inr ⟨nofun, nofun⟩
        · exact Or.inr ⟨nofun, nofun⟩

/-- An attempt that ends normally has settled the message; one that raises can be repeated. -/
lemma attemptBody_phase (rid : String) (messageId : EntryId) (action : String)
    (payload : Payload) (attempt : ℕ) (hg : g.Open) :
    (attemptBody cfg rid messageId action payload attempt).wp ackMonitor
      (fun r g _ => r = .acked ∧ g.Settled) (fun e g _ => e = .cancelled ∨ g.Open) g s := by
  simp only [attemptBody, Co.wp_bind, wp_writeLog, wp_withSlot, Co.wp_pure]
  refine ⟨hg.allowed _, fun _ g' s' henv => ?_, fun err g' s' henv => ?_⟩
  · obtain ⟨-, rfl⟩ := henv
    rw [hg.next_eq rfl]
    refine send_phase (hg.allowed _) (fun a s' => ?_) (fun err s' _ => ?_)
    · refine Co.wp_mono (xack_phase cfg messageId ?_) (fun _ _ _ h => ⟨trivial, h⟩)
        (fun _ _ _ h => h)
      rcases hg.next_process rid messageId action payload (.ok a) with ⟨_, -, h⟩ | h | ⟨⟨_, h⟩, -⟩
      · exact Or.inl h
      · exact Or.inr h
      · cases h
    · rcases hg.next_process rid messageId action payload (.error err)
        with ⟨_, h, -⟩ | h | ⟨-, h⟩
      · cases h
      · exact Or.inr (h ▸ ⟨nofun, nofun⟩)
      · exact Or.inr h
  · obtain ⟨-, rfl⟩ := henv
    rw [hg.next_eq rfl]
    exact Or.inr hg

/-- One pass of the retry loop settles the message or leaves the phase open. -/
lemma handleAttempt_phase (rid : String) (messageId : EntryId) (action : String)
    (payload : Payload) (attempt : ℕ) (hg : g.Open) :
    (handleAttempt cfg rid messageId action payload attempt).wp ackMonitor
      (fun r g _ => r = .acked ∧ g.Settled ∨ r ≠ .acked ∧ g.Open)
      (fun e _ _ => e = .cancelled) g s := by
  rw [handleAttempt, wp_exceptException]
  refine Co.wp_mono (attemptBody_phase cfg rid messageId action payload attempt hg)
    (fun _ _ _ h => Or.inl h) (fun e g' s' h => ?_)
  cases e with
  | cancelled => rfl
  | exception e =>
      have hopen : g'.Open := h.resolve_left nofun
      dsimp only
      split
      · exact Or.inr ⟨nofun, hopen⟩
      · simp only [Co.wp_bind, wp_writeLog, retryPause]
        split
        · refine send_phase (hopen.allowed _) (fun _ _ => ?_) (fun err _ hpossible => ?_)
          · rw [hopen.next_eq rfl]
            exact Or.inr ⟨nofun, hopen⟩
          · -- only a cancellation interrupts the pause
            cases err with
            | cancelled => rfl
            | exception err => cases hpossible err rfl
        · exact Or.inr ⟨nofun, hopen⟩

lemma retryLoop_phase (rid : String) (messageId : EntryId) (action : String)
    (payload : Payload) : ∀ (left attempt : ℕ) (lastError : Option String) {g : AckPhase}
    {s : Self}, g.Open →
    (retryLoop cfg rid messageId action payload attempt left lastError).wp ackMonitor
      (fun r g _ => r = .acked ∧ g.Settled ∨ r ≠ .acked ∧ g.Open)
      (fun e _ _ => e = .cancelled) g s
  | 0, _, _, _, _, hg => Or.inr ⟨nofun, hg⟩
  | left + 1, attempt, _, g, s, hg => by
      rw [retryLoop, Co.wp_bind]
      refine Co.wp_mono (handleAttempt_phase cfg rid messageId action payload attempt hg)
        (fun r g' s' h => ?_) (fun _ _ _ h => h)
      rcases h with ⟨rfl, hsettled⟩ | ⟨hr, hopen⟩
      · exact Or.inl ⟨rfl, hsettled⟩
      · cases r with
        | acked => exact absurd rfl hr
        | nonRetryable lastError => exact Or.inr ⟨nofun, hopen⟩
        | failed lastError => exact retryLoop_phase rid messageId action payload left _ _ hopen

/-- The call can return in these phases. -/
def AckPhase.Closed (g : AckPhase) : Prop := g ≠ .handled ∧ g ≠ .failed

lemma AckPhase.Settled.closed (h : g.Settled) : g.Closed := by
  rcases h with rfl | rfl
  · exact ⟨nofun, nofun⟩
  · exact ⟨nofun, nofun⟩

/-- Writing to the dead letter queue leaves no failed `XACK` behind unanswered. -/
lemma AckPhase.Open.next_xadd (hg : g.Open) (name : String) (fields : DlqFields)
    (maxlen : Option ℕ) (r : Except Raised Unit) :
    (g.next (.xadd name fields maxlen) r).Open ∧ (g.next (.xadd name fields maxlen) r).Closed := by
  cases g with
  | handled => exact absurd rfl hg.1
  | acked => exact absurd rfl hg.2
  | fresh => exact ⟨⟨nofun, nofun⟩, nofun, nofun⟩
  | failed => exact ⟨⟨nofun, nofun⟩, nofun, nofun⟩
  | replayed => exact ⟨⟨nofun, nofun⟩, nofun, nofun⟩

variable [StandardLibrary]

/-- The write to the dead letter queue and the `XACK` after it. -/
lemma sendToDlq_xack_phase (rid : String) (messageId : EntryId) (rawPayload : Dict String Text)
    (errorMsg : Option String) (hg : g.Open) :
    (do sendToDlq cfg rid messageId rawPayload errorMsg
        xack cfg messageId : Consumer Unit).wp ackMonitor (fun _ g _ => g.Closed)
      (fun e g _ => e = .cancelled ∨ g.Closed) g s := by
  simp only [Co.wp_bind, sendToDlq, wp_exceptException, wp_writeLog, Co.wp_raise]
  refine send_phase (hg.allowed _) (fun a s' => ?_) (fun err s' _ => ?_)
  · obtain ⟨hopen, hclosed⟩ := hg.next_xadd _ _ cfg.dlqMaxlen (.ok a)
    refine send_phase (hopen.allowed _) (fun _ _ => ?_) (fun _ _ _ => Or.inr ?_)
    · rw [hopen.next_eq rfl]
      exact hclosed
    · rw [hopen.next_eq rfl]
      exact hclosed
  · cases err with
    | cancelled => exact Or.inl trivial
    | exception err => exact Or.inr (hg.next_xadd _ _ cfg.dlqMaxlen _).2

lemma handleEnvelope_phase (rid : String) (messageId : EntryId)
    (normalizedPayload : Dict String String) (action : String) (payload : Payload) :
    (handleEnvelope cfg rid messageId normalizedPayload action payload).wp ackMonitor
      (fun _ g _ => g.Closed) (fun e g _ => e = .cancelled ∨ g.Closed) .fresh s := by
  rw [handleEnvelope, Co.wp_bind]
  refine Co.wp_mono (retryLoop_phase cfg rid messageId action payload _ _ _ ⟨nofun, nofun⟩)
    (fun r g' s' h => ?_) (fun _ _ _ h => Or.inl h)
  rcases h with ⟨rfl, hsettled⟩ | ⟨hr, hopen⟩
  · exact hsettled.closed
  · cases r with
    | acked => exact absurd rfl hr
    | gaveUp lastError skippedRetries =>
        dsimp only
        rw [Co.wp_bind, wp_writeLog]
        exact sendToDlq_xack_phase cfg rid messageId _ lastError hopen

/-- **A call of `_handle_message` obeys the phases**, and returns only in a closed one. -/
theorem handleMessage_phase (messageId : EntryId) (rawPayload : Fields) :
    (handleMessage cfg messageId rawPayload).wp ackMonitor (fun _ g _ => g.Closed)
      (fun e _ _ => e = .cancelled) .fresh s := by
  rw [handleMessage, handleEntry, wp_exceptException]
  refine Co.wp_mono (φ := fun _ g _ => g.Closed) (ψ := fun e g _ => e = Raised.cancelled ∨ g.Closed)
    ?_ (fun _ _ _ h => h) (fun e g' s' h => ?_)
  · cases readEnvelope rawPayload with
    | error e =>
        dsimp only
        rw [rejectInvalidMessage, Co.wp_bind, wp_writeLog]
        exact sendToDlq_xack_phase cfg _ messageId _ _ ⟨nofun, nofun⟩
    | ok envelope =>
        obtain ⟨normalizedPayload, action, payload⟩ := envelope
        exact handleEnvelope_phase cfg _ messageId normalizedPayload action payload
  · cases e with
    | cancelled => rfl
    | exception e => exact h.resolve_left nofun

end Phases

/-! ## What the phases say about an execution -/

/-- A call of `process_message` that returned normally. -/
def Succeeded (x : Exchange consumerSig) : Prop :=
  match x with
  | ⟨.processMessage .., _, .ok _, _⟩ => True
  | _ => False

/-- No `process_message` and no `XADD` after `process_message` returned normally. -/
def HandledOnce (tr : List (Exchange consumerSig)) : Prop :=
  tr.Pairwise fun x y => Succeeded x → y.command.isReplay = false

/-- The await that follows a `process_message` that returned normally does not fail. -/
def AcksSucceed (tr : List (Exchange consumerSig)) : Prop :=
  tr.IsChain fun x y => Succeeded x → ¬ Failed y

section Traces

variable {x y : Exchange consumerSig} {tr : List (Exchange consumerSig)}

lemma Succeeded.next_fresh (h : Succeeded x) :
    AckPhase.fresh.next x.command x.answer = .handled := by
  obtain ⟨c, s, r, s'⟩ := x
  cases c with
  | processMessage rid e action payload =>
      cases r with
      | ok a => rfl
      | error err => cases h
  | xgroupCreate | xreadgroup | xautoclaim | xpendingRange | xadd | xack | acquire | sleep
  | gather => cases h

lemma next_fresh_of_not_succeeded (h : ¬ Succeeded x) :
    AckPhase.fresh.next x.command x.answer = .fresh := by
  obtain ⟨c, s, r, s'⟩ := x
  cases c with
  | processMessage rid e action payload =>
      cases r with
      | ok a => exact absurd trivial h
      | error err => rfl
  | xgroupCreate | xreadgroup | xautoclaim | xpendingRange | xadd | xack | acquire | sleep
  | gather => rfl

lemma Failed.next_handled (h : Failed x) : AckPhase.handled.next x.command x.answer = .failed := by
  obtain ⟨e, he⟩ := h
  rw [he]
  rfl

lemma next_handled_of_not_failed (h : ¬ Failed x) :
    AckPhase.handled.next x.command x.answer = .acked := by
  obtain ⟨c, s, r, s'⟩ := x
  match r with
  | .ok a => rfl
  | .error .cancelled => rfl
  | .error (.exception e) => exact absurd ⟨e, rfl⟩ h

lemma watch_replayed : ∀ tr : List (Exchange consumerSig),
    watch AckPhase.next .replayed tr = .replayed
  | [] => rfl
  | _ :: tr => watch_replayed tr

/-- After a failed `XACK` the last phase tells whether anything was replayed. -/
lemma watch_failed (tr : List (Exchange consumerSig)) :
    (watch AckPhase.next .failed tr = .failed ∧ ∀ y ∈ tr, y.command.isReplay = false)
      ∨ (watch AckPhase.next .failed tr = .replayed ∧ ∃ y ∈ tr, y.command.isReplay = true) := by
  induction tr with
  | nil => exact Or.inl ⟨rfl, by simp⟩
  | cons x tr ih =>
      rw [watch_cons]
      cases hx : x.command.isReplay with
      | true =>
          have hnext : AckPhase.failed.next x.command x.answer = .replayed := by
            simp [AckPhase.next, hx]
          rw [hnext, watch_replayed]
          exact Or.inr ⟨rfl, x, List.mem_cons_self .., hx⟩
      | false =>
          have hnext : AckPhase.failed.next x.command x.answer = .failed := by
            simp [AckPhase.next, hx]
          rw [hnext]
          rcases ih with ⟨hw, hall⟩ | ⟨hw, z, hz, hzr⟩
          · refine Or.inl ⟨hw, fun z hz => ?_⟩
            rcases List.mem_cons.mp hz with rfl | hz
            · exact hx
            · exact hall z hz
          · exact Or.inr ⟨hw, z, List.mem_cons_of_mem _ hz, hzr⟩

/-- Nothing is sent once a message is ACKed. -/
lemma obeys_acked (h : Obeys AckPhase.Allowed AckPhase.next .acked tr) : tr = [] := by
  cases tr with
  | nil => rfl
  | cons x tr => cases h.1

/-- What follows a handled message: nothing yet, an `XACK` and nothing more, or an `XACK` that
failed and whatever the last phase tells. -/
lemma obeys_handled (h : Obeys AckPhase.Allowed AckPhase.next .handled tr) :
    tr = []
      ∨ (∃ y, tr = [y] ∧ ¬ Failed y ∧ y.command.isReplay = false)
      ∨ ∃ y tr', tr = y :: tr' ∧ Failed y ∧ y.command.isReplay = false
          ∧ watch AckPhase.next .handled tr = watch AckPhase.next .failed tr' := by
  cases tr with
  | nil => exact Or.inl rfl
  | cons y tr' =>
      have hxack : y.command.isReplay = false := by
        obtain ⟨name, groupname, e, hc⟩ := h.1
        rw [hc]
        rfl
      by_cases hfailed : Failed y
      · exact Or.inr (Or.inr ⟨y, tr', rfl, hfailed, hxack, by rw [watch_cons, hfailed.next_handled]⟩)
      · have hrest := h.2
        rw [next_handled_of_not_failed hfailed] at hrest
        obtain rfl := obeys_acked hrest
        exact Or.inr (Or.inl ⟨y, rfl, hfailed, hxack⟩)

/-- Where nothing is replayed, the rest is handled once. -/
lemma handledOnce_of_no_replay (h : ∀ y ∈ tr, y.command.isReplay = false) : HandledOnce tr :=
  List.pairwise_of_forall_mem_list fun _ _ y hy _ => h y hy

/-- **The last phase of a call** tells whether its message was handled once, and whether its
`XACK` succeeded. -/
theorem phases_tell (h : Obeys AckPhase.Allowed AckPhase.next .fresh tr) :
    (HandledOnce tr ↔ watch AckPhase.next .fresh tr ≠ .replayed)
      ∧ (AcksSucceed tr ↔ watch AckPhase.next .fresh tr ≠ .failed
          ∧ watch AckPhase.next .fresh tr ≠ .replayed) := by
  induction tr with
  | nil => exact ⟨⟨nofun, fun _ => .nil⟩, ⟨fun _ => ⟨nofun, nofun⟩, fun _ => .nil⟩⟩
  | cons x tr ih =>
      have hrest := h.2
      rw [watch_cons]
      by_cases hx : Succeeded x
      · rw [hx.next_fresh] at hrest ⊢
        rcases obeys_handled hrest with rfl | ⟨y, rfl, hfailed, hxack⟩
          | ⟨y, tr', rfl, hfailed, hxack, hwatch⟩
        · exact ⟨⟨nofun, fun _ => List.pairwise_singleton _ _⟩,
            ⟨fun _ => ⟨nofun, nofun⟩, fun _ => .singleton _⟩⟩
        · rw [watch_cons, next_handled_of_not_failed hfailed, watch_nil]
          refine ⟨⟨nofun, fun _ => ?_⟩, ⟨fun _ => ⟨nofun, nofun⟩, fun _ => ?_⟩⟩
          · simp [HandledOnce, hxack]
          · simp [AcksSucceed, hfailed]
        · have hacks : ¬ AcksSucceed (x :: y :: tr') := fun hacks =>
            (List.isChain_cons_cons.mp hacks).1 hx hfailed
          rw [hwatch]
          rcases watch_failed tr' with ⟨hw, hall⟩ | ⟨hw, z, hz, hreplay⟩
          · have honce : HandledOnce (x :: y :: tr') := by
              refine List.pairwise_cons.mpr ⟨fun z hz _ => ?_, handledOnce_of_no_replay fun z hz => ?_⟩
              · rcases List.mem_cons.mp hz with rfl | hz
                · exact hxack
                · exact hall z hz
              · rcases List.mem_cons.mp hz with rfl | hz
                · exact hxack
                · exact hall z hz
            rw [hw]
            exact ⟨⟨nofun, fun _ => honce⟩, ⟨fun ha => absurd ha hacks, fun hne => absurd rfl hne.1⟩⟩
          · have honce : ¬ HandledOnce (x :: y :: tr') := by
              intro honce
              have hz' := (List.pairwise_cons.mp honce).1 z (List.mem_cons_of_mem _ hz) hx
              rw [hreplay] at hz'
              cases hz'
            rw [hw]
            exact ⟨⟨fun ho => absurd ho honce, fun hne => absurd rfl hne⟩,
              ⟨fun ha => absurd ha hacks, fun hne => absurd rfl hne.2⟩⟩
      · rw [next_fresh_of_not_succeeded hx] at hrest ⊢
        obtain ⟨honce, hacks⟩ := ih hrest
        have hcons : HandledOnce (x :: tr) ↔ HandledOnce tr := by
          simp [HandledOnce, List.pairwise_cons, hx]
        have hcons' : AcksSucceed (x :: tr) ↔ AcksSucceed tr := by
          cases tr with
          | nil => simp [AcksSucceed]
          | cons y tr => simp [AcksSucceed, List.isChain_cons_cons, hx]
        exact ⟨hcons.trans honce, hcons'.trans hacks⟩

lemma AckPhase.next_ne_fresh {g : AckPhase} (hg : g ≠ .fresh) (c : Command)
    (r : Except Raised c.Answer) : g.next c r ≠ .fresh := by
  cases g with
  | fresh => exact absurd rfl hg
  | handled => match r with
    | .ok _ | .error .cancelled | .error (.exception _) => nofun
  | acked => nofun
  | failed =>
      rw [AckPhase.next]
      split <;> nofun
  | replayed => nofun

/-- The phase is past the first one as soon as a call of `process_message` returned normally. -/
lemma watch_ne_fresh : ∀ {tr : List (Exchange consumerSig)} {g : AckPhase},
    (g ≠ .fresh ∨ ∃ x ∈ tr, Succeeded x) → watch AckPhase.next g tr ≠ .fresh
  | [], _, h => h.resolve_right (by simp)
  | x :: tr, g, h => by
      rw [watch_cons]
      refine watch_ne_fresh ?_
      by_cases hg : g = .fresh
      · subst hg
        obtain ⟨z, hz, hzs⟩ := h.resolve_left (· rfl)
        rcases List.mem_cons.mp hz with rfl | hz
        · rw [hzs.next_fresh]
          exact Or.inl nofun
        · exact Or.inr ⟨z, hz, hzs⟩
      · exact Or.inl (AckPhase.next_ne_fresh hg _ _)

end Traces

/-- **When a handled message is handled again.**  As long as no `XACK` that follows a normal
return of `process_message` fails, a call of `_handle_message` neither calls `process_message`
again nor writes to the dead letter queue, and is not about to; and a call that returns has kept
to that only if no such `XACK` failed. -/
theorem handled_once_iff [StandardLibrary] (cfg : Config) (messageId : EntryId)
    (rawPayload : Fields) (s : Self) (tr : List (Exchange consumerSig))
    (p : Program consumerSig Unit) (hrun : Run (handleMessage cfg messageId rawPayload s) tr p)
    (hpossible : ∀ x ∈ tr, Command.Possible x.command x.answer) :
    (AcksSucceed tr → HandledOnce tr ∧ ((∃ x ∈ tr, Succeeded x) →
        ∀ c : Command, p.command? = some c → c.isReplay = false))
      ∧ ∀ s', p = .done (.ok ()) s' → (HandledOnce tr ↔ AcksSucceed tr) := by
  obtain ⟨hobeys, hp⟩ := Program.wp_monitor (handleMessage_phase cfg messageId rawPayload (s := s))
    hrun hpossible
  obtain ⟨honce, hacks⟩ := phases_tell hobeys
  refine ⟨fun h => ⟨?_, fun hsucceeded c hc => ?_⟩, ?_⟩
  · exact honce.mpr (hacks.mp h).2
  · -- the message was handled, so the phase allows an `XACK` at most
    have hne := watch_ne_fresh (g := AckPhase.fresh) (Or.inr hsucceeded)
    obtain ⟨hfailed, hreplayed⟩ := hacks.mp h
    cases p with
    | done r s => cases hc
    | spent => cases hc
    | await c' s' k =>
        obtain rfl := Option.some.inj hc
        have hallowed := hp.1
        generalize watch AckPhase.next AckPhase.fresh tr = g at *
        cases g with
        | fresh => exact absurd rfl hne
        | failed => exact absurd rfl hfailed
        | replayed => exact absurd rfl hreplayed
        | acked => cases hallowed
        | handled =>
            obtain ⟨name, groupname, e, rfl⟩ := hallowed
            rfl
  · rintro s' rfl
    have hclosed : (watch AckPhase.next AckPhase.fresh tr).Closed := hp
    rw [honce, hacks]
    exact ⟨fun hr => ⟨hclosed.2, hr⟩, fun h => h.2⟩

section Solo

attribute [local instance] plainLibrary

/-- One attempt: `process_message` returns and the `XACK` succeeds. -/
theorem handled_once_ping : ∃ tr s',
    Run (handleMessage soloConfig ⟨1, 0⟩ pingFields (Self.init soloConfig 0)) tr
        (.done (.ok ()) s')
      ∧ (∃ x ∈ tr, Succeeded x) ∧ (HandledOnce tr ↔ AcksSucceed tr) := by
  let s := Self.init soloConfig 0
  let line : LogLine := ⟨.debug, "1-0", "[Consumer] Processing message 1-0 (attempt 1)"⟩
  let tr : List (Exchange consumerSig) :=
    [⟨Command.acquire, { s with log := [line] }, .ok (), s⟩,
      ⟨Command.processMessage "1-0" ⟨1, 0⟩ "ping" [], s, .ok none, s⟩,
      ⟨Command.xack "events" "users" ⟨1, 0⟩, s, .ok (), s⟩]
  have hrun : ∃ s', Run (handleMessage soloConfig ⟨1, 0⟩ pingFields s) tr (.done (.ok ()) s') :=
    ⟨_, .cons _ _ (.cons _ _ (.cons _ _ (.nil _)))⟩
  obtain ⟨s', hrun⟩ := hrun
  have hpossible : ∀ x ∈ tr, Command.Possible x.command x.answer := by
    simp [tr, Command.Possible]
  refine ⟨tr, s', hrun, ⟨_, List.mem_cons_of_mem _ (List.mem_cons_self ..), trivial⟩, ?_⟩
  exact (handled_once_iff soloConfig ⟨1, 0⟩ pingFields s tr _ hrun hpossible).2 s' rfl

/-- One attempt: `process_message` returns, the `XACK` fails, and the handled message goes to the
dead letter queue. -/
theorem handled_message_dead_lettered : ∃ tr s',
    Run (handleMessage { soloConfig with maxRetries := 1 } ⟨1, 0⟩ pingFields
      (Self.init soloConfig 0)) tr (.done (.ok ()) s')
      ∧ (∀ x ∈ tr, Command.Possible x.command x.answer)
      ∧ (readEnvelope pingFields).toOption.isSome ∧ ¬ HandledOnce tr := by
  let s := Self.init soloConfig 0
  refine ⟨[⟨Command.acquire, _, .ok (), s⟩,
    ⟨Command.processMessage "1-0" ⟨1, 0⟩ "ping" [], _, .ok none, s⟩,
    ⟨Command.xack "events" "users" ⟨1, 0⟩, _, .error (.exception connectionError), s⟩,
    ⟨Command.xadd "events_dlq" ⟨⟨1, 0⟩, "\x7b\"action\": \"ping\", \"data\": \"\x7b\x7d\"\x7d",
      some "ConnectionError", "users"⟩ none, _, .ok (), s⟩,
    ⟨Command.xack "events" "users" ⟨1, 0⟩, _, .ok (), s⟩], _,
    .cons _ _ (.cons _ _ (.cons _ _ (.cons _ _ (.cons _ _ (.nil _))))), ?_, rfl, ?_⟩
  · simp [Command.Possible, Command.canRaise]
  · simp [HandledOnce, Succeeded, Command.isReplay]

end Solo

end Atsig
