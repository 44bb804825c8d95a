import AtsigCommon.Redis.Group
import AtsigCommon.Redis.Rules

/-!
# No entry is lost

An `XACK` is sent from five places: after `process_message`, after the retries, for an invalid
envelope, at the delivery limit, and for a trimmed entry.  Each is sent only when the history
already accounts for the entry (`Accounted`), so in every reachable state a delivered entry is
pending or accounted for, whatever fails and whoever dies.

The property is a contract (`noLoss`) over the history of the group.  Each coroutine of the
consumer keeps it on its own (`run_wp`, `start_wp`); histories only grow, so it survives the
steps of everybody else (`Safe.mono`); and the steps of the group answer within it
(`Group.Reply.learned`).
-/

namespace Atsig

open Coroutine Python

/-- The entry was processed, dead-lettered, or found trimmed. -/
def Accounted (history : List Event) (e : EntryId) : Prop :=
  .processed e ∈ history ∨ .deadLettered e ∈ history ∨ .trimmed e ∈ history

lemma Accounted.mono {h h' : List Event} {e : EntryId} (ha : Accounted h e) (hsuf : h <:+ h') :
    Accounted h' e :=
  ha.imp (fun hp => hsuf.subset hp) (Or.imp (fun hd => hsuf.subset hd) fun ht => hsuf.subset ht)

variable {ι : Type} (d : Deployment ι)

/-- What an answer says about the history: the events of the completed command are in it. -/
def Learned (c : Command) (r : Except Raised c.Answer) (history : List Event) : Prop :=
  ∀ a, r = .ok a → ∀ ev ∈ completed d c a, ev ∈ history

/-- **The contract**: an `XACK` needs an accounted entry.  The others only add to the history. -/
def noLoss : Contract consumerSig (List Event) where
  may h _ c :=
    match c with
    | .xack _ _ e => Accounted h e
    | _ => True
  env h _ c r h' _ := h <:+ h' ∧ Learned d c r h'

/-! ## The coroutines keep the contract -/

section Coroutines

variable (cfg : Config)

lemma send_allowed {c : Command} (hmay : ∀ h s, (noLoss d).may h s c) :
    (send c).Keeps (noLoss d) :=
  send_keeps (fun h s _ => hmay h s) fun _ _ _ _ _ _ _ => trivial

lemma xack_wp {e : EntryId} {h : List Event} (ha : Accounted h e) (s : Self) :
    (xack cfg e).wp (noLoss d) (fun _ _ _ => True) (fun _ _ _ => True) h s :=
  send_wp ha (fun _ _ _ _ => trivial) (fun _ _ _ _ => trivial)

/-- The handler and its ACK: the first place. -/
lemma attemptBody_keeps (rid : String) (messageId : EntryId) (action : String)
    (payload : Payload) (attempt : ℕ) :
    (attemptBody cfg rid messageId action payload attempt).Keeps (noLoss d) := fun h s _ => by
  simp only [attemptBody, Co.wp_bind, wp_writeLog, wp_withSlot, Co.wp_pure]
  refine ⟨trivial, fun _ h₁ s₁ _ => ?_, fun _ _ _ _ => trivial⟩
  refine send_wp trivial (fun a h₂ s₂ henv => ?_) (fun _ _ _ _ => trivial)
  have hev : .processed messageId ∈ h₂ := henv.2 a rfl _ (List.mem_singleton_self _)
  exact Co.wp_mono (xack_wp d cfg (Or.inl hev) s₂) (fun _ _ _ _ => trivial)
    (fun _ _ _ _ => trivial)

lemma handleAttempt_keeps (rid : String) (messageId : EntryId) (action : String)
    (payload : Payload) (attempt : ℕ) :
    (handleAttempt cfg rid messageId action payload attempt).Keeps (noLoss d) := by
  refine exceptException_keeps (attemptBody_keeps d cfg rid messageId action payload attempt)
    fun e => Co.Keeps.ite ?_ ?_
  · exact (writeLog_keeps _ _ _).bind fun _ => Co.keeps_pure _
  · refine (writeLog_keeps _ _ _).bind fun _ => Co.Keeps.bind ?_ fun _ => Co.keeps_pure _
    exact Co.Keeps.ite (send_allowed d fun _ _ => trivial) (Co.keeps_pure _)

lemma retryLoop_keeps (rid : String) (messageId : EntryId) (action : String)
    (payload : Payload) : ∀ (left attempt : ℕ) (lastError : Option String),
    (retryLoop cfg rid messageId action payload attempt left lastError).Keeps (noLoss d)
  | 0, _, _ => Co.keeps_pure _
  | left + 1, attempt, _ => by
      refine (handleAttempt_keeps d cfg rid messageId action payload attempt).bind fun r => ?_
      cases r with
      | acked => exact Co.keeps_pure _
      | nonRetryable lastError => exact Co.keeps_pure _
      | failed lastError => exact retryLoop_keeps rid messageId action payload left _ _

/-- A trimmed entry: the fifth place.  The history knows that it was trimmed. -/
lemma reclaimTasks_wp : ∀ (claimed : List (EntryId × Option Fields)) (h : List Event) (s : Self),
    (∀ m ∈ claimed, m.2 = none → .trimmed m.1 ∈ h) →
    (reclaimTasks cfg claimed).wp (noLoss d) (fun _ _ _ => True) (fun _ _ _ => True) h s
  | [], _, _, _ => trivial
  | (messageId, none) :: claimed, h, s, htrim => by
      have ht : .trimmed messageId ∈ h := htrim _ (List.mem_cons_self ..) rfl
      rw [reclaimTasks, Co.wp_bind]
      refine send_wp (Or.inr (Or.inr ht)) (fun _ h' s' henv => ?_) (fun _ _ _ _ => trivial)
      exact reclaimTasks_wp claimed h' s' fun m hm hnone =>
        henv.1.subset (htrim m (List.mem_cons_of_mem _ hm) hnone)
  | (messageId, some fields) :: claimed, h, s, htrim => by
      have htail : ∀ h', h <:+ h' → ∀ m ∈ claimed, m.2 = none → .trimmed m.1 ∈ h' :=
        fun h' hsuf m hm hnone => hsuf.subset (htrim m (List.mem_cons_of_mem _ hm) hnone)
      simp only [reclaimTasks, deliveryCount, Co.wp_bind, wp_exceptException, Co.wp_pure]
      refine send_wp trivial (fun rows h' s' henv => ?_) (fun e h' s' henv => ?_)
      · exact reclaimTasks_wp claimed h' s' (htail h' henv.1)
      · cases e with
        | cancelled => trivial
        | exception e => exact reclaimTasks_wp claimed h' s' (htail h' henv.1)

lemma gatherTasks_keeps (tasks : List Job) : (gatherTasks tasks).Keeps (noLoss d) :=
  Co.Keeps.ite (Co.keeps_pure _) (send_allowed d fun _ _ => trivial)

/-- A scan keeps the contract: `XAUTOCLAIM` tells which entries were trimmed. -/
lemma scan_keeps : ScanKeeps cfg (noLoss d) fun _ => True := by
  intro startId h s _
  refine send_wp trivial (fun answer h' s' henv => ?_) (fun _ _ _ _ => trivial)
  have htrim : ∀ m ∈ answer.2, m.2 = none → .trimmed m.1 ∈ h' := by
    intro m hm hnone
    refine henv.2 _ rfl (.trimmed m.1) (List.mem_filterMap.mpr ⟨m, hm, ?_⟩)
    simp [hnone]
  refine takeOver_wp cfg (fun _ _ => trivial) (fun s => ?_) s'
  rw [handleReclaimed, Co.wp_bind]
  exact Co.wp_mono (reclaimTasks_wp d cfg answer.2 h' s htrim)
    (fun tasks h'' s'' _ => gatherTasks_keeps d tasks h'' s'' trivial) (fun _ _ _ _ => trivial)

variable [StandardLibrary]

/-- After the write to the dead letter queue the entry is accounted for. -/
lemma sendToDlq_wp (hstream : cfg.streamName = d.stream) (rid : String) (messageId : EntryId)
    (rawPayload : Dict String Text) (errorMsg : Option String) (h : List Event) (s : Self) :
    (sendToDlq cfg rid messageId rawPayload errorMsg).wp (noLoss d)
      (fun _ h' _ => Accounted h' messageId) (fun _ _ _ => True) h s := by
  simp only [sendToDlq, wp_exceptException, Co.wp_bind, wp_writeLog, Co.wp_raise]
  refine send_wp trivial (fun a h' s' henv => ?_) (fun e h' s' _ => ?_)
  · have hev := henv.2 a rfl (.deadLettered messageId)
    simp only [completed, hstream, if_true, List.mem_singleton, forall_const] at hev
    exact Or.inr (Or.inl hev)
  · cases e <;> trivial

/-- The write to the dead letter queue and the ACK after it: three of the five places. -/
lemma sendToDlq_xack_keeps (hstream : cfg.streamName = d.stream) (rid : String)
    (messageId : EntryId) (rawPayload : Dict String Text) (errorMsg : Option String) :
    (do sendToDlq cfg rid messageId rawPayload errorMsg
        xack cfg messageId : Consumer Unit).Keeps (noLoss d) := fun h s _ => by
  rw [Co.wp_bind]
  exact Co.wp_mono (sendToDlq_wp d cfg hstream rid messageId rawPayload errorMsg h s)
    (fun _ _ s' ha => xack_wp d cfg ha s') (fun _ _ _ _ => trivial)

variable (hstream : cfg.streamName = d.stream)

include hstream

/-- Retries used up: the second place. -/
lemma handleEnvelope_keeps (rid : String) (messageId : EntryId)
    (normalizedPayload : Dict String String) (action : String) (payload : Payload) :
    (handleEnvelope cfg rid messageId normalizedPayload action payload).Keeps (noLoss d) := by
  refine (retryLoop_keeps d cfg rid messageId action payload _ _ _).bind fun r => ?_
  cases r with
  | acked => exact Co.keeps_pure _
  | gaveUp lastError skippedRetries =>
      exact (writeLog_keeps _ _ _).bind fun _ =>
        sendToDlq_xack_keeps d cfg hstream rid messageId _ lastError

/-- An invalid envelope: the third place. -/
lemma rejectInvalidMessage_keeps (rid : String) (messageId : EntryId) (rawPayload : Fields)
    (reason : String) : (rejectInvalidMessage cfg rid messageId rawPayload reason).Keeps (noLoss d) :=
  (writeLog_keeps _ _ _).bind fun _ => sendToDlq_xack_keeps d cfg hstream rid messageId _ _

/-- The delivery limit: the fourth place. -/
lemma deadLetterReclaimed_keeps (rid : String) (messageId : EntryId) (fields : Fields)
    (deliveries : ℕ) : (deadLetterReclaimed cfg rid messageId fields deliveries).Keeps (noLoss d) :=
  (writeLog_keeps _ _ _).bind fun _ => sendToDlq_xack_keeps d cfg hstream rid messageId _ _

/-- `_handle_message` keeps the contract, and only a cancellation gets out of it. -/
lemma handleMessage_wp (messageId : EntryId) (rawPayload : Fields) (h : List Event) (s : Self) :
    (handleMessage cfg messageId rawPayload).wp (noLoss d) (fun _ _ _ => True)
      (fun e _ _ => e = .cancelled) h s := by
  rw [handleMessage, handleEntry]
  refine exceptException_catches ?_ (fun e _ _ => by rw [wp_writeLog]; trivial)
  cases readEnvelope rawPayload with
  | error e => exact rejectInvalidMessage_keeps d cfg hstream _ messageId rawPayload _
  | ok envelope =>
      obtain ⟨normalizedPayload, action, payload⟩ := envelope
      exact handleEnvelope_keeps d cfg hstream _ messageId normalizedPayload action payload

/-- What gets out of a job: only a cancellation, when it is a call of `_handle_message`. -/
def Job.Raises : Job → Raised → Prop
  | .handleMessage .., e => e = .cancelled
  | .deadLetterReclaimed .., _ => True

/-- Every job that `gather` starts keeps the contract. -/
lemma start_wp (job : Job) (h : List Event) (s : Self) :
    (job.start cfg).wp (noLoss d) (fun _ _ _ => True) (fun e _ _ => job.Raises e) h s := by
  cases job with
  | handleMessage messageId rawPayload =>
      exact handleMessage_wp d cfg hstream messageId rawPayload h s
  | deadLetterReclaimed messageId fields deliveries =>
      exact deadLetterReclaimed_keeps d cfg hstream noRequestId messageId fields deliveries h s trivial

omit hstream

/-- **`run` keeps the contract**, whatever it is answered. -/
theorem run_wp (fuel : ℕ) : (run cfg fuel).Keeps (noLoss d) := by
  refine run_keeps cfg (fun _ _ => trivial) (send_allowed d fun _ _ => trivial) (scan_keeps d cfg)
    (fun h s _ => ?_) (fun _ => send_allowed d fun _ _ => trivial) fuel
  exact send_wp trivial (fun response h' s' _ => gatherTasks_keeps d _ h' s' trivial)
    (fun _ _ _ _ => trivial)

end Coroutines

/-! ## The group answers within the contract -/

/-- At every `XACK` that was sent the entry was accounted for before. -/
def AcksAccounted (history : List Event) : Prop :=
  ∀ newer older e, history = newer ++ .ackSent e :: older → Accounted older e

lemma AcksAccounted.cons {h : List Event} {ev : Event} (hh : AcksAccounted h)
    (hev : ∀ e, ev = .ackSent e → Accounted h e) : AcksAccounted (ev :: h) := by
  intro newer older e heq
  cases newer with
  | nil =>
      obtain ⟨rfl, rfl⟩ := List.cons.inj heq
      exact hev e rfl
  | cons ev' newer =>
      obtain ⟨-, htail⟩ := List.cons.inj heq
      exact hh newer older e htail

lemma AcksAccounted.append {h : List Event} (hh : AcksAccounted h) : ∀ new : List Event,
    (∀ ev ∈ new, ev.isSent = false) → AcksAccounted (new ++ h)
  | [], _ => hh
  | ev :: new, hnew => by
      refine (hh.append new fun ev' hev' => hnew ev' (List.mem_cons_of_mem _ hev')).cons ?_
      rintro e rfl
      cases hnew _ (List.mem_cons_self ..)

/-- What holds of the Redis side. -/
structure Group.Safe (g : Group) : Prop where
  ackSent : AcksAccounted g.history
  acked : ∀ e, .acked e ∈ g.history → Accounted g.history e
  delivered : ∀ e, 0 < g.deliveries e → g.pending e ∨ .acked e ∈ g.history

variable {d} {g g' : Group} {c : Command}

lemma Group.Reply.suffix {replies : Replies} {r : Except Raised c.Answer}
    (h : g.Reply d replies c r g') : g.history <:+ g'.history := by
  obtain ⟨new, hnew, -⟩ := h.grown
  exact ⟨new, hnew.symm⟩

/-- A completed command is in the history. -/
lemma Group.Reply.learned {replies : Replies} {r : Except Raised c.Answer}
    (h : g.Reply d replies c r g') : Learned d c r g'.history := by
  rintro a rfl ev hev
  obtain ⟨g₁, -, rfl⟩ := h.2
  exact List.mem_append_left _ hev

/-- A delivered entry leaves the pending ones by an ACK only. -/
lemma Group.Exec.delivered {a : c.Answer} (h : g.Exec d c a g')
    (hg : ∀ e, 0 < g.deliveries e → g.pending e ∨ .acked e ∈ g.history) (e : EntryId)
    (he : 0 < g'.deliveries e) : g'.pending e ∨ .acked e ∈ g'.history := by
  have hdeliver : ∀ ids, 0 < (g.deliver ids).deliveries e →
      (g.deliver ids).pending e ∨ .acked e ∈ (g.deliver ids).history := by
    intro ids hpos
    by_cases hmem : e ∈ ids
    · exact Or.inl (by simp [Group.deliver, hmem])
    · simp only [Group.deliver, if_neg hmem] at hpos
      rcases hg e hpos with hp | ha
      · exact Or.inl (by simp [Group.deliver, hp])
      · exact Or.inr (List.mem_append_right _ ha)
  cases c with
  | xreadgroup groupname consumername stream count block =>
      obtain ⟨-, -, rfl⟩ := h
      exact hdeliver _ he
  | xautoclaim name groupname consumername minIdleTime startId count =>
      obtain ⟨-, -, rfl⟩ := h
      exact hdeliver _ he
  | xack name groupname e' =>
      obtain rfl : g' = if name = d.stream ∧ groupname = d.group then g.ack e' else g := h
      split
      · rw [if_pos ‹_›] at he
        rcases hg e he with hp | ha
        · by_cases hee : e = e'
          · subst hee
            exact Or.inr (List.mem_cons_self ..)
          · exact Or.inl (by simp [Group.ack, hee, hp])
        · exact Or.inr (List.mem_cons_of_mem _ ha)
      · rw [if_neg ‹_›] at he
        exact hg e he
  | xadd name fields maxlen =>
      obtain rfl : g' = { g with dlq := g.dlq ++ [(name, fields)] } := h
      exact hg e he
  | xgroupCreate | xpendingRange | processMessage | acquire | sleep | gather =>
      obtain rfl : g' = g := h
      exact hg e he

lemma Group.Reply.delivered {replies : Replies} {r : Except Raised c.Answer}
    (h : g.Reply d replies c r g')
    (hg : ∀ e, 0 < g.deliveries e → g.pending e ∨ .acked e ∈ g.history) :
    ∀ e, 0 < g'.deliveries e → g'.pending e ∨ .acked e ∈ g'.history := by
  match r, h.2 with
  | .ok a, ⟨g₁, hexec, hg'⟩ =>
      subst hg'
      exact fun e he => (hexec.delivered hg e he).imp_right fun ha => List.mem_append_right _ ha
  | .error .cancelled, .inl hg' => exact hg' ▸ hg
  | .error .cancelled, .inr ⟨_, hexec⟩ => exact hexec.delivered hg
  | .error (.exception _), ⟨_, .inl hg'⟩ => exact hg' ▸ hg
  | .error (.exception _), ⟨_, .inr ⟨_, hexec⟩⟩ => exact hexec.delivered hg

/-- An await that the contract allows keeps the Redis side safe. -/
lemma Group.Safe.reply {replies : Replies} {r : Except Raised c.Answer} (hg : g.Safe) {s : Self}
    (hmay : (noLoss d).may g.history s c) (h : g.Reply d replies c r g') : g'.Safe := by
  obtain ⟨new, hnew, hsent, hack⟩ := h.grown
  refine ⟨hnew ▸ hg.ackSent.append new hsent, fun e he => ?_, h.delivered hg.delivered⟩
  rw [hnew] at he
  rcases List.mem_append.mp he with he | he
  · obtain ⟨name, groupname, rfl⟩ := hack e he
    exact Accounted.mono hmay h.suffix
  · exact (hg.acked e he).mono h.suffix

/-- So does a task that runs to an await the contract allows. -/
lemma Group.Safe.record_sent (hg : g.Safe) {φ : Unit → List Event → Self → Prop}
    {ψ : Raised → List Event → Self → Prop} {p : Program consumerSig Unit}
    (hp : p.wp (noLoss d) φ ψ g.history) (delivery : ℕ) : (g.record (sent delivery p)).Safe := by
  have hone : ∀ ev : Event, (∀ e, ev = .ackSent e → Accounted g.history e) →
      (∀ e, ev ≠ .acked e) → (g.record [ev]).Safe := by
    intro ev hev hacked
    refine ⟨hg.ackSent.cons hev, fun e he => ?_, fun e he => ?_⟩
    · rcases List.mem_cons.mp he with he | he
      · exact absurd he.symm (hacked e)
      · exact (hg.acked e he).mono (List.suffix_cons ..)
    · exact (hg.delivered e he).imp_right fun ha => List.mem_cons_of_mem _ ha
  cases p with
  | done r s => exact hg
  | spent => exact hg
  | await c s k =>
      cases c with
      | xack name groupname e =>
          refine hone (.ackSent e) (fun e' he' => ?_) (fun _ => nofun)
          obtain rfl := Event.ackSent.inj he'
          exact hp.1
      | processMessage requestId e action payload =>
          exact hone (.started e delivery) (fun _ => nofun) (fun _ => nofun)
      | xgroupCreate | xreadgroup | xautoclaim | xpendingRange | xadd | acquire | sleep
      | gather => exact hg

/-! ## Every reachable state is safe -/

variable {w : Worker}

/-- The tasks of a process keep the contract. -/
structure Worker.Safe (d : Deployment ι) (h : List Event) (w : Worker) : Prop where
  main : w.main.wp (noLoss d) (fun _ _ _ => True) (fun _ _ _ => True) h
  handlers : ∀ x ∈ w.handlers, ∀ p, x.program = some p →
    p.wp (noLoss d) (fun _ _ _ => True) (fun e _ _ => x.job.Raises e) h

/-- The others only add to the history. -/
lemma Worker.Safe.mono {h h' : List Event} {w : Worker} (hw : w.Safe d h) (hsuf : h <:+ h') :
    w.Safe d h' := by
  have hmay : ∀ s c, (noLoss d).may h s c → (noLoss d).may h' s c := by
    intro s c hc
    cases c with
    | xack name groupname e => exact Accounted.mono hc hsuf
    | xgroupCreate | xreadgroup | xautoclaim | xpendingRange | xadd | processMessage | acquire
    | sleep | gather => trivial
  have henv : ∀ s c r h'' s', (noLoss d).env h' s c r h'' s' → (noLoss d).env h s c r h'' s' :=
    fun s c r h'' s' hr => ⟨hsuf.trans hr.1, hr.2⟩
  refine ⟨Program.wp_rely (R := (· <:+ ·)) hw.main hsuf hmay henv (fun _ => trivial)
    (fun _ _ _ _ => trivial) (fun _ _ _ _ => trivial), fun x hx p hp => ?_⟩
  exact Program.wp_rely (R := (· <:+ ·)) (hw.handlers x hx p hp) hsuf hmay henv
    (fun _ => trivial) (fun _ _ _ _ => trivial) (fun _ _ _ he => he)

/-- A process whose task of `run` runs to an await. -/
lemma Worker.Safe.runMain {h : List Event} {p : Program consumerSig Unit}
    (hp : p.wp (noLoss d) (fun _ _ _ => True) (fun _ _ _ => True) h) (received : EntryId → ℕ) :
    (w.runMain received p).Safe d h := by
  refine ⟨hp, fun x hx q hq => ?_⟩
  -- the new handlers have not started
  have hnone : x.program = none := by
    simp only [Worker.runMain, Worker.spawn] at hx
    split at hx
    · obtain ⟨job, -, rfl⟩ := List.mem_map.mp hx
      rfl
    · cases hx
  rw [hnone] at hq
  cases hq

/-- A process one of whose handlers runs to an await. -/
lemma Worker.Safe.runHandler {h : List Event} (hw : w.Safe d h) {j : ℕ} {x : Handler}
    {p : Program consumerSig Unit}
    (hp : p.wp (noLoss d) (fun _ _ _ => True) (fun e _ _ => x.job.Raises e) h) :
    (w.runHandler j x p).Safe d h := by
  refine ⟨hw.main, fun y hy q hq => ?_⟩
  rcases List.mem_or_eq_of_mem_set hy with hy | rfl
  · exact hw.handlers y hy q hq
  · obtain rfl := Option.some.inj hq
    exact hp

lemma suffix_sent (g : Group) (delivery : ℕ) (p : Program consumerSig Unit) :
    g.history <:+ (g.record (sent delivery p)).history := List.suffix_append ..

/-- **The invariant** of the whole group. -/
structure System.Safe (d : Deployment ι) (sys : System ι) : Prop where
  group : sys.group.Safe
  workers : ∀ i w, sys.workers i = some w → w.Safe d sys.group.history

section Steps

variable [StandardLibrary] [DecidableEq ι] {sys sys' : System ι} {i : ι}

omit [StandardLibrary] in
lemma System.Safe.put (hs : sys.Safe d) {w : Option Worker} (hg : g.Safe)
    (hsuf : sys.group.history <:+ g.history) (hw : ∀ w', w = some w' → w'.Safe d g.history) :
    (sys.put g i w).Safe d := by
  refine ⟨hg, fun j w' hj => ?_⟩
  rcases System.put_workers hj with ⟨rfl, hw'⟩ | ⟨-, hw'⟩
  · exact hw w' hw'
  · exact (hs.workers j w' hw').mono hsuf

/-- **The step lemma.** -/
theorem System.Safe.step {replies : Replies} (hs : sys.Safe d) (h : sys.Step d replies sys') :
    sys'.Safe d := by
  cases h with
  | produce e fields hnew => exact ⟨⟨hs.group.1, hs.group.2, hs.group.3⟩, hs.workers⟩
  | trim e => exact ⟨⟨hs.group.1, hs.group.2, hs.group.3⟩, hs.workers⟩
  | tick ms => exact ⟨⟨hs.group.1, hs.group.2, hs.group.3⟩, hs.workers⟩
  | start i fuel monotonic hoff =>
      refine hs.put hs.group (List.suffix_refl _) fun w hw => ?_
      obtain rfl := Option.some.inj hw
      exact Worker.Safe.runMain (run_wp d (d.cfg i) fuel _ _ trivial) _
  | crash i => exact hs.put hs.group (List.suffix_refl _) nofun
  | stop i w hw =>
      refine hs.put hs.group (List.suffix_refl _) fun w' hw' => ?_
      obtain rfl := Option.some.inj hw'
      exact ⟨(hs.workers i w hw).main, (hs.workers i w hw).handlers⟩
  | clock i w monotonic hw =>
      refine hs.put hs.group (List.suffix_refl _) fun w' hw' => ?_
      obtain rfl := Option.some.inj hw'
      exact ⟨(hs.workers i w hw).main, (hs.workers i w hw).handlers⟩
  | main i w c s k r g hw hmain hreply hgathered =>
      have hwp := (hs.workers i w hw).main
      rw [hmain] at hwp
      have hnext := hwp.2 r g.history w.self ⟨hreply.suffix, hreply.learned⟩
      have hg := hs.group.reply hwp.1 hreply
      refine hs.put (hg.record_sent hnext 0) (hreply.suffix.trans (suffix_sent g 0 _))
        fun w' hw' => ?_
      obtain rfl := Option.some.inj hw'
      exact (Worker.Safe.runMain hnext _).mono (suffix_sent g 0 _)
  | handlerStart i w j x hw hj hnew =>
      have hwp := start_wp d (d.cfg i) (d.streamName_eq i) x.job sys.group.history w.self
      refine hs.put (hs.group.record_sent hwp _) (suffix_sent _ _ _) fun w' hw' => ?_
      obtain rfl := Option.some.inj hw'
      exact ((hs.workers i w hw).runHandler hwp).mono (suffix_sent _ _ _)
  | handlerCancel i w j x hw hj hnew =>
      refine hs.put hs.group (List.suffix_refl _) fun w' hw' => ?_
      obtain rfl := Option.some.inj hw'
      refine (hs.workers i w hw).runHandler ?_
      cases x with
      | mk job delivery program =>
          cases job with
          | handleMessage messageId rawPayload => exact rfl
          | deadLetterReclaimed messageId fields deliveries => exact trivial
  | handler i w j x c s k r g hw hj hprog hreply hslot =>
      have hwp := (hs.workers i w hw).handlers x (List.mem_of_getElem? hj) _ hprog
      have hnext := hwp.2 r g.history (grant c r w.self) ⟨hreply.suffix, hreply.learned⟩
      have hg := hs.group.reply hwp.1 hreply
      refine hs.put (hg.record_sent hnext _) (hreply.suffix.trans (suffix_sent g _ _))
        fun w' hw' => ?_
      obtain rfl := Option.some.inj hw'
      exact (((hs.workers i w hw).mono hreply.suffix).runHandler hnext).mono (suffix_sent g _ _)

/-- **The run lemma.** -/
theorem System.Reachable.safe {replies : Replies} (h : sys.Reachable d replies) :
    sys.Safe d := by
  induction h with
  | init stream =>
      refine ⟨⟨fun newer older e heq => ?_, nofun, fun e he => ?_⟩, nofun⟩
      · simp [Group.init] at heq
      · simp [Group.init] at he
  | step _ hstep ih => exact ih.step hstep

/-- **No entry is lost.**  Whatever fails, whoever dies, and whatever Redis answers to `XPENDING`:
an `XACK` is sent only when the entry was processed, dead-lettered or found trimmed before; so
every ACKed entry is accounted for, every delivered entry is pending or accounted for, and nothing
but a cancellation gets out of `_handle_message`. -/
theorem no_entry_lost (d : Deployment ι) (replies : Replies) :
    ∀ sys : System ι, sys.Reachable d replies →
      (∀ newer older e, sys.group.history = newer ++ .ackSent e :: older → Accounted older e)
      ∧ (∀ e, .acked e ∈ sys.group.history → Accounted sys.group.history e)
      ∧ (∀ e, 0 < sys.group.deliveries e →
          sys.group.pending e ∨ Accounted sys.group.history e)
      ∧ ∀ i w, sys.workers i = some w → ∀ x ∈ w.handlers, ∀ messageId rawPayload e s,
          x.job = .handleMessage messageId rawPayload →
          x.program = some (.done (S := consumerSig) (.error e) s) → e = .cancelled := by
  intro sys hsys
  obtain ⟨hgroup, hworkers⟩ := hsys.safe
  refine ⟨hgroup.ackSent, hgroup.acked, ?_, ?_⟩
  · intro e he
    exact (hgroup.delivered e he).imp_right (hgroup.acked e)
  · intro i w hw x hx messageId rawPayload e s hjob hprog
    have hraises := (hworkers i w hw).handlers x hx _ hprog
    rw [hjob] at hraises
    exact hraises

end Steps

section Solo

attribute [local instance] plainLibrary

/-- One entry, delivered, processed and ACKed. -/
theorem no_entry_lost_ping : ∃ sys : System Unit, sys.Reachable solo (fun _ _ _ => True)
    ∧ .acked ⟨1, 0⟩ ∈ sys.group.history ∧ Accounted sys.group.history ⟨1, 0⟩ := by
  have h0 : System.Reachable solo (fun _ _ _ => True) ⟨Group.init pingStream, fun _ => none⟩ :=
    .init _
  have h1 := h0.step (.start _ () 2 0 rfl)
  have h2 := h1.step (.main _ () _ (.xgroupCreate "events" "users" "0" true) _ _ (.ok ()) _ rfl
    rfl ⟨trivial, _, rfl, rfl⟩ nofun)
  have h3 := h2.step (.main _ () _ (.xautoclaim "events" "users" "worker" 120000 .zero 10) _ _
    (.ok (.zero, [])) _ rfl rfl ⟨trivial, _, ⟨List.nodup_nil, nofun, rfl⟩, rfl⟩ nofun)
  have hnew : ∀ m ∈ [(⟨1, 0⟩, pingFields)], (Group.init pingStream).deliveries m.1 = 0
      ∧ pingStream m.1 = some m.2 := by
    intro m hm
    obtain rfl := List.mem_singleton.mp hm
    exact ⟨rfl, rfl⟩
  have h4 := h3.step (.main _ () _ (.xreadgroup "users" "worker" "events" 10 5000) _ _
    (.ok [("events", [(⟨1, 0⟩, pingFields)])]) _ rfl rfl
    ⟨trivial, _, ⟨List.nodup_singleton _, hnew, rfl⟩, rfl⟩ nofun)
  have h5 := h4.step (.handlerStart _ () _ 0 _ rfl rfl rfl)
  have h6 := h5.step (.handler _ () _ 0 _ .acquire _ _ (.ok ()) _ rfl rfl rfl
    ⟨trivial, _, rfl, rfl⟩ (show 0 < 10 by decide))
  have h7 := h6.step (.handler _ () _ 0 _ (.processMessage "1-0" ⟨1, 0⟩ "ping" []) _ _ (.ok none)
    _ rfl rfl rfl ⟨trivial, _, rfl, rfl⟩ trivial)
  have h8 := h7.step (.handler _ () _ 0 _ (.xack "events" "users" ⟨1, 0⟩) _ _ (.ok ()) _ rfl rfl
    rfl ⟨trivial, _, rfl, rfl⟩ trivial)
  exact ⟨_, h8, List.mem_cons_self .., (no_entry_lost solo _ _ h8).2.1 _ (List.mem_cons_self ..)⟩

end Solo

end Atsig
