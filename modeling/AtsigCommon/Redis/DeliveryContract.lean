import AtsigCommon.Redis.Group
import AtsigCommon.Redis.Rules

/-!
# What becomes of a delivery

How the coroutines of the consumer respect the delivery limit, each on its own.

* `mainContract` — the task of `run`: it gathers each entry that it was given at most once, and
  only what the limit permits (`run_limited`).
* `handlerContract` — a handler starts `process_message` for its own entry only, and only so often
  (`start_limited`).
* `handleReclaimed_permitted` — what the limit permits is handled.
-/

namespace Atsig

open Coroutine Python

/-! ## The task of `run` -/

/-- What the task of a consumer knows about its entries: how often Redis delivered each, the
delivery in which it was last given each, and the entries it was given and has not gathered. -/
structure View where
  deliveries : EntryId → ℕ
  received : EntryId → ℕ
  fresh : List EntryId

/-- The entries that were given and not gathered, after an await. -/
def freshAfter (fresh : List EntryId) : (c : Command) → Except Raised c.Answer → List EntryId
  | .xreadgroup .., .ok response => (batchEntries response).map Prod.fst
  | .xautoclaim .., .ok (_, claimed) => claimed.map Prod.fst
  | .gather _, _ => []
  | _, _ => fresh

/-- What the limit permits to hand on. -/
def View.Permits (M : ℕ) (v : View) : Job → Prop
  | .handleMessage e _ => e ∈ v.fresh ∧ v.received e ≤ M
  | .deadLetterReclaimed e _ deliveries =>
      e ∈ v.fresh ∧ M < deliveries ∧ deliveries ≤ v.deliveries e

/-- What an answer tells about the counts: an entry that `XREADGROUP` gave was delivered once, and
`XPENDING` knows the count. -/
def Tells (deliveries : EntryId → ℕ) : (c : Command) → Except Raised c.Answer → Prop
  | .xreadgroup .., .ok response => ∀ m ∈ batchEntries response, deliveries m.1 = 1
  | .xpendingRange _ _ e _ _, r => r = .ok [deliveries e] ∨ r = .error .cancelled
  | _, _ => True

/-- The view after an await. -/
structure View.Step (v : View) (c : Command) (r : Except Raised c.Answer) (v' : View) : Prop where
  grow : ∀ e, v.deliveries e ≤ v'.deliveries e
  received : v'.received = fun e => if e ∈ receivedIds c r then v'.deliveries e else v.received e
  fresh : v'.fresh = freshAfter v.fresh c r
  le : ∀ e, v'.received e ≤ v'.deliveries e
  nodup : (receivedIds c r).Nodup
  tells : Tells v'.deliveries c r

/-- **The contract of the task of `run`**: it gathers what it was given, each entry once, as the
limit permits, and leaves `process_message` to the handlers. -/
def mainContract (M : ℕ) : Contract consumerSig View where
  may v _ c :=
    match c with
    | .gather jobs => (jobs.map Job.messageId).Nodup ∧ ∀ job ∈ jobs, v.Permits M job
    | .processMessage .. => False
    | _ => True
  env v _ c r v' _ := v.Step c r v'

/-- The counts have grown since, and nothing else. -/
structure View.Grown (v v' : View) : Prop where
  grow : ∀ e, v.deliveries e ≤ v'.deliveries e
  received : v'.received = v.received
  fresh : v'.fresh = v.fresh

section Main

variable {M : ℕ} {v v' v'' : View} {c : Command}

lemma View.Grown.refl (v : View) : v.Grown v := ⟨fun _ => le_rfl, rfl, rfl⟩

lemma View.Grown.trans (h : v.Grown v') (h' : v'.Grown v'') : v.Grown v'' :=
  ⟨fun e => (h.grow e).trans (h'.grow e), h'.received.trans h.received, h'.fresh.trans h.fresh⟩

lemma View.Permits.mono {job : Job} (h : v.Permits M job) (hv : v.Grown v') :
    v'.Permits M job := by
  cases job with
  | handleMessage e fields =>
      rw [View.Permits, hv.fresh, hv.received]
      exact h
  | deadLetterReclaimed e fields deliveries =>
      rw [View.Permits, hv.fresh]
      exact ⟨h.1, h.2.1, h.2.2.trans (hv.grow e)⟩

/-- An await that gives no entries leaves those that were given before. -/
lemma View.Step.grown {r : Except Raised c.Answer} (h : v.Step c r v')
    (hreceived : receivedIds c r = []) (hfresh : freshAfter v.fresh c r = v.fresh) :
    v.Grown v' := by
  refine ⟨h.grow, ?_, h.fresh.trans hfresh⟩
  rw [h.received, hreceived]
  funext e
  simp

/-- A job of a reclaimed entry is permitted, once Redis has told the count. -/
lemma permits_reclaimJob {cfg : Config} (hM : cfg.maxDeliveries = M) {e : EntryId}
    (hfresh : e ∈ v.fresh) (hle : v.received e ≤ v.deliveries e) (fields : Fields) :
    v.Permits M (reclaimJob cfg e fields (some (v.deliveries e))) := by
  rw [reclaimJob]
  split
  · exact ⟨hfresh, by omega, le_rfl⟩
  · exact ⟨hfresh, by omega⟩

variable (cfg : Config)

/-- The jobs of a claimed batch are permitted, and each entry has at most one. -/
lemma reclaimTasks_limited (hM : cfg.maxDeliveries = M) :
    ∀ (claimed : List (EntryId × Option Fields)) (v : View) (s : Self),
    (∀ m ∈ claimed, m.1 ∈ v.fresh) →
    (reclaimTasks cfg claimed).wp (mainContract M)
      (fun tasks v' _ => v.Grown v' ∧ (tasks.map Job.messageId).Sublist (claimed.map Prod.fst)
        ∧ ∀ job ∈ tasks, v'.Permits M job) (fun _ _ _ => True) v s
  | [], v, _, _ => ⟨.refl v, .slnil, by simp⟩
  | (messageId, none) :: claimed, v, s, hfresh => by
      rw [reclaimTasks, Co.wp_bind]
      refine send_wp trivial (fun a v₁ s₁ henv => ?_) (fun _ _ _ _ => trivial)
      have hgrown : v.Grown v₁ := henv.grown rfl rfl
      refine Co.wp_mono (reclaimTasks_limited hM claimed v₁ s₁ fun m hm => ?_)
        (fun tasks v' s' h => ?_) (fun _ _ _ _ => trivial)
      · rw [hgrown.fresh]
        exact hfresh m (List.mem_cons_of_mem _ hm)
      · exact ⟨hgrown.trans h.1, h.2.1.cons _, h.2.2⟩
  | (messageId, some fields) :: claimed, v, s, hfresh => by
      simp only [reclaimTasks, deliveryCount, Co.wp_bind, wp_exceptException, Co.wp_pure]
      refine send_wp trivial (fun rows v₁ s₁ henv => ?_) (fun e v₁ s₁ henv => ?_)
      · have hgrown : v.Grown v₁ := henv.grown rfl rfl
        have hrows : rows = [v₁.deliveries messageId] := by
          rcases henv.tells with h | h
          · exact Except.ok.inj h
          · cases h
        have hjob : v₁.Permits M (reclaimJob cfg messageId fields rows.head?) := by
          rw [hrows]
          refine permits_reclaimJob hM ?_ (henv.le messageId) fields
          rw [hgrown.fresh]
          exact hfresh _ (List.mem_cons_self ..)
        refine Co.wp_mono (reclaimTasks_limited hM claimed v₁ s₁ fun m hm => ?_)
          (fun tasks v' s' h => ?_) (fun _ _ _ _ => trivial)
        · rw [hgrown.fresh]
          exact hfresh m (List.mem_cons_of_mem _ hm)
        · refine ⟨hgrown.trans h.1, ?_, fun job hj => ?_⟩
          · have hid : (reclaimJob cfg messageId fields rows.head?).messageId = messageId := by
              rw [hrows, List.head?_cons, reclaimJob]
              split <;> rfl
            rw [List.map_cons, hid]
            exact h.2.1.cons_cons messageId
          · rcases List.mem_cons.mp hj with rfl | hj
            · exact hjob.mono h.1
            · exact h.2.2 job hj
      · -- `XPENDING` does not fail
        rcases henv.tells with h | h
        · cases h
        · obtain rfl := Except.error.inj h
          trivial

/-- `run` keeps the contract of its task. -/
theorem run_limited [StandardLibrary] (hM : cfg.maxDeliveries = M) (hpos : 1 ≤ M) (fuel : ℕ) :
    (run cfg fuel).Keeps (mainContract M) := by
  have hsend : ∀ {c : Command}, (∀ v s, (mainContract M).may v s c) →
      (send c).Keeps (mainContract M) fun _ _ => True :=
    fun h => send_keeps (fun v s _ => h v s) fun _ _ _ _ _ _ _ => trivial
  refine run_keeps cfg (fun _ _ => trivial) (hsend fun _ _ => trivial) ?_ ?_
    (fun _ => hsend fun _ _ => trivial) fuel
  · intro startId v s _
    refine send_wp trivial (fun answer v₁ s₁ henv => ?_) (fun _ _ _ _ => trivial)
    obtain ⟨nextId, claimed⟩ := answer
    refine takeOver_wp cfg (fun _ _ => trivial) (fun s => ?_) s₁
    have hfresh : v₁.fresh = claimed.map Prod.fst := henv.fresh
    rw [handleReclaimed, Co.wp_bind]
    refine Co.wp_mono (reclaimTasks_limited cfg hM claimed v₁ s fun m hm => ?_)
      (fun tasks v₂ s₂ h => ?_) (fun _ _ _ _ => trivial)
    · rw [hfresh]
      exact List.mem_map_of_mem hm
    · rw [gatherTasks]
      split
      · trivial
      · exact send_wp ⟨henv.nodup.sublist h.2.1, h.2.2⟩ (fun _ _ _ _ => trivial)
          (fun _ _ _ _ => trivial)
  · intro v s _
    refine send_wp trivial (fun response v₁ s₁ henv => ?_) (fun _ _ _ _ => trivial)
    have hfresh : v₁.fresh = (batchEntries response).map Prod.fst := henv.fresh
    have hids : (batchJobs response).map Job.messageId = (batchEntries response).map Prod.fst := by
      rw [batchJobs_eq, List.map_map]
      rfl
    have hpermits : ∀ job ∈ batchJobs response, v₁.Permits M job := by
      intro job hj
      rw [batchJobs_eq] at hj
      obtain ⟨m, hm, rfl⟩ := List.mem_map.mp hj
      -- a first delivery
      have hone : v₁.deliveries m.1 = 1 := henv.tells m hm
      have hle := henv.le m.1
      refine ⟨?_, by omega⟩
      rw [hfresh]
      exact List.mem_map_of_mem hm
    rw [gatherTasks]
    split
    · trivial
    · refine send_wp ⟨?_, hpermits⟩ (fun _ _ _ _ => trivial) (fun _ _ _ _ => trivial)
      rw [hids]
      exact henv.nodup

end Main

/-! ## The handlers -/

/-- How often a handler may still start `process_message`, once it has been answered. -/
def afterAwait (k : ℕ) : Command → ℕ
  | .processMessage .. => k - 1
  | _ => k

lemma afterAwait_le (k : ℕ) (c : Command) : afterAwait k c ≤ k := by
  cases c with
  | processMessage rid e action payload => exact Nat.sub_le k 1
  | xgroupCreate | xreadgroup | xautoclaim | xpendingRange | xadd | xack | acquire | sleep
  | gather => exact le_rfl

/-- **The contract of a handler** of the entry `e`: it starts `process_message` for `e` only, and
so often as the ghost state says. -/
def handlerContract (e : EntryId) : Contract consumerSig ℕ where
  may k _ c :=
    match c with
    | .processMessage _ e' _ _ => e' = e ∧ 1 ≤ k
    | _ => True
  env k _ c _ k' _ := k' = afterAwait k c

section Handlers

variable (cfg : Config) (e : EntryId)

/-- Awaits other than `process_message` leave the ghost state as it is. -/
lemma send_unlimited {c : Command} {k : ℕ} (hc : ∀ k, afterAwait k c = k)
    (hmay : ∀ k s, (handlerContract e).may k s c) :
    (send c).Keeps (handlerContract e) fun k' _ => k ≤ k' := by
  refine send_keeps (fun k' s _ => hmay k' s) fun k₁ s r k₂ s' h henv => ?_
  have hk : k₂ = k₁ := henv.trans (hc k₁)
  omega

lemma xack_unlimited (e' : EntryId) (k : ℕ) :
    (xack cfg e').Keeps (handlerContract e) fun k' _ => k ≤ k' :=
  send_unlimited e (c := Command.xack cfg.streamName cfg.groupName e') (fun _ => rfl)
    fun _ _ => trivial

/-- An attempt starts `process_message` at most once. -/
lemma attemptBody_limited (rid : String) (action : String) (payload : Payload) (attempt k : ℕ)
    (s : Self) :
    (attemptBody cfg rid e action payload attempt).wp (handlerContract e)
      (fun _ k' _ => k ≤ k') (fun _ k' _ => k ≤ k') (k + 1) s := by
  simp only [attemptBody, Co.wp_bind, wp_writeLog, wp_withSlot, Co.wp_pure]
  refine ⟨trivial, fun _ k₁ s₁ henv => ?_, fun _ k₁ s₁ henv => ?_⟩
  · obtain rfl : k₁ = k + 1 := henv
    refine send_wp ⟨rfl, by omega⟩ (fun outcome k₂ s₂ henv => ?_) (fun err k₂ s₂ henv => ?_)
    · obtain rfl : k₂ = k := henv
      exact xack_unlimited cfg e e _ _ s₂ le_rfl
    · obtain rfl : k₂ = k := henv
      exact le_rfl
  · obtain rfl : k₁ = k + 1 := henv
    omega

lemma handleAttempt_limited (rid : String) (action : String) (payload : Payload) (attempt k : ℕ)
    (s : Self) :
    (handleAttempt cfg rid e action payload attempt).wp (handlerContract e)
      (fun _ k' _ => k ≤ k') (fun _ k' _ => k ≤ k') (k + 1) s := by
  rw [handleAttempt, wp_exceptException]
  refine Co.wp_mono (attemptBody_limited cfg e rid action payload attempt k s)
    (fun _ _ _ h => h) (fun err k' s' h => ?_)
  cases err with
  | cancelled => exact h
  | exception err =>
      refine Co.Keeps.ite (I := fun k' _ => k ≤ k') ?_ ?_ k' s' h
      · exact (writeLog_keeps _ _ _).bind fun _ => Co.keeps_pure _
      · refine (writeLog_keeps _ _ _).bind fun _ => Co.Keeps.bind ?_ fun _ => Co.keeps_pure _
        exact Co.Keeps.ite (send_unlimited e (c := Command.sleep cfg.retryDelay) (fun _ => rfl)
          fun _ _ => trivial) (Co.keeps_pure _)

/-- The retry loop starts `process_message` at most as often as it has attempts left. -/
lemma retryLoop_limited (rid : String) (action : String) (payload : Payload) :
    ∀ (left attempt : ℕ) (lastError : Option String) (k : ℕ) (s : Self), left ≤ k →
    (retryLoop cfg rid e action payload attempt left lastError).wp (handlerContract e)
      (fun _ _ _ => True) (fun _ _ _ => True) k s
  | 0, _, _, _, _, _ => trivial
  | left + 1, attempt, _, k, s, hk => by
      obtain ⟨k, rfl⟩ : ∃ k', k = k' + 1 := ⟨k - 1, by omega⟩
      rw [retryLoop, Co.wp_bind]
      refine Co.wp_mono (handleAttempt_limited cfg e rid action payload attempt k s)
        (fun r k' s' h => ?_) (fun _ _ _ _ => trivial)
      cases r with
      | acked => trivial
      | nonRetryable lastError => trivial
      | failed lastError =>
          exact retryLoop_limited rid action payload left _ _ k' s' (by omega)

/-- `except Exception`, where neither part has to establish anything. -/
lemma exceptException_limited {x : Consumer Unit} {handler : PyException → Consumer Unit} {k : ℕ}
    {s : Self}
    (hx : x.wp (handlerContract e) (fun _ _ _ => True) (fun _ _ _ => True) k s)
    (hh : ∀ err k s, (handler err).wp (handlerContract e) (fun _ _ _ => True)
      (fun _ _ _ => True) k s) :
    (exceptException x handler).wp (handlerContract e) (fun _ _ _ => True) (fun _ _ _ => True)
      k s := by
  rw [wp_exceptException]
  refine Co.wp_mono hx (fun _ _ _ h => h) fun err k s _ => ?_
  cases err with
  | cancelled => trivial
  | exception err => exact hh err k s

/-- How often a job may start `process_message`. -/
def Job.budget : Job → ℕ
  | .handleMessage .. => cfg.maxRetries
  | .deadLetterReclaimed .. => 0

variable [StandardLibrary]

/-- What is done about a message that is not processed awaits Redis only. -/
lemma sendToDlq_xack_limited (rid : String) (e' : EntryId) (rawPayload : Dict String Text)
    (errorMsg : Option String) :
    (do sendToDlq cfg rid e' rawPayload errorMsg
        xack cfg e' : Consumer Unit).Keeps (handlerContract e) fun k' _ => 0 ≤ k' := by
  refine Co.Keeps.bind (exceptException_keeps ?_ fun _ => ?_) fun _ => ?_
  · exact (send_unlimited e (c := Command.xadd _ _ _) (fun _ => rfl) fun _ _ => trivial).bind
      fun _ => writeLog_keeps _ _ _
  · exact (writeLog_keeps _ _ _).bind fun _ => Co.keeps_raise _
  · exact xack_unlimited cfg e e' 0

/-- **A job keeps the contract of its handler** with its budget. -/
theorem start_limited (job : Job) (s : Self) :
    (job.start cfg).wp (handlerContract job.messageId) (fun _ _ _ => True) (fun _ _ _ => True)
      (job.budget cfg) s := by
  have hrest : ∀ {x : Consumer Unit} {k : ℕ} {s : Self}, x.Keeps (handlerContract job.messageId)
      (fun k' _ => 0 ≤ k') → x.wp (handlerContract job.messageId) (fun _ _ _ => True)
        (fun _ _ _ => True) k s :=
    fun hx => hx.wp (Nat.zero_le _) (fun _ _ _ _ => trivial) (fun _ _ _ _ => trivial)
  cases job with
  | deadLetterReclaimed e fields deliveries =>
      refine hrest ((writeLog_keeps _ _ _).bind fun _ => ?_)
      exact sendToDlq_xack_limited cfg e noRequestId e _ _
  | handleMessage e rawPayload =>
      change (handleMessage cfg e rawPayload).wp _ _ _ _ s
      rw [handleMessage, handleEntry]
      refine exceptException_limited e ?_ fun _ _ _ => trivial
      cases readEnvelope rawPayload with
      | error err =>
          refine hrest ((writeLog_keeps _ _ _).bind fun _ => ?_)
          exact sendToDlq_xack_limited cfg e _ e _ _
      | ok envelope =>
          obtain ⟨normalizedPayload, action, payload⟩ := envelope
          dsimp only
          rw [handleEnvelope, Co.wp_bind]
          refine Co.wp_mono (retryLoop_limited cfg e _ action payload _ 1 none _ s le_rfl)
            (fun r k' s' _ => ?_) (fun _ _ _ _ => trivial)
          cases r with
          | acked => trivial
          | gaveUp lastError skippedRetries =>
              refine hrest ((writeLog_keeps _ _ _).bind fun _ => ?_)
              exact sendToDlq_xack_limited cfg e _ e _ lastError

end Handlers

/-! ## The last permitted delivery -/

/-- The counts that `XPENDING` has answered. -/
def toldNext (told : List (EntryId × ℕ)) : (c : Command) → Except Raised c.Answer →
    List (EntryId × ℕ)
  | .xpendingRange _ _ e _ _, .ok (n :: _) => (e, n) :: told
  | _, _ => told

/-- Watches that a batch is handed on with a handler for each entry with fields that is within the
limit. -/
def permittedMonitor (M : ℕ) (claimed : List (EntryId × Option Fields)) :
    Contract consumerSig (List (EntryId × ℕ)) :=
  .monitor (fun told c => ∀ jobs, c = .gather jobs → ∀ e fields n, (e, n) ∈ told → n ≤ M →
    (e, some fields) ∈ claimed → .handleMessage e fields ∈ jobs) (fun _ _ => True) toldNext

section Permitted

variable {cfg : Config} {M : ℕ}

lemma reclaimTasks_permitted (hM : cfg.maxDeliveries = M)
    (all : List (EntryId × Option Fields)) :
    ∀ (claimed : List (EntryId × Option Fields)) (told : List (EntryId × ℕ)) (s : Self),
    (claimed.map Prod.fst).Nodup →
    (reclaimTasks cfg claimed).wp (permittedMonitor M all)
      (fun tasks told' _ => ∀ e n, (e, n) ∈ told' → (e, n) ∈ told ∨ e ∈ claimed.map Prod.fst
        ∧ (n ≤ M → ∀ fields, (e, some fields) ∈ claimed → .handleMessage e fields ∈ tasks))
      (fun _ _ _ => True) told s
  | [], _, _, _ => fun _ _ h => Or.inl h
  | (messageId, none) :: claimed, told, s, hnodup => by
      rw [List.map_cons, List.nodup_cons] at hnodup
      rw [reclaimTasks, Co.wp_bind]
      refine send_wp (fun _ h => by cases h) (fun _ told' s' henv => ?_) (fun _ _ _ _ => trivial)
      obtain rfl : told' = told := henv.2
      refine Co.wp_mono (reclaimTasks_permitted hM all claimed told' s' hnodup.2)
        (fun tasks told'' s'' h e n hmem => ?_) (fun _ _ _ _ => trivial)
      refine (h e n hmem).imp_right fun ⟨hin, hjobs⟩ => ⟨List.mem_cons_of_mem _ hin, ?_⟩
      intro hn fields hf
      exact hjobs hn fields ((List.mem_cons.mp hf).resolve_left (by simp))
  | (messageId, some fields) :: claimed, told, s, hnodup => by
      rw [List.map_cons, List.nodup_cons] at hnodup
      simp only [reclaimTasks, deliveryCount, Co.wp_bind, wp_exceptException, Co.wp_pure]
      -- the rest of the batch, after `XPENDING` told `deliveries` of the first entry
      have hrest : ∀ (deliveries : Option ℕ) (told' : List (EntryId × ℕ)) (s' : Self),
          (∀ e n, (e, n) ∈ told' → (e, n) ∈ told ∨ e = messageId ∧ deliveries = some n) →
          (reclaimTasks cfg claimed).wp (permittedMonitor M all)
            (fun tasks told' _ => ∀ e n, (e, n) ∈ told' → (e, n) ∈ told
              ∨ e ∈ ((messageId, some fields) :: claimed).map Prod.fst
                ∧ (n ≤ M → ∀ f, (e, some f) ∈ (messageId, some fields) :: claimed →
                  .handleMessage e f ∈ reclaimJob cfg messageId fields deliveries :: tasks))
            (fun _ _ _ => True) told' s' := by
        intro deliveries told' s' htold
        refine Co.wp_mono (reclaimTasks_permitted hM all claimed told' s' hnodup.2)
          (fun tasks told'' s'' h e n hmem => ?_) (fun _ _ _ _ => trivial)
        rcases h e n hmem with hold | ⟨hin, hjobs⟩
        · refine (htold e n hold).imp_right ?_
          rintro ⟨rfl, rfl⟩
          refine ⟨List.mem_cons_self .., fun hn f hf => ?_⟩
          rcases List.mem_cons.mp hf with heq | hf
          · obtain ⟨-, heq⟩ := Prod.mk.inj heq
            obtain rfl := Option.some.inj heq
            rw [reclaimJob, if_neg (by omega)]
            exact List.mem_cons_self ..
          · exact absurd (List.mem_map_of_mem hf) hnodup.1
        · refine Or.inr ⟨List.mem_cons_of_mem _ hin, fun hn f hf => ?_⟩
          rcases List.mem_cons.mp hf with heq | hf
          · obtain ⟨rfl, -⟩ := Prod.mk.inj heq
            exact absurd hin hnodup.1
          · exact List.mem_cons_of_mem _ (hjobs hn f hf)
      refine send_wp (fun _ h => by cases h) (fun rows told' s' henv => ?_)
        (fun err told' s' henv => ?_)
      · refine hrest rows.head? told' s' fun e n hmem => ?_
        rw [henv.2] at hmem
        cases rows with
        | nil => exact Or.inl hmem
        | cons m rows =>
            rcases List.mem_cons.mp hmem with heq | hmem
            · obtain ⟨rfl, rfl⟩ := Prod.mk.inj heq
              exact Or.inr ⟨rfl, rfl⟩
            · exact Or.inl hmem
      · obtain rfl : told' = told := henv.2
        cases err with
        | cancelled => trivial
        | exception err => exact hrest none told' s' fun e n hmem => Or.inl hmem

lemma told_subset (told : List (EntryId × ℕ)) : ∀ tr : List (Exchange consumerSig),
    told ⊆ watch toldNext told tr
  | [] => fun _ h => h
  | ⟨c, _, r, _⟩ :: tr => by
      refine List.Subset.trans ?_ (told_subset (toldNext told c r) tr)
      intro m hm
      unfold toldNext
      split
      · exact List.mem_cons_of_mem _ hm
      · exact hm

/-- What `XPENDING` answered in an execution was told. -/
lemma mem_told {name groupname : String} {e e' : EntryId} {n count : ℕ} {rest : List ℕ}
    {s s' : Self} {tr : List (Exchange consumerSig)}
    (h : ⟨.xpendingRange name groupname e e' count, s, .ok (n :: rest), s'⟩ ∈ tr)
    (told : List (EntryId × ℕ)) : (e, n) ∈ watch toldNext told tr := by
  obtain ⟨pre, post, rfl⟩ := List.append_of_mem h
  rw [watch_append, watch_cons]
  exact told_subset _ post (List.mem_cons_self ..)

/-- **The last permitted delivery is handled**: when a reclaimed batch is handed on, an entry with
fields whose count, as `XPENDING` answered, is at most the limit has its call of
`_handle_message`. -/
theorem handleReclaimed_permitted (hM : cfg.maxDeliveries = M)
    {claimed : List (EntryId × Option Fields)} (hnodup : (claimed.map Prod.fst).Nodup)
    {s s' s₁ s₂ : Self} {tr : List (Exchange consumerSig)} {jobs : List Job}
    {k : Except Raised Unit → Self → Program consumerSig Unit}
    (hrun : Run (handleReclaimed cfg claimed s) tr
      (.await (S := consumerSig) (.gather jobs) s' k))
    {e : EntryId} {fields : Fields} {n : ℕ} {rest : List ℕ} (he : (e, some fields) ∈ claimed)
    (htold : ⟨.xpendingRange cfg.streamName cfg.groupName e e 1, s₁, .ok (n :: rest), s₂⟩ ∈ tr)
    (hn : n ≤ M) : .handleMessage e fields ∈ jobs := by
  have hwp : (handleReclaimed cfg claimed).wp (permittedMonitor M claimed) (fun _ _ _ => True)
      (fun _ _ _ => True) [] s := by
    rw [handleReclaimed, Co.wp_bind]
    refine Co.wp_mono (reclaimTasks_permitted hM claimed claimed [] s hnodup)
      (fun tasks told s' h => ?_) (fun _ _ _ _ => trivial)
    rw [gatherTasks]
    split
    · trivial
    · refine send_wp ?_ (fun _ _ _ _ => trivial) (fun _ _ _ _ => trivial)
      rintro _ ⟨⟩ e fields n hmem hn he
      exact ((h e n hmem).resolve_left List.not_mem_nil).2 hn fields he
  have hgather := (Program.wp_monitor hwp hrun fun _ _ => trivial).2.1
  exact hgather jobs rfl e fields n (mem_told htold []) hn he

end Permitted

end Atsig
