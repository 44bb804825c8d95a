import AtsigCommon.Redis.Rules

/-!
# Which entries of a batch are handed to a handler

`run` builds the jobs of what `XREADGROUP` gave without awaiting anything, so every entry of the
batch gets its handler.  `_handle_reclaimed` awaits two Redis calls while it builds the jobs of
what `XAUTOCLAIM` gave: a failing `XPENDING` is caught, a failing `XACK` of a trimmed entry is not,
and abandons the whole batch.

* `handed_reclaimed_iff` — the entries of a reclaimed batch are handed on if and only if no such
  `XACK` fails, or there is nothing to hand on.
* `read_batch_dispatched` — the entries of a batch that was read always are.
-/

namespace Atsig

open Coroutine Python

/-- The entry a job is about. -/
def Job.entry : Job → EntryId × Fields
  | .handleMessage messageId rawPayload => (messageId, rawPayload)
  | .deadLetterReclaimed messageId fields _ => (messageId, fields)

@[simp] lemma reclaimJob_entry (cfg : Config) (messageId : EntryId) (fields : Fields)
    (deliveries : Option ℕ) :
    (reclaimJob cfg messageId fields deliveries).entry = (messageId, fields) := by
  cases deliveries with
  | none => rfl
  | some n =>
      rw [reclaimJob]
      split <;> rfl

/-- The entries of a reclaimed batch that still have their fields, in its order. -/
def withFields (claimed : List (EntryId × Option Fields)) : List (EntryId × Fields) :=
  claimed.filterMap fun m => m.2.map fun fields => (m.1, fields)

/-- The entries that an execution handed to `gather`. -/
def handed (tr : List (Exchange consumerSig)) : List (EntryId × Fields) :=
  tr.flatMap fun x => match x.command with
    | .gather jobs => jobs.map Job.entry
    | _ => []

/-- An `XACK`. -/
def Command.isXack : Command → Bool
  | .xack .. => true
  | _ => false

/-! ## A reclaimed batch -/

/-- What the handling of a batch has done so far: the entries it handed on, and whether an `XACK`
failed. -/
structure BatchView where
  handed : List (EntryId × Fields)
  ackFailed : Bool

/-- The view after one more await. -/
def BatchView.next (g : BatchView) : (c : Command) → Except Raised c.Answer → BatchView
  | .gather jobs, _ => { g with handed := g.handed ++ jobs.map Job.entry }
  | .xack .., .error _ => { g with ackFailed := true }
  | _, _ => g

/-- How an await ends that is not cancelled. -/
def Command.Undisturbed (c : Command) (r : Except Raised c.Answer) : Prop :=
  c.Possible r ∧ r ≠ .error .cancelled

/-- The monitor of the handling of a batch. -/
def batchMonitor : Contract consumerSig BatchView :=
  .monitor (fun _ _ => True) Command.Undisturbed BatchView.next

section Monitor

variable {g : BatchView} {s : Self}

/-- The rule of the await for this monitor: what is raised is an exception. -/
lemma send_batch {c : Command} {φ : c.Answer → BatchView → Self → Prop}
    {ψ : Raised → BatchView → Self → Prop} (hok : ∀ a s, φ a (g.next c (.ok a)) s)
    (herr : ∀ e s, c.canRaise → ψ (.exception e) (g.next c (.error (.exception e))) s) :
    (send c).wp batchMonitor φ ψ g s := by
  refine send_wp trivial (fun a g' s' henv => ?_) (fun e g' s' henv => ?_)
  · obtain ⟨-, rfl⟩ := henv
    exact hok a s'
  · obtain ⟨⟨hraise, hcancel⟩, rfl⟩ := henv
    cases e with
    | cancelled => exact absurd rfl hcancel
    | exception e => exact herr e s' (hraise e rfl)

variable (cfg : Config)

/-- The jobs are those of the entries with fields, unless an `XACK` fails; then there are none. -/
lemma reclaimTasks_batch : ∀ (claimed : List (EntryId × Option Fields)) (s : Self),
    (reclaimTasks cfg claimed).wp batchMonitor
      (fun tasks g _ => g = ⟨[], false⟩ ∧ tasks.map Job.entry = withFields claimed)
      (fun _ g _ => g = ⟨[], true⟩) ⟨[], false⟩ s
  | [], _ => ⟨rfl, rfl⟩
  | (messageId, none) :: claimed, s => by
      rw [reclaimTasks, Co.wp_bind]
      exact send_batch (fun _ s' => reclaimTasks_batch claimed s') (fun _ _ _ => rfl)
  | (messageId, some fields) :: claimed, s => by
      have htasks : ∀ deliveries s, (reclaimTasks cfg claimed).wp batchMonitor
          (fun tasks g _ => g = ⟨[], false⟩
            ∧ (reclaimJob cfg messageId fields deliveries :: tasks).map Job.entry
              = withFields ((messageId, some fields) :: claimed))
          (fun _ g _ => g = ⟨[], true⟩) ⟨[], false⟩ s := by
        intro deliveries s
        refine Co.wp_mono (reclaimTasks_batch claimed s) (fun tasks g' s' h => ⟨h.1, ?_⟩)
          (fun _ _ _ h => h)
        rw [List.map_cons, reclaimJob_entry, h.2]
        rfl
      simp only [reclaimTasks, deliveryCount, Co.wp_bind, wp_exceptException, Co.wp_pure]
      refine send_batch (fun rows s' => ?_) (fun e s' _ => ?_)
      · exact htasks rows.head? s'
      · exact htasks none s'

/-- The handling of a batch that returns has handed on every entry with fields; one that raises
has handed on none. -/
lemma handleReclaimed_batch (claimed : List (EntryId × Option Fields)) (s : Self) :
    (handleReclaimed cfg claimed).wp batchMonitor
      (fun _ g _ => g = ⟨withFields claimed, false⟩) (fun _ g _ => g = ⟨[], true⟩)
      ⟨[], false⟩ s := by
  rw [handleReclaimed, Co.wp_bind]
  refine Co.wp_mono (reclaimTasks_batch cfg claimed s) (fun tasks g' s' h => ?_) (fun _ _ _ h => h)
  obtain ⟨rfl, htasks⟩ := h
  rw [gatherTasks]
  split
  · have hempty : tasks = [] := List.isEmpty_iff.mp ‹_›
    rw [hempty] at htasks
    exact congrArg (BatchView.mk · false) htasks
  · refine send_batch (fun _ _ => ?_) (fun _ _ hraise => by cases hraise)
    rw [← htasks]
    rfl

end Monitor

/-- What the monitor has seen, in terms of the execution. -/
lemma watch_batch (g : BatchView) (tr : List (Exchange consumerSig))
    (hcancel : ∀ x ∈ tr, x.answer ≠ .error .cancelled) :
    (watch BatchView.next g tr).handed = g.handed ++ handed tr
      ∧ ((watch BatchView.next g tr).ackFailed = true
        ↔ g.ackFailed = true ∨ ∃ x ∈ tr, x.command.isXack ∧ Failed x) := by
  induction tr generalizing g with
  | nil => simp [handed]
  | cons x tr ih =>
      rw [watch_cons]
      obtain ⟨hhanded, hfailed⟩ := ih (g.next x.command x.answer) fun y hy =>
        hcancel y (List.mem_cons_of_mem _ hy)
      have hx := hcancel x (List.mem_cons_self ..)
      rw [hhanded, hfailed]
      obtain ⟨c, s, r, s'⟩ := x
      cases c with
      | gather jobs => simp [BatchView.next, handed, Command.isXack]
      | xack name groupname e =>
          match r with
          | .ok a => simp [BatchView.next, handed, Failed]
          | .error .cancelled => exact absurd rfl hx
          | .error (.exception err) => simp [BatchView.next, handed, Command.isXack, Failed]
      | xgroupCreate | xreadgroup | xautoclaim | xpendingRange | xadd | processMessage | acquire
      | sleep => simp [BatchView.next, handed, Command.isXack]

/-- **A reclaimed batch.**  The entries of the batch that have their fields are handed on, each
once and in order, if and only if no `XACK` of a trimmed entry fails or there is none to hand
on. -/
theorem handed_reclaimed_iff (cfg : Config) (claimed : List (EntryId × Option Fields)) (s : Self)
    {tr : List (Exchange consumerSig)} {r : Except Raised Unit} {s' : Self}
    (hrun : Run (handleReclaimed cfg claimed s) tr (.done (S := consumerSig) r s'))
    (hundisturbed : ∀ x ∈ tr, Command.Undisturbed x.command x.answer) :
    handed tr = withFields claimed
      ↔ (∀ x ∈ tr, x.command.isXack → ¬ Failed x) ∨ withFields claimed = [] := by
  obtain ⟨-, hdone⟩ := Program.wp_monitor (handleReclaimed_batch cfg claimed s) hrun hundisturbed
  obtain ⟨hhanded, hfailed⟩ := watch_batch ⟨[], false⟩ tr fun x hx => (hundisturbed x hx).2
  cases r with
  | ok a =>
      have hview : watch BatchView.next ⟨[], false⟩ tr = ⟨withFields claimed, false⟩ := hdone
      rw [hview] at hhanded hfailed
      refine iff_of_true hhanded.symm (Or.inl fun x hx hxack hxf => ?_)
      simpa using hfailed.mpr (Or.inr ⟨x, hx, hxack, hxf⟩)
  | error e =>
      have hview : watch BatchView.next ⟨[], false⟩ tr = ⟨[], true⟩ := hdone
      rw [hview] at hhanded hfailed
      have hnone : handed tr = [] := hhanded.symm
      obtain ⟨x, hx, hxack, hxf⟩ := (hfailed.mp rfl).resolve_left nofun
      rw [hnone]
      constructor
      · exact fun h => Or.inr h.symm
      · rintro (h | h)
        · exact absurd hxf (h x hx hxack)
        · exact h.symm

/-! ## A batch that was read -/

/-- The jobs of the entries that an await gave to the read loop. -/
def readJobs : (c : Command) → Except Raised c.Answer → List Job
  | .xreadgroup .., .ok response => batchJobs response
  | _, _ => []

/-- The monitor of the read loop: the jobs of a batch are gathered before anything else. -/
def dispatchMonitor : Contract consumerSig (List Job) :=
  .monitor (fun jobs c => jobs ≠ [] → c = .gather jobs) Command.Possible (fun _ => readJobs)
    (· = [])

lemma send_dispatch {c : Command} (hc : ∀ r, readJobs c r = []) :
    (send c).Keeps dispatchMonitor fun g _ => g = [] := by
  refine send_keeps (fun g s h hne => absurd h hne) fun g s r g' s' h henv => ?_
  obtain ⟨-, rfl⟩ := henv
  exact hc r

/-- The read loop gathers what it read. -/
lemma run_dispatch [StandardLibrary] (cfg : Config) (fuel : ℕ) :
    (run cfg fuel).Keeps dispatchMonitor fun g _ => g = [] := by
  refine run_keeps cfg (fun _ h => h) (send_dispatch fun _ => rfl) ?_ (fun g s h => ?_)
    (fun _ => send_dispatch fun _ => rfl) fuel
  · exact scanKeeps cfg (fun _ => send_dispatch fun _ => rfl) (fun _ => send_dispatch fun _ => rfl)
      (fun _ => send_dispatch fun _ => rfl) (fun _ => send_dispatch fun _ => rfl)
  · refine send_wp (fun hne => absurd h hne) (fun response g' s' henv => ?_)
      (fun e g' s' henv => ?_)
    · obtain ⟨-, rfl⟩ := henv
      rw [gatherTasks]
      split
      · exact List.isEmpty_iff.mp ‹_›
      · refine send_wp (fun _ => rfl) (fun _ _ _ henv => henv.2) (fun _ _ _ henv => henv.2)
    · obtain ⟨-, rfl⟩ := henv
      rfl

lemma batchJobs_entry (response : List (String × List (EntryId × Fields))) :
    (batchJobs response).map Job.entry = batchEntries response := by
  rw [batchJobs_eq, List.map_map]
  exact List.map_id _

/-- What `run` sends after it got entries from `XREADGROUP` is the `gather` of their jobs. -/
lemma read_batch_dispatched [StandardLibrary] (cfg : Config) (fuel : ℕ) (s : Self)
    {pre post : List (Exchange consumerSig)} {x : Exchange consumerSig}
    {p : Program consumerSig Unit} (hrun : Run (run cfg fuel s) (pre ++ x :: post) p)
    (hpossible : ∀ y ∈ pre ++ x :: post, Command.Possible y.command y.answer)
    (hjobs : readJobs x.command x.answer ≠ []) :
    (commands post p).head? = some (Command.gather (readJobs x.command x.answer)) := by
  have hsplit : pre ++ x :: post = (pre ++ [x]) ++ post := by simp
  rw [hsplit] at hrun hpossible
  obtain ⟨q, hpre, hpost⟩ := run_append_iff.mp hrun
  obtain ⟨-, hq⟩ := Program.wp_monitor (run_dispatch cfg fuel [] s rfl) hpre
    fun y hy => hpossible y (List.mem_append_left _ hy)
  rw [watch_append, watch_cons, watch_nil] at hq
  cases q with
  | done r s' =>
      cases r with
      | ok a => exact absurd hq hjobs
      | error e => exact absurd hq hjobs
  | spent => exact absurd hq hjobs
  | await c s' k =>
      rw [← hq.1 hjobs]
      exact hpost.head_commands

/-- **When the entries of a batch are isolated from each other.**  A handling of a reclaimed batch
that is not cancelled hands on all entries that have their fields if and only if no `XACK` of a
trimmed entry fails or there is none to hand on.  After a read with entries `run` always gathers
their jobs, one for each entry of the answer. -/
theorem batch_isolated_iff [StandardLibrary] (cfg : Config) :
    (∀ claimed s tr r s', Run (handleReclaimed cfg claimed s) tr (.done (S := consumerSig) r s') →
      (∀ x ∈ tr, Command.Undisturbed x.command x.answer) →
      (handed tr = withFields claimed
        ↔ (∀ x ∈ tr, x.command.isXack → ¬ Failed x) ∨ withFields claimed = []))
    ∧ (∀ fuel s pre x post p, Run (run cfg fuel s) (pre ++ x :: post) p →
      (∀ y ∈ pre ++ x :: post, Command.Possible y.command y.answer) →
      readJobs x.command x.answer ≠ [] →
      (commands post p).head? = some (Command.gather (readJobs x.command x.answer)))
    ∧ ∀ response, (batchJobs response).map Job.entry = batchEntries response := by
  refine ⟨?_, ?_, batchJobs_entry⟩
  · intro claimed s tr r s' hrun hundisturbed
    exact handed_reclaimed_iff cfg claimed s hrun hundisturbed
  · intro fuel s pre x post p hrun hpossible hjobs
    exact read_batch_dispatched cfg fuel s hrun hpossible hjobs

section Solo

attribute [local instance] plainLibrary

/-- A trimmed entry whose `XACK` succeeds, and one that is handled. -/
theorem batch_isolated_ping : ∃ tr s',
    Run (handleReclaimed soloConfig [(⟨1, 0⟩, none), (⟨2, 0⟩, some pingFields)]
      (Self.init soloConfig 0)) tr (.done (S := consumerSig) (.ok ()) s')
      ∧ (handed tr = withFields [(⟨1, 0⟩, none), (⟨2, 0⟩, some pingFields)]
        ↔ (∀ x ∈ tr, x.command.isXack → ¬ Failed x)
          ∨ withFields [(⟨1, 0⟩, none), (⟨2, 0⟩, some pingFields)] = []) := by
  let s := Self.init soloConfig 0
  let tr : List (Exchange consumerSig) := [⟨Command.xack "events" "users" ⟨1, 0⟩, s, .ok (), s⟩,
    ⟨Command.xpendingRange "events" "users" ⟨2, 0⟩ ⟨2, 0⟩ 1, s, .ok [1], s⟩,
    ⟨Command.gather [.handleMessage ⟨2, 0⟩ pingFields], s, .ok (), s⟩]
  have hrun : Run (handleReclaimed soloConfig [(⟨1, 0⟩, none), (⟨2, 0⟩, some pingFields)] s) tr
      (.done (S := consumerSig) (.ok ()) s) := .cons _ _ (.cons _ _ (.cons _ _ (.nil _)))
  have hundisturbed : ∀ x ∈ tr, Command.Undisturbed x.command x.answer := by
    simp [tr, Command.Undisturbed, Command.Possible]
  exact ⟨tr, s, hrun, (batch_isolated_iff soloConfig).1 _ s tr _ s hrun hundisturbed⟩

/-- The `XACK` of a trimmed entry fails: the entry after it is not handed on. -/
theorem batch_abandoned : ∃ tr e s',
    Run (handleReclaimed soloConfig [(⟨1, 0⟩, none), (⟨2, 0⟩, some pingFields)]
      (Self.init soloConfig 0)) tr (.done (S := consumerSig) (.error (.exception e)) s')
      ∧ (∀ x ∈ tr, Command.Undisturbed x.command x.answer)
      ∧ handed tr = []
      ∧ withFields [(⟨1, 0⟩, none), (⟨2, 0⟩, some pingFields)] = [(⟨2, 0⟩, pingFields)] := by
  let s := Self.init soloConfig 0
  refine ⟨[⟨Command.xack "events" "users" ⟨1, 0⟩, _, .error (.exception connectionError), s⟩],
    connectionError, _, .cons _ _ (.nil _), ?_, rfl, rfl⟩
  simp [Command.Undisturbed, Command.Possible, Command.canRaise]

end Solo

end Atsig
