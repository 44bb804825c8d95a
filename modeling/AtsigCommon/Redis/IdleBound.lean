import AtsigCommon.Redis.DeliveryLimit
import AtsigCommon.Redis.Handling

/-!
# When two consumers handle one entry at once

Redis counts the idle time of an entry from its delivery, and the whole batch is delivered at
once.  Its handlers start when they get a slot of the semaphore, and a reclaimed batch first waits
for an `XPENDING` of each entry.  So the time that has to stay below `reclaim_idle_ms` is the one
from the delivery of an entry to the end of its handling, waits included; a bound on the handling
alone is not enough.

`Clock` remembers when each delivery of an entry was made and when `process_message` was first
entered in it, and `System.Timed` are the runs in which every state satisfies a timing assumption.

* `System.Spaced` — the invariant: a delivery that is not the last one of its entry is at least
  `reclaim_idle_ms` old, and no two processes hold the same delivery.
* `idle_bound` — while the entries are handled within `reclaim_idle_ms` of their deliveries, no
  two consumers handle the same entry.
-/

namespace Atsig

open Coroutine Python

/-! ## Runs in time -/

/-- When each delivery of an entry was made, and when `process_message` was first entered for it in
that delivery. -/
structure Clock where
  delivered : EntryId → ℕ → ℕ
  started : EntryId → ℕ → ℕ

/-- Nothing was delivered or started. -/
def Clock.zero : Clock := ⟨fun _ _ => 0, fun _ _ => 0⟩

/-- The times after a step from `g` to `g'`. -/
def Clock.next (clock : Clock) (g g' : Group) : Clock where
  delivered e n := if n = g'.deliveries e then g'.deliveredAt e else clock.delivered e n
  started e n :=
    if .started e n ∈ g'.history ∧ .started e n ∉ g.history then g'.now else clock.started e n

section Runs

variable {ι : Type}

/-- A run in which every state satisfies `ok`. -/
inductive System.Timed (step : System ι → System ι → Prop) (ok : System ι → Clock → Prop) :
    System ι → Clock → Prop
  | init (stream : EntryId → Option Fields)
      (hok : ok ⟨Group.init stream, fun _ => none⟩ Clock.zero) :
      Timed step ok ⟨Group.init stream, fun _ => none⟩ Clock.zero
  | step {sys sys' : System ι} {clock : Clock} (h : Timed step ok sys clock)
      (hstep : step sys sys') (hok : ok sys' (clock.next sys.group sys'.group)) :
      Timed step ok sys' (clock.next sys.group sys'.group)

/-- Process `i` has entered `process_message` for its `n`-th delivery of `e`, and that handling has
not ended. -/
def System.Inside (sys : System ι) (i : ι) (e : EntryId) (n : ℕ) : Prop :=
  ∃ w, sys.workers i = some w ∧ ∃ x ∈ w.handlers,
    x.job.messageId = e ∧ x.delivery = n ∧ ¬ x.Ended ∧ .started e n ∈ sys.group.history

/-- No handling takes `reclaim_idle_ms`, counted from the time that `since` gives. -/
def Deployment.Short (d : Deployment ι) (since : Clock → EntryId → ℕ → ℕ) (sys : System ι)
    (clock : Clock) : Prop :=
  ∀ i e n, sys.Inside i e n → ∀ j, sys.group.now < since clock e n + (d.cfg j).reclaimIdleMs

/-- How an await ends when nothing fails but `process_message`. -/
def Command.Calm (c : Command) (r : Except Raised c.Answer) : Prop :=
  (∃ a, r = .ok a)
    ∨ ∃ rid e action payload err, c = .processMessage rid e action payload
      ∧ r = .error (.exception err)

/-- A step in which no process dies or is cancelled and nothing fails but `process_message`. -/
inductive System.Calm [DecidableEq ι] [StandardLibrary] (d : Deployment ι) (replies : Replies) :
    System ι → System ι → Prop
  | outside {sys sys' : System ι} (hstep : sys.Step d replies sys')
      (hsame : sys'.workers = sys.workers) : Calm d replies sys sys'
  | start (sys : System ι) (i : ι) (fuel : ℕ) (monotonic : ℚ) (hoff : sys.workers i = none) :
      Calm d replies sys (sys.put sys.group i (some (Worker.runMain
        ⟨Self.init (d.cfg i) monotonic, .spent, [], fun _ => 0⟩ (fun _ => 0)
        (run (d.cfg i) fuel (Self.init (d.cfg i) monotonic)))))
  | main (sys : System ι) (i : ι) (w : Worker) (c : Command) (s : Self)
      (k : Except Raised c.Answer → Self → Program consumerSig Unit)
      (r : Except Raised c.Answer) (g : Group) (hw : sys.workers i = some w)
      (hmain : w.main = .await (S := consumerSig) c s k) (hreply : sys.group.Reply d replies c r g)
      (hgathered : ∀ h ∈ w.handlers, h.Ended) (hcalm : c.Calm r) :
      Calm d replies sys (sys.put (g.record (sent 0 (k r w.self))) i (some (w.runMain
        (fun e => if e ∈ receivedIds c r then g.deliveries e else w.received e) (k r w.self))))
  | handlerStart (sys : System ι) (i : ι) (w : Worker) (j : ℕ) (h : Handler)
      (hw : sys.workers i = some w) (hj : w.handlers[j]? = some h) (hnew : h.program = none) :
      Calm d replies sys (sys.put
        (sys.group.record (sent h.delivery (h.job.start (d.cfg i) w.self))) i
        (some (w.runHandler j h (h.job.start (d.cfg i) w.self))))
  | handler (sys : System ι) (i : ι) (w : Worker) (j : ℕ) (h : Handler) (c : Command) (s : Self)
      (k : Except Raised c.Answer → Self → Program consumerSig Unit)
      (r : Except Raised c.Answer) (g : Group) (hw : sys.workers i = some w)
      (hj : w.handlers[j]? = some h) (hprog : h.program = some (.await (S := consumerSig) c s k))
      (hreply : sys.group.Reply d replies c r g) (hslot : Grantable c r w.self)
      (hcalm : c.Calm r) :
      Calm d replies sys (sys.put (g.record (sent h.delivery (k r (grant c r w.self)))) i
        (some (w.runHandler j h (k r (grant c r w.self)))))

/-- Such a step is a step of the group. -/
lemma System.Calm.step [DecidableEq ι] [StandardLibrary] {d : Deployment ι} {replies : Replies}
    {sys sys' : System ι} (h : sys.Calm d replies sys') : sys.Step d replies sys' := by
  cases h with
  | outside hstep hsame => exact hstep
  | start i fuel monotonic hoff => exact .start sys i fuel monotonic hoff
  | main i w c s k r g hw hmain hreply hgathered hcalm =>
      exact .main sys i w c s k r g hw hmain hreply hgathered
  | handlerStart i w j x hw hj hnew => exact .handlerStart sys i w j x hw hj hnew
  | handler i w j x c s k r g hw hj hprog hreply hslot hcalm =>
      exact .handler sys i w j x c s k r g hw hj hprog hreply hslot

section Programs

variable [DecidableEq ι] [StandardLibrary] {d : Deployment ι} {replies : Replies}

/-- A process starts, and its program is known. -/
lemma System.Calm.start_to (sys : System ι) (i : ι) (fuel : ℕ) (monotonic : ℚ)
    (hoff : sys.workers i = none) {p : Program consumerSig Unit}
    (hp : run (d.cfg i) fuel (Self.init (d.cfg i) monotonic) = p) :
    System.Calm d replies sys (sys.put sys.group i (some (Worker.runMain
      ⟨Self.init (d.cfg i) monotonic, .spent, [], fun _ => 0⟩ (fun _ => 0) p))) := by
  subst hp
  exact .start sys i fuel monotonic hoff

/-- An await of the task of `run` ends, and the program it becomes is known. -/
lemma System.Calm.main_to (sys : System ι) (i : ι) (w : Worker) (c : Command) (s : Self)
    (k : Except Raised c.Answer → Self → Program consumerSig Unit)
    (p : Program consumerSig Unit)
    (r : Except Raised c.Answer) (g : Group) (hw : sys.workers i = some w)
    (hmain : w.main = .await (S := consumerSig) c s k) (hreply : sys.group.Reply d replies c r g)
    (hgathered : ∀ h ∈ w.handlers, h.Ended) (hcalm : c.Calm r) (hp : k r w.self = p) :
    System.Calm d replies sys (sys.put (g.record (sent 0 p)) i (some (w.runMain
      (fun e => if e ∈ receivedIds c r then g.deliveries e else w.received e) p))) := by
  subst hp
  exact .main sys i w c s k r g hw hmain hreply hgathered hcalm

/-- A handler gets its first turn, and its program is known. -/
lemma System.Calm.handlerStart_to (sys : System ι) (i : ι) (w : Worker) (j : ℕ) (h : Handler)
    (p : Program consumerSig Unit) (hw : sys.workers i = some w) (hj : w.handlers[j]? = some h)
    (hnew : h.program = none) (hp : h.job.start (d.cfg i) w.self = p) :
    System.Calm d replies sys (sys.put (sys.group.record (sent h.delivery p)) i
      (some (w.runHandler j h p))) := by
  subst hp
  exact .handlerStart sys i w j h hw hj hnew

/-- An await of a handler ends, and the program it becomes is known. -/
lemma System.Calm.handler_to (sys : System ι) (i : ι) (w : Worker) (j : ℕ) (h : Handler)
    (c : Command) (s : Self) (k : Except Raised c.Answer → Self → Program consumerSig Unit)
    (p : Program consumerSig Unit) (r : Except Raised c.Answer) (g : Group)
    (hw : sys.workers i = some w) (hj : w.handlers[j]? = some h)
    (hprog : h.program = some (.await (S := consumerSig) c s k))
    (hreply : sys.group.Reply d replies c r g) (hslot : Grantable c r w.self) (hcalm : c.Calm r)
    (hp : k r (grant c r w.self) = p) :
    System.Calm d replies sys (sys.put (g.record (sent h.delivery p)) i
      (some (w.runHandler j h p))) := by
  subst hp
  exact .handler sys i w j h c s k r g hw hj hprog hreply hslot hcalm

end Programs

end Runs

/-! ## What an await does to the deliveries -/

/-- The commands with which Redis delivers entries. -/
def Command.delivers : Command → Bool
  | .xreadgroup .. | .xautoclaim .. => true
  | _ => false

section Deliveries

variable {ι : Type} {d : Deployment ι} {g g' : Group} {c : Command}

/-- What an await on `c` did to the deliveries of `e`: nothing, or one more delivery, which was made
by `c`, and by an `XAUTOCLAIM` that found the entry idle for long enough unless it was the first. -/
structure Group.Redelivered (c : Command) (e : EntryId) (g g' : Group) : Prop where
  now : g.now ≤ g'.now
  once : (g'.deliveries e = g.deliveries e ∧ g'.deliveredAt e = g.deliveredAt e)
    ∨ (c.delivers ∧ g'.deliveries e = g.deliveries e + 1
      ∧ (1 ≤ g.deliveries e → ∃ name groupname consumername minIdleTime startId count,
          c = .xautoclaim name groupname consumername minIdleTime startId count
            ∧ g.deliveredAt e + minIdleTime ≤ g.now))

lemma Group.Exec.redelivered {a : c.Answer} (h : g.Exec d c a g') (e : EntryId) :
    g.Redelivered c e g' := by
  cases c with
  | xreadgroup groupname consumername stream count block =>
      obtain ⟨-, hnew, rfl⟩ := h
      refine ⟨le_rfl, ?_⟩
      by_cases he : e ∈ (batchEntries a).map Prod.fst
      · obtain ⟨m, hm, rfl⟩ := List.mem_map.mp he
        refine Or.inr ⟨rfl, if_pos he, fun hpos => ?_⟩
        rw [(hnew m hm).1] at hpos
        omega
      · exact Or.inl ⟨if_neg he, if_neg he⟩
  | xautoclaim name groupname consumername minIdleTime startId count =>
      obtain ⟨-, hidle, rfl⟩ := h
      refine ⟨le_rfl, ?_⟩
      by_cases he : e ∈ a.2.map Prod.fst
      · obtain ⟨m, hm, rfl⟩ := List.mem_map.mp he
        exact Or.inr ⟨rfl, if_pos he, fun _ => ⟨_, _, _, _, _, _, rfl, (hidle m hm).2.1⟩⟩
      · exact Or.inl ⟨if_neg he, if_neg he⟩
  | xack name groupname e' =>
      obtain rfl : g' = if name = d.stream ∧ groupname = d.group then g.ack e' else g := h
      split
      · exact ⟨le_rfl, Or.inl ⟨rfl, rfl⟩⟩
      · exact ⟨le_rfl, Or.inl ⟨rfl, rfl⟩⟩
  | xadd name fields maxlen =>
      obtain rfl : g' = { g with dlq := g.dlq ++ [(name, fields)] } := h
      exact ⟨le_rfl, Or.inl ⟨rfl, rfl⟩⟩
  | xgroupCreate | xpendingRange | processMessage | acquire | sleep | gather =>
      obtain rfl : g' = g := h
      exact ⟨le_rfl, Or.inl ⟨rfl, rfl⟩⟩

/-- **What an await does to the deliveries of an entry**, whether it succeeds or fails. -/
lemma Group.Reply.redelivered {replies : Replies} {r : Except Raised c.Answer}
    (h : g.Reply d replies c r g') (e : EntryId) : g.Redelivered c e g' := by
  match r, h.2 with
  | .ok a, ⟨g₁, hexec, hg'⟩ =>
      have hredelivered := hexec.redelivered e
      subst hg'
      exact ⟨hredelivered.now, hredelivered.once⟩
  | .error .cancelled, .inl hg' =>
      subst hg'
      exact ⟨le_rfl, Or.inl ⟨rfl, rfl⟩⟩
  | .error .cancelled, .inr ⟨_, hexec⟩ => exact hexec.redelivered e
  | .error (.exception _), ⟨_, .inl hg'⟩ =>
      subst hg'
      exact ⟨le_rfl, Or.inl ⟨rfl, rfl⟩⟩
  | .error (.exception _), ⟨_, .inr ⟨_, hexec⟩⟩ => exact hexec.redelivered e

end Deliveries

/-! ## What the tasks of a consumer may send -/

/-- The contract of `run`: it reclaims entries that were idle for `reclaim_idle_ms`, and gathers
jobs of entries it was given. -/
def givenMonitor (cfg : Config) : Contract consumerSig (List EntryId) :=
  .monitor
    (fun given c => match c with
      | .gather jobs => ∀ job ∈ jobs, job.messageId ∈ given
      | .xautoclaim _ _ _ minIdleTime _ _ => minIdleTime = cfg.reclaimIdleMs
      | _ => True)
    (fun _ _ => True) (fun given c r => receivedIds c r ++ given)

/-- The contract of a handler: it makes no deliveries. -/
abbrev quietMonitor : Contract consumerSig Unit :=
  .monitor (fun _ c => c.delivers = false) (fun _ _ => True) fun g _ _ => g

section Contracts

variable (cfg : Config)

/-- The jobs of a claimed batch are about its entries. -/
lemma reclaimTasks_given : ∀ (claimed : List (EntryId × Option Fields)) (given : List EntryId)
    (s : Self), (∀ m ∈ claimed, m.1 ∈ given) →
    (reclaimTasks cfg claimed).wp (givenMonitor cfg)
      (fun tasks given' _ => given' = given ∧ ∀ job ∈ tasks, job.messageId ∈ given)
      (fun _ _ _ => True) given s
  | [], given, _, _ => ⟨rfl, fun _ hjob => absurd hjob List.not_mem_nil⟩
  | (messageId, none) :: claimed, given, s, hmem => by
      rw [reclaimTasks, Co.wp_bind]
      refine send_wp trivial (fun a given' s' henv => ?_) (fun _ _ _ _ => trivial)
      rw [show given' = given from henv.2]
      exact reclaimTasks_given claimed given s' fun m hm => hmem m (List.mem_cons_of_mem _ hm)
  | (messageId, some fields) :: claimed, given, s, hmem => by
      rw [reclaimTasks, Co.wp_bind]
      have hrest : ∀ (deliveries : Option ℕ) (s' : Self),
          (do let tasks ← reclaimTasks cfg claimed
              return reclaimJob cfg messageId fields deliveries :: tasks).wp (givenMonitor cfg)
            (fun tasks given' _ => given' = given ∧ ∀ job ∈ tasks, job.messageId ∈ given)
            (fun _ _ _ => True) given s' := by
        intro deliveries s'
        rw [Co.wp_bind]
        refine Co.wp_mono (reclaimTasks_given claimed given s' fun m hm =>
          hmem m (List.mem_cons_of_mem _ hm)) ?_ (fun _ _ _ _ => trivial)
        rintro tasks _ _ ⟨rfl, htasks⟩
        refine ⟨rfl, fun job hjob => ?_⟩
        rcases List.mem_cons.mp hjob with rfl | hjob
        · rw [reclaimJob_messageId]
          exact hmem _ (List.mem_cons_self ..)
        · exact htasks job hjob
      rw [deliveryCount, wp_exceptException, Co.wp_bind]
      refine send_wp trivial (fun rows given' s' henv => ?_) (fun e given' s' henv => ?_)
      · rw [show given' = given from henv.2]
        exact hrest rows.head? s'
      · rw [show given' = given from henv.2]
        cases e with
        | cancelled => trivial
        | exception e => exact hrest none s'

/-- A batch that was given is gathered, or nothing is. -/
lemma gatherTasks_given {given : List EntryId} {tasks : List Job} {s : Self}
    (htasks : ∀ job ∈ tasks, job.messageId ∈ given) :
    (gatherTasks tasks).wp (givenMonitor cfg) (fun _ _ _ => True) (fun _ _ _ => True) given s := by
  rw [gatherTasks]
  split
  · trivial
  · exact send_wp htasks (fun _ _ _ _ => trivial) fun _ _ _ _ => trivial

lemma scanKeeps_given : ScanKeeps cfg (givenMonitor cfg) fun _ => True := by
  intro startId given s _
  refine send_wp rfl (fun answer given' s' henv => ?_) (fun _ _ _ _ => trivial)
  have hgiven : given' = answer.2.map Prod.fst ++ given := henv.2
  refine takeOver_wp cfg (fun _ _ => trivial) (fun s => ?_) s'
  rw [handleReclaimed, Co.wp_bind]
  have hmem : ∀ m ∈ answer.2, m.1 ∈ given' := by
    intro m hm
    rw [hgiven]
    exact List.mem_append_left _ (List.mem_map_of_mem hm)
  refine Co.wp_mono (reclaimTasks_given cfg answer.2 given' s hmem) ?_ (fun _ _ _ _ => trivial)
  rintro tasks _ _ ⟨rfl, htasks⟩
  exact gatherTasks_given cfg htasks

lemma readKeeps_given : ReadKeeps cfg (givenMonitor cfg) fun _ => True := by
  intro given s _
  refine send_wp trivial (fun response given' s' henv => ?_) (fun _ _ _ _ => trivial)
  have hgiven : given' = (batchEntries response).map Prod.fst ++ given := henv.2
  refine gatherTasks_given cfg fun job hjob => ?_
  rw [batchJobs_eq] at hjob
  obtain ⟨m, hm, rfl⟩ := List.mem_map.mp hjob
  rw [hgiven]
  exact List.mem_append_left _ (List.mem_map_of_mem hm)

variable [StandardLibrary]

lemma run_given (fuel : ℕ) : (run cfg fuel).Keeps (givenMonitor cfg) fun _ _ => True := by
  refine run_keeps (I := fun _ => True) cfg (fun _ _ => trivial) ?_ (scanKeeps_given cfg)
    (readKeeps_given cfg) (fun delay => ?_) fuel
  · exact send_keeps (fun _ _ _ => trivial) fun _ _ _ _ _ _ _ => trivial
  · exact send_keeps (fun _ _ _ => trivial) fun _ _ _ _ _ _ _ => trivial

omit [StandardLibrary] in
lemma IsDisposal.quiet {cfg : Config} {messageId : EntryId} {letter : String} {c : Command}
    (h : IsDisposal cfg messageId letter c) : c.delivers = false := by
  cases h <;> rfl

/-- A job makes no deliveries. -/
lemma start_quiet (job : Job) :
    (job.start cfg).SendsOnly fun (c : Command) => c.delivers = false := by
  cases job with
  | handleMessage messageId fields =>
      cases hread : readEnvelope fields with
      | error e =>
          exact (handleMessage_sends_invalid cfg messageId hread).mono fun c hc => hc.quiet
      | ok envelope =>
          obtain ⟨normalizedPayload, action, payload⟩ := envelope
          refine (handleMessage_sends cfg messageId action payload hread).mono fun c hc => ?_
          cases hc with
          | disposal c h => exact h.quiet
          | acquire | processMessage | sleep => rfl
  | deadLetterReclaimed messageId fields deliveries =>
      exact (deadLetterReclaimed_sends cfg noRequestId messageId fields deliveries).mono
        fun c hc => hc.quiet

end Contracts

/-! ## The invariant -/

/-- The tasks of a process keep their contracts, and its handlers are about entries it was given,
in the delivery in which it was given them. -/
structure Worker.Receiving (cfg : Config) (deliveries : EntryId → ℕ) (w : Worker) : Prop where
  le : ∀ e, w.received e ≤ deliveries e
  main : ∃ given, w.main.wp (givenMonitor cfg) (fun _ _ _ => True) (fun _ _ _ => True) given
    ∧ ∀ e ∈ given, 1 ≤ w.received e
  delivery : ∀ x ∈ w.handlers,
    x.delivery = w.received x.job.messageId ∧ 1 ≤ w.received x.job.messageId
  quiet : ∀ x ∈ w.handlers, ∀ p, x.program = some p →
    p.wp quietMonitor (fun _ _ _ => True) (fun _ _ _ => True) ()

/-- **The invariant** of the deliveries. -/
structure System.Spaced {ι : Type} (d : Deployment ι) (sys : System ι) (clock : Clock) :
    Prop where
  /-- The clock has the time of the last delivery. -/
  latest : ∀ e, clock.delivered e (sys.group.deliveries e) = sys.group.deliveredAt e
  /-- A delivery that was followed by another one was idle for some consumer's bound. -/
  spaced : ∀ e n, 1 ≤ n → n < sys.group.deliveries e →
    ∃ j, clock.delivered e n + (d.cfg j).reclaimIdleMs ≤ sys.group.now
  workers : ∀ i w, sys.workers i = some w → w.Receiving (d.cfg i) sys.group.deliveries
  /-- No two processes hold the same delivery. -/
  apart : ∀ i j w w' e, i ≠ j → sys.workers i = some w → sys.workers j = some w' →
    w.received e = w'.received e → w.received e = 0

section Workers

variable {cfg : Config} {deliveries deliveries' : EntryId → ℕ} {w : Worker}

lemma Worker.Receiving.mono (hw : w.Receiving cfg deliveries)
    (hgrow : ∀ e, deliveries e ≤ deliveries' e) : w.Receiving cfg deliveries' :=
  ⟨fun e => (hw.le e).trans (hgrow e), hw.main, hw.delivery, hw.quiet⟩

/-- The task of `run` runs to an await. -/
lemma Worker.Receiving.runMain {given : List EntryId} {received : EntryId → ℕ}
    {p : Program consumerSig Unit}
    (hp : p.wp (givenMonitor cfg) (fun _ _ _ => True) (fun _ _ _ => True) given)
    (hgiven : ∀ e ∈ given, 1 ≤ received e) (hle : ∀ e, received e ≤ deliveries e) :
    (w.runMain received p).Receiving cfg deliveries := by
  have hspawn : ∀ x ∈ Worker.spawn received p, x.program = none
      ∧ x.delivery = received x.job.messageId ∧ 1 ≤ received x.job.messageId := by
    intro x hx
    rw [Worker.spawn] at hx
    split at hx
    · rename_i jobs hjobs
      obtain ⟨job, hjob, rfl⟩ := List.mem_map.mp hx
      refine ⟨rfl, rfl, hgiven _ ?_⟩
      cases p with
      | done r s => cases hjobs
      | spent => cases hjobs
      | await c s k =>
          obtain rfl : c = .gather jobs := Option.some.inj hjobs
          exact hp.1 job hjob
    · cases hx
  refine ⟨hle, ⟨given, hp, hgiven⟩, fun x hx => (hspawn x hx).2, fun x hx p hprog => ?_⟩
  rw [(hspawn x hx).1] at hprog
  cases hprog

/-- A handler runs to an await. -/
lemma Worker.Receiving.runHandler (hw : w.Receiving cfg deliveries) {j : ℕ} {x : Handler}
    (hj : w.handlers[j]? = some x) {p : Program consumerSig Unit}
    (hp : p.wp quietMonitor (fun _ _ _ => True) (fun _ _ _ => True) ()) :
    (w.runHandler j x p).Receiving cfg deliveries := by
  have hx := hw.delivery x (List.mem_of_getElem? hj)
  refine ⟨hw.le, hw.main, fun y hy => ?_, fun y hy q hq => ?_⟩
  · rcases List.mem_or_eq_of_mem_set hy with hy | rfl
    · exact hw.delivery y hy
    · exact hx
  · rcases List.mem_or_eq_of_mem_set hy with hy | rfl
    · exact hw.quiet y hy q hq
    · obtain rfl : p = q := Option.some.inj hq
      exact hp

end Workers

section Steps

variable {ι : Type} {d : Deployment ι} {sys sys' : System ι} {clock : Clock} {i : ι}

/-- The command reclaims, if it does, by the bound of one of the consumers. -/
def Deployment.Reclaims (d : Deployment ι) (c : Command) : Prop :=
  ∀ name groupname consumername minIdleTime startId count,
    c = .xautoclaim name groupname consumername minIdleTime startId count →
      ∃ i, minIdleTime = (d.cfg i).reclaimIdleMs

/-- **The times after a step**, which delivers each entry at most once more, and again only when
it was idle for the bound of a consumer. -/
lemma System.Spaced.times (hs : sys.Spaced d clock) {c : Command} {g : Group}
    (hg : ∀ e, sys.group.Redelivered c e g) (hc : d.Reclaims c) :
    (∀ e, (clock.next sys.group g).delivered e (g.deliveries e) = g.deliveredAt e)
      ∧ ∀ e n, 1 ≤ n → n < g.deliveries e →
        ∃ j, (clock.next sys.group g).delivered e n + (d.cfg j).reclaimIdleMs ≤ g.now := by
  refine ⟨fun e => if_pos rfl, fun e n hpos hlt => ?_⟩
  have hdelivered : (clock.next sys.group g).delivered e n = clock.delivered e n := if_neg hlt.ne
  rw [hdelivered]
  have hold : n < sys.group.deliveries e →
      ∃ j, clock.delivered e n + (d.cfg j).reclaimIdleMs ≤ g.now := by
    intro hn
    obtain ⟨j, hj⟩ := hs.spaced e n hpos hn
    exact ⟨j, hj.trans (hg e).now⟩
  rcases (hg e).once with ⟨hcount, -⟩ | ⟨-, hcount, hidle⟩
  · rw [hcount] at hlt
    exact hold hlt
  · rw [hcount] at hlt
    rcases Nat.lt_or_ge n (sys.group.deliveries e) with hn | hlast
    · exact hold hn
    · -- the delivery that was the last one until now
      obtain rfl : n = sys.group.deliveries e := by omega
      obtain ⟨name, groupname, consumername, minIdleTime, startId, count, heq, hle⟩ := hidle hpos
      obtain ⟨i, hi⟩ := hc _ _ _ _ _ _ heq
      refine ⟨i, ?_⟩
      rw [hs.latest e, ← hi]
      exact hle.trans (hg e).now

lemma Group.Redelivered.grow {c : Command} {g g' : Group} (hg : ∀ e, g.Redelivered c e g')
    (e : EntryId) : g.deliveries e ≤ g'.deliveries e := by
  rcases (hg e).once with ⟨hcount, -⟩ | ⟨-, hcount, -⟩ <;> omega

/-- A step of what is outside the processes. -/
lemma System.Spaced.outside (hs : sys.Spaced d clock) {g : Group}
    (hg : ∀ e, sys.group.Redelivered .acquire e g) :
    System.Spaced d ⟨g, sys.workers⟩ (clock.next sys.group g) := by
  obtain ⟨hlatest, hspaced⟩ := hs.times hg nofun
  exact ⟨hlatest, hspaced, fun i w hw => (hs.workers i w hw).mono (Group.Redelivered.grow hg),
    hs.apart⟩

variable [DecidableEq ι]

/-- A step of process `i`. -/
lemma System.Spaced.put (hs : sys.Spaced d clock) {c : Command} {g : Group} {w : Option Worker}
    (hg : ∀ e, sys.group.Redelivered c e g) (hc : d.Reclaims c)
    (hw : ∀ w', w = some w' → w'.Receiving (d.cfg i) g.deliveries)
    (hapart : ∀ w', w = some w' → ∀ j w'' e, j ≠ i → sys.workers j = some w'' →
      w'.received e = w''.received e → w'.received e = 0) :
    (sys.put g i w).Spaced d (clock.next sys.group g) := by
  obtain ⟨hlatest, hspaced⟩ := hs.times hg hc
  refine ⟨hlatest, hspaced, fun j w' hj => ?_, System.Apart.put hs.apart hapart⟩
  rcases System.put_workers hj with ⟨rfl, hw'⟩ | ⟨-, hw'⟩
  · exact hw w' hw'
  · exact (hs.workers j w' hw').mono (Group.Redelivered.grow hg)

/-- A step of process `i` that gives it no entries. -/
lemma System.Spaced.put_same (hs : sys.Spaced d clock) {g : Group} {w w' : Worker}
    (hi : sys.workers i = some w) (hg : ∀ e, sys.group.Redelivered .acquire e g)
    (hreceived : w'.received = w.received) (hw : w'.Receiving (d.cfg i) g.deliveries) :
    (sys.put g i (some w')).Spaced d (clock.next sys.group g) := by
  refine hs.put hg nofun ?_ ?_
  · rintro _ ⟨⟩
    exact hw
  · rintro _ ⟨⟩
    exact System.Apart.same hs.apart hi hreceived

/-- An await of the task of process `i` ends. -/
lemma System.Spaced.runMain (hs : sys.Spaced d clock) {replies : Replies} {w : Worker}
    (hi : sys.workers i = some w) {c : Command} {s : Self}
    {k : Except Raised c.Answer → Self → Program consumerSig Unit}
    (hmain : w.main = .await (S := consumerSig) c s k) {r : Except Raised c.Answer} {g : Group}
    (hreply : sys.group.Reply d replies c r g) (events : List Event) :
    (sys.put (g.record events) i (some (w.runMain
      (fun e => if e ∈ receivedIds c r then g.deliveries e else w.received e)
      (k r w.self)))).Spaced d (clock.next sys.group (g.record events)) := by
  have hwi := hs.workers i w hi
  obtain ⟨given, hwp, hgiven⟩ := hwi.main
  rw [hmain] at hwp
  have hg : ∀ e, sys.group.Redelivered c e (g.record events) := fun e =>
    ⟨(hreply.redelivered e).now, (hreply.redelivered e).once⟩
  have hc : d.Reclaims c := by
    rintro name groupname consumername minIdleTime startId count rfl
    exact ⟨i, hwp.1⟩
  have hnext := hwp.2 r _ w.self ⟨trivial, rfl⟩
  refine hs.put hg hc ?_ ?_
  · rintro _ ⟨⟩
    refine Worker.Receiving.runMain hnext (fun e he => ?_) fun e => ?_
    · split
      · have hcount := hreply.counted ‹_›
        omega
      · exact hgiven e ((List.mem_append.mp he).resolve_left ‹_›)
    · split
      · exact le_rfl
      · exact (hwi.le e).trans (hreply.deliveries_le e)
  · rintro _ ⟨⟩
    exact System.Apart.received hs.apart (fun j w' hj => (hs.workers j w' hj).le) hi hreply

variable [StandardLibrary] {replies : Replies}

/-- **The step lemma.** -/
theorem System.Spaced.step (hs : sys.Spaced d clock) (h : sys.Step d replies sys') :
    sys'.Spaced d (clock.next sys.group sys'.group) := by
  have hsame : ∀ e, sys.group.Redelivered .acquire e sys.group := fun e =>
    ⟨le_rfl, Or.inl ⟨rfl, rfl⟩⟩
  cases h with
  | produce e fields hnew => exact hs.outside fun e => ⟨le_rfl, Or.inl ⟨rfl, rfl⟩⟩
  | trim e => exact hs.outside fun e => ⟨le_rfl, Or.inl ⟨rfl, rfl⟩⟩
  | tick ms => exact hs.outside fun e => ⟨Nat.le_add_right .., Or.inl ⟨rfl, rfl⟩⟩
  | start i fuel monotonic hoff =>
      refine hs.put hsame nofun ?_ ?_
      · rintro _ ⟨⟩
        exact Worker.Receiving.runMain (run_given (d.cfg i) fuel [] _ trivial) nofun
          fun _ => Nat.zero_le _
      · rintro _ ⟨⟩ j w' e hji hj heq
        rfl
  | crash i => exact hs.put hsame nofun nofun nofun
  | stop i w hw =>
      have hwi := hs.workers i w hw
      exact hs.put_same hw hsame rfl ⟨hwi.le, hwi.main, hwi.delivery, hwi.quiet⟩
  | clock i w monotonic hw =>
      have hwi := hs.workers i w hw
      exact hs.put_same hw hsame rfl ⟨hwi.le, hwi.main, hwi.delivery, hwi.quiet⟩
  | main i w c s k r g hw hmain hreply hgathered => exact hs.runMain hw hmain hreply _
  | handlerStart i w j x hw hj hnew =>
      refine hs.put_same hw (fun e => ⟨le_rfl, Or.inl ⟨rfl, rfl⟩⟩) rfl ?_
      exact (hs.workers i w hw).runHandler hj (start_quiet (d.cfg i) x.job () w.self trivial)
  | handlerCancel i w j x hw hj hnew =>
      exact hs.put_same hw hsame rfl ((hs.workers i w hw).runHandler hj trivial)
  | handler i w j x c s k r g hw hj hprog hreply hslot =>
      have hwi := hs.workers i w hw
      have hwp := hwi.quiet x (List.mem_of_getElem? hj) _ hprog
      have hg : ∀ e, sys.group.Redelivered .acquire e
          (g.record (sent x.delivery (k r (grant c r w.self)))) := by
        intro e
        refine ⟨(hreply.redelivered e).now, Or.inl ?_⟩
        exact (hreply.redelivered e).once.resolve_right fun h => by
          rw [hwp.1] at h
          exact absurd h.1 nofun
      refine hs.put_same hw hg rfl ?_
      refine (hwi.runHandler hj (hwp.2 r () _ ⟨trivial, rfl⟩)).mono ?_
      exact Group.Redelivered.grow hg

/-- **The run lemma.** -/
theorem System.Timed.spaced {ok : System ι → Clock → Prop}
    (h : sys.Timed (System.Step d replies) ok clock) : sys.Spaced d clock := by
  induction h with
  | init stream hok =>
      exact ⟨fun _ => rfl, fun _ _ _ h => absurd h (Nat.not_lt_zero _), nofun, nofun⟩
  | step _ hstep _ ih => exact ih.step hstep

omit [DecidableEq ι] [StandardLibrary] in
lemma System.Timed.last {step : System ι → System ι → Prop} {ok : System ι → Clock → Prop}
    (h : sys.Timed step ok clock) : ok sys clock := by
  cases h with
  | init stream hok => exact hok
  | step h hstep hok => exact hok

omit [DecidableEq ι] [StandardLibrary] in
/-- A handling that is within its time is about the last delivery of its entry. -/
lemma System.Spaced.inside (hs : sys.Spaced d clock) (hshort : d.Short Clock.delivered sys clock)
    {e : EntryId} {n : ℕ} (h : sys.Inside i e n) :
    ∃ w, sys.workers i = some w ∧ w.received e = sys.group.deliveries e ∧ 1 ≤ w.received e := by
  have hin := hshort i e n h
  obtain ⟨w, hw, x, hx, rfl, rfl, -, -⟩ := h
  have hwi := hs.workers i w hw
  obtain ⟨hdelivery, hpos⟩ := hwi.delivery x hx
  refine ⟨w, hw, ?_, hpos⟩
  by_contra hne
  have hlt : x.delivery < sys.group.deliveries x.job.messageId := by
    have hle := hwi.le x.job.messageId
    omega
  obtain ⟨j, hj⟩ := hs.spaced _ _ (hdelivery ▸ hpos) hlt
  have hnow := hin j
  omega

/-- **No two consumers handle one entry at once**, in any run whose states all meet the condition
that an entry is handled within `reclaim_idle_ms` of its delivery.  Processes may die, and any
await may fail. -/
theorem idle_bound (h : sys.Timed (System.Step d replies) (d.Short Clock.delivered) clock) :
    ∀ e i j m n, sys.Inside i e m → sys.Inside j e n → i = j := by
  intro e i j m n hi hj
  have hs := h.spaced
  obtain ⟨w, hw, hlast, hpos⟩ := hs.inside h.last hi
  obtain ⟨w', hw', hlast', -⟩ := hs.inside h.last hj
  by_contra hij
  have hzero := hs.apart i j w w' e hij hw hw' (hlast.trans hlast'.symm)
  omega

end Steps

/-! ## Two consumers with one slot each -/

section Pair

attribute [local instance] plainLibrary

/-- A consumer with one slot that takes over entries that were idle for two milliseconds. -/
def slotConfig : Config := { soloConfig with concurrency := 1, reclaimIdleMs := 2 }

/-- Two such consumers. -/
def pair : Deployment Bool := ⟨"events", "users", fun _ => slotConfig, fun _ => rfl, fun _ => rfl⟩

/-- A stream with two entries. -/
def twoPings : EntryId → Option Fields := fun e =>
  if e = ⟨1, 0⟩ ∨ e = ⟨2, 0⟩ then some pingFields else none

/-- The handlers that have not ended. -/
def unended (sys : System Bool) : List (EntryId × ℕ) :=
  [true, false].flatMap fun i => match sys.workers i with
    | none => []
    | some w => w.handlers.filterMap fun x => match x.program with
        | some (.done _ _) => none
        | _ => some (x.job.messageId, x.delivery)

/-- The timing assumption, evaluated. -/
def inTime (since : Clock → EntryId → ℕ → ℕ) (sys : System Bool) (clock : Clock) : Bool :=
  (unended sys).all fun m => decide (.started m.1 m.2 ∈ sys.group.history →
    sys.group.now < since clock m.1 m.2 + 2)

lemma short_of_inTime {since : Clock → EntryId → ℕ → ℕ} {sys : System Bool} {clock : Clock}
    (h : inTime since sys clock = true) : pair.Short since sys clock := by
  rintro i e n ⟨w, hw, x, hx, rfl, rfl, hended, hstarted⟩ j
  have hmem : (x.job.messageId, x.delivery) ∈ unended sys := by
    refine List.mem_flatMap.mpr ⟨i, by cases i <;> decide, ?_⟩
    rw [hw]
    refine List.mem_filterMap.mpr ⟨x, hx, ?_⟩
    split
    · rename_i r s hdone
      exact absurd ⟨r, s, hdone⟩ hended
    · rfl
  exact of_decide_eq_true (List.all_eq_true.mp h _ hmem) hstarted

/-- The second consumer starts while the first one handles an entry. -/
theorem idle_bound_pair : ∃ (sys : System Bool) (clock : Clock),
    sys.Timed (System.Step pair countReplies) (pair.Short Clock.delivered) clock
      ∧ sys.Inside true ⟨1, 0⟩ 1 ∧ ∀ i n, sys.Inside i ⟨1, 0⟩ n → i = true := by
  have h0 : System.Timed (System.Step pair countReplies) (pair.Short Clock.delivered)
      ⟨Group.init twoPings, fun _ => none⟩ Clock.zero := .init _ (short_of_inTime rfl)
  have h1 := h0.step (.start _ true 2 0 rfl) (short_of_inTime rfl)
  have h2 := h1.step (.main _ true _ (.xgroupCreate "events" "users" "0" true) _ _ (.ok ()) _ rfl
    rfl ⟨trivial, _, rfl, rfl⟩ nofun) (short_of_inTime rfl)
  have h3 := h2.step (.main _ true _ (.xautoclaim "events" "users" "worker" 2 .zero 10) _ _
    (.ok (.zero, [])) _ rfl rfl ⟨trivial, _, ⟨List.nodup_nil, nofun, rfl⟩, rfl⟩ nofun)
    (short_of_inTime rfl)
  have hnew : ∀ m ∈ [((⟨1, 0⟩ : EntryId), pingFields)],
      (Group.init twoPings).deliveries m.1 = 0 ∧ twoPings m.1 = some m.2 :=
    List.forall_mem_singleton.mpr ⟨rfl, rfl⟩
  have h4 := h3.step (.main _ true _ (.xreadgroup "users" "worker" "events" 10 5000) _ _
    (.ok [("events", [(⟨1, 0⟩, pingFields)])]) _ rfl rfl
    ⟨trivial, _, ⟨List.nodup_singleton _, hnew, rfl⟩, rfl⟩ nofun) (short_of_inTime rfl)
  have h5 := h4.step (.handlerStart _ true _ 0 _ rfl rfl rfl) (short_of_inTime rfl)
  have h6 := h5.step (.handler _ true _ 0 _ .acquire _ _ (.ok ()) _ rfl rfl rfl
    ⟨trivial, _, rfl, rfl⟩ (show 0 < 1 by decide)) (short_of_inTime rfl)
  have h7 := h6.step (.tick _ 1) (short_of_inTime rfl)
  have h8 := h7.step (.start _ false 2 0 rfl) (short_of_inTime rfl)
  refine ⟨_, _, h8, ?inside, fun i n hi => idle_bound h8 _ _ _ _ _ hi ?inside⟩
  refine ⟨_, rfl, _, List.mem_cons_self .., rfl, rfl, ?_, List.mem_cons_self ..⟩
  rintro ⟨r, s, hdone⟩
  cases hdone

/-- The awaits of a consumer that claims the second entry in its first scan. -/
lemma claimer_program : ∃ s₀ k₀ s₁ k₁ s₂ k₂ s₃ k₃,
    run slotConfig 2 (Self.init slotConfig 0)
        = .await (S := consumerSig) (.xgroupCreate "events" "users" "0" true) s₀ k₀
      ∧ k₀ (.ok ()) s₀
        = .await (S := consumerSig) (.xautoclaim "events" "users" "worker" 2 .zero 10) s₁ k₁
      ∧ k₁ (.ok (.zero, [(⟨2, 0⟩, some pingFields)])) s₁
        = .await (S := consumerSig) (.xpendingRange "events" "users" ⟨2, 0⟩ ⟨2, 0⟩ 1) s₂ k₂
      ∧ k₂ (.ok [2]) s₂
        = .await (S := consumerSig) (.gather [.handleMessage ⟨2, 0⟩ pingFields]) s₃ k₃
      ∧ s₃.freeSlots = 1 :=
  ⟨_, _, _, _, _, _, _, _, rfl, rfl, rfl, rfl, rfl⟩

/-- The first awaits of a handler. -/
lemma handler_program (e : EntryId) (s : Self) : ∃ s' k rid s'' k',
    (Job.handleMessage e pingFields).start slotConfig s = .await (S := consumerSig) .acquire s' k
      ∧ k (.ok ()) (grant .acquire (.ok ()) s')
        = .await (S := consumerSig) (.processMessage rid e "ping" []) s'' k'
      ∧ s'.freeSlots = s.freeSlots :=
  ⟨_, _, _, _, _, rfl, rfl, rfl⟩

/-- The first consumer reads both entries and handles them one after the other, each within a
millisecond; then the second consumer finds the second entry idle for two. -/
theorem handled_twice_at_once : ∃ (sys : System Bool) (clock : Clock),
    sys.Timed (System.Calm pair countReplies) (pair.Short Clock.started) clock
      ∧ sys.Inside true ⟨2, 0⟩ 1 ∧ sys.Inside false ⟨2, 0⟩ 2 := by
  have h0 : System.Timed (System.Calm pair countReplies) (pair.Short Clock.started)
      ⟨Group.init twoPings, fun _ => none⟩ Clock.zero := .init _ (short_of_inTime rfl)
  have h1 := h0.step (.start _ true 2 0 rfl) (short_of_inTime rfl)
  have h2 := h1.step (.main _ true _ (.xgroupCreate "events" "users" "0" true) _ _ (.ok ()) _ rfl
    rfl ⟨trivial, _, rfl, rfl⟩ nofun (Or.inl ⟨_, rfl⟩)) (short_of_inTime rfl)
  have h3 := h2.step (.main _ true _ (.xautoclaim "events" "users" "worker" 2 .zero 10) _ _
    (.ok (.zero, [])) _ rfl rfl ⟨trivial, _, ⟨List.nodup_nil, nofun, rfl⟩, rfl⟩ nofun
    (Or.inl ⟨_, rfl⟩)) (short_of_inTime rfl)
  have hnew : ∀ m ∈ [((⟨1, 0⟩ : EntryId), pingFields), (⟨2, 0⟩, pingFields)],
      (Group.init twoPings).deliveries m.1 = 0 ∧ twoPings m.1 = some m.2 := by
    simp only [List.forall_mem_cons, List.not_mem_nil, false_implies, implies_true, and_true]
    exact ⟨⟨rfl, rfl⟩, rfl, rfl⟩
  have h4 := h3.step (.main _ true _ (.xreadgroup "users" "worker" "events" 10 5000) _ _
    (.ok [("events", [(⟨1, 0⟩, pingFields), (⟨2, 0⟩, pingFields)])]) _ rfl rfl
    ⟨trivial, _, ⟨by decide, hnew, rfl⟩, rfl⟩ nofun (Or.inl ⟨_, rfl⟩)) (short_of_inTime rfl)
  -- the first entry has the slot
  have h5 := h4.step (.handlerStart _ true _ 0 _ rfl rfl rfl) (short_of_inTime rfl)
  have h6 := h5.step (.handler _ true _ 0 _ .acquire _ _ (.ok ()) _ rfl rfl rfl
    ⟨trivial, _, rfl, rfl⟩ (show 0 < 1 by decide) (Or.inl ⟨_, rfl⟩)) (short_of_inTime rfl)
  have h7 := h6.step (.handlerStart _ true _ 1 _ rfl rfl rfl) (short_of_inTime rfl)
  have h8 := h7.step (.outside (.tick _ 1) rfl) (short_of_inTime rfl)
  have h9 := h8.step (.handler _ true _ 0 _ (.processMessage "1-0" ⟨1, 0⟩ "ping" []) _ _ (.ok none)
    _ rfl rfl rfl ⟨trivial, _, rfl, rfl⟩ trivial (Or.inl ⟨_, rfl⟩)) (short_of_inTime rfl)
  have h10 := h9.step (.handler _ true _ 0 _ (.xack "events" "users" ⟨1, 0⟩) _ _ (.ok ()) _ rfl rfl
    rfl ⟨trivial, _, rfl, rfl⟩ trivial (Or.inl ⟨_, rfl⟩)) (short_of_inTime rfl)
  -- the second one gets it now
  have h11 := h10.step (.handler _ true _ 1 _ .acquire _ _ (.ok ()) _ rfl rfl rfl
    ⟨trivial, _, rfl, rfl⟩ (show 0 < 1 by decide) (Or.inl ⟨_, rfl⟩)) (short_of_inTime rfl)
  have h12 := h11.step (.outside (.tick _ 1) rfl) (short_of_inTime rfl)
  obtain ⟨s₀, k₀, s₁, k₁, s₂, k₂, s₃, k₃, hrun, hcreate, hclaim, hcount, hslots⟩ := claimer_program
  have h13 := h12.step (.start_to _ false 2 0 rfl hrun) (short_of_inTime rfl)
  have h14 := h13.step (.main_to _ false _ (.xgroupCreate "events" "users" "0" true) _ _ _ (.ok ())
    _ rfl rfl ⟨trivial, _, rfl, rfl⟩ nofun (Or.inl ⟨_, rfl⟩) hcreate) (short_of_inTime rfl)
  -- it was delivered two milliseconds ago
  have h15 := h14.step (.main_to _ false _ (.xautoclaim "events" "users" "worker" 2 .zero 10) _ _ _
    (.ok (.zero, [(⟨2, 0⟩, some pingFields)])) _ rfl rfl ⟨trivial, _, ⟨List.nodup_singleton _,
      List.forall_mem_singleton.mpr ⟨rfl, Nat.le_refl 2, rfl⟩, rfl⟩, rfl⟩ nofun (Or.inl ⟨_, rfl⟩)
    hclaim) (short_of_inTime rfl)
  have h16 := h15.step (.main_to _ false _ (.xpendingRange "events" "users" ⟨2, 0⟩ ⟨2, 0⟩ 1) _ _ _
    (.ok [2]) _ rfl rfl ⟨Or.inl rfl, _, rfl, rfl⟩ nofun (Or.inl ⟨_, rfl⟩) hcount)
    (short_of_inTime rfl)
  obtain ⟨s₄, k₄, rid, s₅, k₅, hstart, hacquire, hsame⟩ := handler_program ⟨2, 0⟩ s₃
  have h17 := h16.step (.handlerStart_to _ false _ 0 _ _ rfl rfl rfl hstart) (short_of_inTime rfl)
  have h18 := h17.step (.handler_to _ false _ 0 _ .acquire _ _ _ (.ok ()) _ rfl rfl rfl
    ⟨trivial, _, rfl, rfl⟩ (show 0 < s₄.freeSlots by omega) (Or.inl ⟨_, rfl⟩) hacquire)
    (short_of_inTime rfl)
  refine ⟨_, _, h18, ⟨_, rfl, _, List.mem_cons_of_mem _ (List.mem_cons_self ..), rfl, rfl, ?_, ?_⟩,
    ⟨_, rfl, _, List.mem_cons_self .., rfl, rfl, ?_, ?_⟩⟩
  · rintro ⟨r, s, hdone⟩
    cases hdone
  · exact List.mem_cons_of_mem _ (List.mem_cons_of_mem _ (List.mem_cons_self ..))
  · rintro ⟨r, s, hdone⟩
    cases hdone
  · exact List.mem_cons_self ..

end Pair

end Atsig
