import AtsigCommon.Redis.Consumer
import Mathlib.Logic.Function.Basic

/-!
# A consumer group

Any number of consumers read one stream in one group.  `Group` is the Redis side: the stream, how
often Redis delivered each entry, which entries are pending, the dead letter queue, and the
history of what has happened.  `Worker` is one consumer process: the object, the task of `run`,
and the handlers that `run` is gathering.  `System.Step` is one atomic step of the whole:

* Redis (or the service's `process_message`) executes the command a task waits on and the task
  runs to its next await; or the task gets an exception or a cancellation instead, and the
  command may have been executed all the same;
* a process starts, or dies and leaves everything it held behind;
* `stop()` is called, time passes, a producer appends, the stream is trimmed.

`Replies` is what the model leaves open about `XPENDING`: which rows Redis may answer.
-/

namespace Atsig

open Coroutine Python

/-- What has happened in the group. -/
inductive Event
  /-- Redis delivered the entry, for the `delivery`-th time. -/
  | delivered (e : EntryId) (delivery : ℕ)
  /-- `XAUTOCLAIM` gave the entry without fields: it was trimmed from the stream. -/
  | trimmed (e : EntryId)
  /-- `process_message` was entered for the entry, in its `delivery`-th delivery. -/
  | started (e : EntryId) (delivery : ℕ)
  /-- `process_message` returned normally. -/
  | processed (e : EntryId)
  /-- An `XADD` of the entry to the dead letter queue completed. -/
  | deadLettered (e : EntryId)
  /-- A consumer sent an `XACK` of the entry. -/
  | ackSent (e : EntryId)
  /-- Redis executed an `XACK` of the entry. -/
  | acked (e : EntryId)
  deriving DecidableEq

/-- The events of a command being sent; the others come from Redis and `process_message`. -/
def Event.isSent : Event → Bool
  | .started .. | .ackSent _ => true
  | _ => false

/-- Consumers that read one stream in one group. -/
structure Deployment (ι : Type) where
  stream : String
  group : String
  cfg : ι → Config
  streamName_eq : ∀ i, (cfg i).streamName = stream
  groupName_eq : ∀ i, (cfg i).groupName = group

/-- The Redis side of the group.  `history` has the newest event first. -/
structure Group where
  stream : EntryId → Option Fields
  deliveries : EntryId → ℕ
  deliveredAt : EntryId → ℕ
  pending : EntryId → Bool
  dlq : List (String × DlqFields)
  now : ℕ
  history : List Event

namespace Group

/-- Nothing delivered yet. -/
def init (stream : EntryId → Option Fields) : Group where
  stream := stream
  deliveries _ := 0
  deliveredAt _ := 0
  pending _ := false
  dlq := []
  now := 0
  history := []

/-- Add to the history. -/
def record (g : Group) (events : List Event) : Group :=
  { g with history := events ++ g.history }

/-- Deliver entries once more each. -/
def deliver (g : Group) (ids : List EntryId) : Group where
  stream := g.stream
  deliveries e := if e ∈ ids then g.deliveries e + 1 else g.deliveries e
  deliveredAt e := if e ∈ ids then g.now else g.deliveredAt e
  pending e := decide (e ∈ ids) || g.pending e
  dlq := g.dlq
  now := g.now
  history := ids.map (fun e => .delivered e (g.deliveries e + 1)) ++ g.history

/-- Remove an entry from the pending ones. -/
def ack (g : Group) (e : EntryId) : Group where
  stream := g.stream
  deliveries := g.deliveries
  deliveredAt := g.deliveredAt
  pending e' := decide (e' ≠ e) && g.pending e'
  dlq := g.dlq
  now := g.now
  history := .acked e :: g.history

end Group

/-- Which rows `XPENDING` may answer about an entry. -/
abbrev Replies := Group → EntryId → Except Raised (List ℕ) → Prop

variable {ι : Type}

section Commands

variable (d : Deployment ι)

/-- Redis executes a command and answers.  `XREADGROUP` delivers entries that were never
delivered; `XAUTOCLAIM` delivers pending entries again, those that are idle long enough, and
gives what the stream still holds of them.  Commands that are not Redis calls change nothing
here. -/
def Group.Exec (g : Group) : (c : Command) → c.Answer → Group → Prop
  | .xreadgroup .., response, g' =>
      ((batchEntries response).map Prod.fst).Nodup
        ∧ (∀ m ∈ batchEntries response, g.deliveries m.1 = 0 ∧ g.stream m.1 = some m.2)
        ∧ g' = g.deliver ((batchEntries response).map Prod.fst)
  | .xautoclaim _ _ _ minIdleTime _ _, (_, claimed), g' =>
      (claimed.map Prod.fst).Nodup
        ∧ (∀ m ∈ claimed, g.pending m.1 ∧ g.deliveredAt m.1 + minIdleTime ≤ g.now
            ∧ g.stream m.1 = m.2)
        ∧ g' = g.deliver (claimed.map Prod.fst)
  | .xadd name fields _, _, g' => g' = { g with dlq := g.dlq ++ [(name, fields)] }
  | .xack name groupname e, _, g' =>
      g' = if name = d.stream ∧ groupname = d.group then g.ack e else g
  | _, _, g' => g' = g

/-- The events of a command that has completed. -/
def completed : (c : Command) → c.Answer → List Event
  | .processMessage _ e _ _, _ => [.processed e]
  | .xadd name fields _, _ =>
      if name = dlqName d.stream then [.deadLettered fields.originalMessageId] else []
  | .xautoclaim .., (_, claimed) =>
      claimed.filterMap fun m => if m.2.isNone then some (.trimmed m.1) else none
  | _, _ => []

/-- The answers of `XPENDING` are those `replies` allows; other answers are not restricted. -/
def Replies.Allow (replies : Replies) (g : Group) : (c : Command) → Except Raised c.Answer → Prop
  | .xpendingRange _ _ e _ _, r => replies g e r
  | _, _ => True

/-- How an await can end on the Redis side: with an answer, or with an exception or a
cancellation, whether the command was executed or not. -/
def Group.Reply (replies : Replies) (g : Group) (c : Command) (r : Except Raised c.Answer)
    (g' : Group) : Prop :=
  replies.Allow g c r ∧
    match r with
    | .ok a => ∃ g₁, g.Exec d c a g₁ ∧ g' = g₁.record (completed d c a)
    | .error .cancelled => g' = g ∨ ∃ a, g.Exec d c a g'
    | .error (.exception _) => c.canRaise ∧ (g' = g ∨ ∃ a, g.Exec d c a g')

/-! What an await can do to the history. -/

section History

variable {d} {g g' : Group} {c : Command}

/-- The history has grown by what an await on `c` can add: nothing that is sent, and no ACK but
that of `c`. -/
def Group.Grown (c : Command) (g g' : Group) : Prop :=
  ∃ new, g'.history = new ++ g.history ∧ (∀ ev ∈ new, ev.isSent = false)
    ∧ ∀ e, .acked e ∈ new → ∃ name groupname, c = .xack name groupname e

lemma Group.Grown.of_eq (h : g'.history = g.history) : g.Grown c g' :=
  ⟨[], by simp [h], by simp, by simp⟩

/-- Executing a command adds deliveries, and the ACK of an `XACK`. -/
lemma Group.Exec.grown {a : c.Answer} (h : g.Exec d c a g') : g.Grown c g' := by
  cases c with
  | xreadgroup groupname consumername stream count block =>
      obtain ⟨-, -, rfl⟩ := h
      refine ⟨_, rfl, ?_, ?_⟩
      · intro ev hev
        obtain ⟨e, -, rfl⟩ := List.mem_map.mp hev
        rfl
      · intro e hev
        simp at hev
  | xautoclaim name groupname consumername minIdleTime startId count =>
      obtain ⟨-, -, rfl⟩ := h
      refine ⟨_, rfl, ?_, ?_⟩
      · intro ev hev
        obtain ⟨e, -, rfl⟩ := List.mem_map.mp hev
        rfl
      · intro e hev
        simp at hev
  | xack name groupname e =>
      obtain rfl : g' = if name = d.stream ∧ groupname = d.group then g.ack e else g := h
      split
      · refine ⟨[.acked e], rfl, by simp [Event.isSent], fun e' he' => ⟨name, groupname, ?_⟩⟩
        simp only [List.mem_singleton, Event.acked.injEq] at he'
        rw [he']
      · exact .of_eq rfl
  | xadd name fields maxlen =>
      obtain rfl : g' = { g with dlq := g.dlq ++ [(name, fields)] } := h
      exact .of_eq rfl
  | xgroupCreate | xpendingRange | processMessage | acquire | sleep | gather =>
      exact .of_eq (congrArg Group.history h)

/-- The events of a completed command are neither sent ones nor ACKs. -/
lemma isSent_completed {a : c.Answer} {ev : Event} (h : ev ∈ completed d c a) :
    ev.isSent = false ∧ ∀ e, ev ≠ .acked e := by
  cases c with
  | processMessage requestId messageId action payload =>
      rw [List.mem_singleton.mp h]
      exact ⟨rfl, fun _ => nofun⟩
  | xadd name fields maxlen =>
      simp only [completed] at h
      split at h
      · rw [List.mem_singleton.mp h]
        exact ⟨rfl, fun _ => nofun⟩
      · cases h
  | xautoclaim name groupname consumername minIdleTime startId count =>
      obtain ⟨m, -, hm⟩ := List.mem_filterMap.mp h
      simp only [Option.ite_none_right_eq_some, Option.some.injEq] at hm
      rw [← hm.2]
      exact ⟨rfl, fun _ => nofun⟩
  | xgroupCreate | xreadgroup | xpendingRange | xack | acquire | sleep | gather => cases h

/-- **The history only grows**, and an await by itself adds no sent event and only its own
ACK. -/
theorem Group.Reply.grown {replies : Replies} {r : Except Raised c.Answer}
    (h : g.Reply d replies c r g') : g.Grown c g' := by
  match r, h.2 with
  | .ok a, ⟨g₁, hexec, hg'⟩ =>
      obtain ⟨new, hnew, hsent, hack⟩ := hexec.grown
      refine ⟨completed d c a ++ new, ?_, ?_, ?_⟩
      · rw [hg', Group.record, hnew, List.append_assoc]
      · intro ev hev
        rcases List.mem_append.mp hev with hev | hev
        · exact (isSent_completed hev).1
        · exact hsent ev hev
      · intro e hev
        rcases List.mem_append.mp hev with hev | hev
        · exact absurd rfl ((isSent_completed hev).2 e)
        · exact hack e hev
  | .error .cancelled, .inl hg' => exact .of_eq (congrArg _ hg')
  | .error .cancelled, .inr ⟨_, hexec⟩ => exact hexec.grown
  | .error (.exception _), ⟨_, .inl hg'⟩ => exact .of_eq (congrArg _ hg')
  | .error (.exception _), ⟨_, .inr ⟨_, hexec⟩⟩ => exact hexec.grown

end History

/-- The events of a program that has just run to its next await. -/
def sent (delivery : ℕ) (p : Program consumerSig Unit) : List Event :=
  match p.command? with
  | some (.xack _ _ e) => [.ackSent e]
  | some (.processMessage _ e _ _) => [.started e delivery]
  | _ => []

end Commands

/-! ## Processes -/

/-- A handler that `gather` started: its job, the delivery it is about, and how far it is (`none`
while it waits for its first turn). -/
structure Handler where
  job : Job
  delivery : ℕ
  program : Option (Program consumerSig Unit)

/-- The handler has ended. -/
def Handler.Ended (h : Handler) : Prop := ∃ r s, h.program = some (.done r s)

/-- A consumer process.  `received` is the delivery in which it was last given each entry. -/
structure Worker where
  self : Self
  main : Program consumerSig Unit
  handlers : List Handler
  received : EntryId → ℕ

/-- The entries an answer gives to the consumer. -/
def receivedIds : (c : Command) → Except Raised c.Answer → List EntryId
  | .xreadgroup .., .ok response => (batchEntries response).map Prod.fst
  | .xautoclaim .., .ok (_, claimed) => claimed.map Prod.fst
  | _, _ => []

namespace Worker

/-- The handlers of the jobs that the task of `run` has just started to gather. -/
def spawn (received : EntryId → ℕ) (p : Program consumerSig Unit) : List Handler :=
  match p.command? with
  | some (.gather jobs) => jobs.map fun job => ⟨job, received job.messageId, none⟩
  | _ => []

/-- The task of `run` has run to its next await. -/
def runMain (w : Worker) (received : EntryId → ℕ) (p : Program consumerSig Unit) : Worker where
  self := p.state?.getD w.self
  main := p
  handlers := spawn received p
  received := received

/-- Handler `j` has run to its next await. -/
def runHandler (w : Worker) (j : ℕ) (h : Handler) (p : Program consumerSig Unit) : Worker :=
  { w with
    self := p.state?.getD w.self
    handlers := w.handlers.set j { h with program := some p } }

end Worker

/-- The state in which a task goes on: a slot is taken when `acquire` is granted. -/
def grant : (c : Command) → Except Raised c.Answer → Self → Self
  | .acquire, .ok _, self => { self with freeSlots := self.freeSlots - 1 }
  | _, _, self => self

/-- `acquire` is granted while a slot is free. -/
def Grantable : (c : Command) → Except Raised c.Answer → Self → Prop
  | .acquire, .ok _, self => 0 < self.freeSlots
  | _, _, _ => True

/-- All consumers and their Redis. -/
structure System (ι : Type) where
  group : Group
  workers : ι → Option Worker

section Steps

variable [DecidableEq ι] [StandardLibrary] (d : Deployment ι) (replies : Replies)

/-- Process `i` becomes `w`, the Redis side becomes `g`. -/
def System.put (sys : System ι) (g : Group) (i : ι) (w : Option Worker) : System ι :=
  ⟨g, Function.update sys.workers i w⟩

omit [StandardLibrary] in
/-- The processes after a step of process `i`. -/
lemma System.put_workers {sys : System ι} {g : Group} {i j : ι} {w : Option Worker}
    {w' : Worker} (h : (sys.put g i w).workers j = some w') :
    (j = i ∧ w = some w') ∨ (j ≠ i ∧ sys.workers j = some w') := by
  by_cases hj : j = i
  · subst hj
    exact Or.inl ⟨rfl, by simpa [System.put] using h⟩
  · exact Or.inr ⟨hj, by simpa [System.put, hj] using h⟩

/-- One atomic step. -/
inductive System.Step : System ι → System ι → Prop
  /-- A producer appends an entry. -/
  | produce (sys : System ι) (e : EntryId) (fields : Fields)
      (hnew : sys.group.stream e = none ∧ sys.group.deliveries e = 0) :
      Step sys ⟨{ sys.group with stream := Function.update sys.group.stream e (some fields) },
        sys.workers⟩
  /-- The stream is trimmed. -/
  | trim (sys : System ι) (e : EntryId) :
      Step sys ⟨{ sys.group with stream := Function.update sys.group.stream e none },
        sys.workers⟩
  /-- Time passes on the Redis server. -/
  | tick (sys : System ι) (ms : ℕ) :
      Step sys ⟨{ sys.group with now := sys.group.now + ms }, sys.workers⟩
  /-- A consumer is built and `run` is entered. -/
  | start (sys : System ι) (i : ι) (fuel : ℕ) (monotonic : ℚ) (hoff : sys.workers i = none) :
      Step sys (sys.put sys.group i (some (Worker.runMain
        ⟨Self.init (d.cfg i) monotonic, .spent, [], fun _ => 0⟩ (fun _ => 0)
        (run (d.cfg i) fuel (Self.init (d.cfg i) monotonic)))))
  /-- A process dies. -/
  | crash (sys : System ι) (i : ι) : Step sys (sys.put sys.group i none)
  /-- `stop()` is called. -/
  | stop (sys : System ι) (i : ι) (w : Worker) (hw : sys.workers i = some w) :
      Step sys (sys.put sys.group i (some { w with self := w.self.stop }))
  /-- Time passes for a consumer. -/
  | clock (sys : System ι) (i : ι) (w : Worker) (monotonic : ℚ) (hw : sys.workers i = some w) :
      Step sys (sys.put sys.group i (some { w with self := { w.self with monotonic } }))
  /-- An await of the task of `run` ends. -/
  | main (sys : System ι) (i : ι) (w : Worker) (c : Command) (s : Self)
      (k : Except Raised c.Answer → Self → Program consumerSig Unit)
      (r : Except Raised c.Answer) (g : Group) (hw : sys.workers i = some w)
      (hmain : w.main = .await (S := consumerSig) c s k) (hreply : sys.group.Reply d replies c r g)
      (hgathered : ∀ h ∈ w.handlers, h.Ended) :
      Step sys (sys.put (g.record (sent 0 (k r w.self))) i (some (w.runMain
        (fun e => if e ∈ receivedIds c r then g.deliveries e else w.received e) (k r w.self))))
  /-- A handler gets its first turn. -/
  | handlerStart (sys : System ι) (i : ι) (w : Worker) (j : ℕ) (h : Handler)
      (hw : sys.workers i = some w) (hj : w.handlers[j]? = some h) (hnew : h.program = none) :
      Step sys (sys.put
        (sys.group.record (sent h.delivery (h.job.start (d.cfg i) w.self))) i
        (some (w.runHandler j h (h.job.start (d.cfg i) w.self))))
  /-- A handler is cancelled before its first turn. -/
  | handlerCancel (sys : System ι) (i : ι) (w : Worker) (j : ℕ) (h : Handler)
      (hw : sys.workers i = some w) (hj : w.handlers[j]? = some h) (hnew : h.program = none) :
      Step sys (sys.put sys.group i
        (some (w.runHandler j h (.done (S := consumerSig) (.error .cancelled) w.self))))
  /-- An await of a handler ends. -/
  | handler (sys : System ι) (i : ι) (w : Worker) (j : ℕ) (h : Handler) (c : Command) (s : Self)
      (k : Except Raised c.Answer → Self → Program consumerSig Unit)
      (r : Except Raised c.Answer) (g : Group) (hw : sys.workers i = some w)
      (hj : w.handlers[j]? = some h) (hprog : h.program = some (.await (S := consumerSig) c s k))
      (hreply : sys.group.Reply d replies c r g) (hslot : Grantable c r w.self) :
      Step sys (sys.put (g.record (sent h.delivery (k r (grant c r w.self)))) i
        (some (w.runHandler j h (k r (grant c r w.self)))))

/-- The states that the group reaches, from a stream in which nothing was delivered. -/
inductive System.Reachable : System ι → Prop
  | init (stream : EntryId → Option Fields) :
      Reachable ⟨Group.init stream, fun _ => none⟩
  | step {sys sys' : System ι} (h : Reachable sys) (hstep : sys.Step d replies sys') :
      Reachable sys'

end Steps

/-! ## A group of one consumer -/

/-- The consumer of the examples, alone in its group. -/
def solo : Deployment Unit := ⟨"events", "users", fun _ => soloConfig, fun _ => rfl, fun _ => rfl⟩

/-- A stream with one entry. -/
def pingStream : EntryId → Option Fields := fun e => if e = ⟨1, 0⟩ then some pingFields else none

end Atsig
