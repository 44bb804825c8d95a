import AtsigCommon.Redis.Envelope
import AtsigCommon.Redis.NoLoss
import AtsigCommon.Python.JsonText

/-!
# What is handled is what was emitted

Nothing is made up on the way: every call of `process_message` and every dead letter is about an
entry that the stream held, with what this entry says.  Where all entries were written by `emit`,
the calls are those of the emissions.

The property is a contract (`integrity`) over the entries that the stream has held.  `run` keeps it
because it starts handlers only for what Redis gave it (`run_genuine`); a handler sends only what
its entry says (`start_genuine`); and Redis gives only what the stream holds
(`Group.Reply.genuine`).

* `System.History` — the runs of a group, with the entries that the stream has held.
* `System.History.genuine` — the invariant of the runs.
* `deliveries_intact` — what is handled, and what is dead-lettered, is what was emitted.
-/

namespace Coroutine

variable {S : Signature} {α : Type} {P Q : S.Command → Prop}

/-- A program, wherever it stands, sends only commands of `P`. -/
def Program.SendsOnly (P : S.Command → Prop) : Program S α → Prop
  | .done _ _ => True
  | .await c _ k => P c ∧ ∀ r s, (k r s).SendsOnly P
  | .spent => True

lemma Program.SendsOnly.mono {p : Program S α} (hp : p.SendsOnly P) (h : ∀ c, P c → Q c) :
    p.SendsOnly Q := by
  induction p with
  | done r s => trivial
  | await c s k ih => exact ⟨h c hp.1, fun r s' => ih r s' (hp.2 r s')⟩
  | spent => trivial

/-- The commands of a coroutine function are those of the program it starts. -/
lemma Co.SendsOnly.program {x : Co S α} (hx : x.SendsOnly P) (s : S.State) :
    (x s).SendsOnly P := by
  have hwp : ∀ {p : Program S α} {φ : α → Unit → S.State → Prop}
      {ψ : S.Raise → Unit → S.State → Prop},
      p.wp (.monitor (fun (_ : Unit) c => P c) (fun _ _ => True) fun g _ _ => g) φ ψ () →
        p.SendsOnly P := by
    intro p φ ψ hp
    induction p with
    | done r s => trivial
    | await c s k ih => exact ⟨hp.1, fun r s' => ih r s' (hp.2 r () s' ⟨trivial, rfl⟩)⟩
    | spent => trivial
  exact hwp (hx () s trivial)

end Coroutine

namespace Atsig

open Coroutine Python

/-- Entries of a stream, with their fields. -/
abbrev Entries := Set (EntryId × Fields)

/-! ## What is genuine -/

/-- The job is about an entry. -/
def Job.Genuine (held : Entries) : Job → Prop
  | .handleMessage messageId rawPayload => (messageId, rawPayload) ∈ held
  | .deadLetterReclaimed messageId fields _ => (messageId, fields) ∈ held

section Genuine

variable [StandardLibrary] {ι : Type} (d : Deployment ι)

/-- A payload of a dead letter of an entry with these fields. -/
def LetterOf (fields : Fields) (payload : String) : Prop :=
  payload = dumpsDefaultStr (stringKeys fields)
    ∨ ∃ normalizedPayload, normalize fields = .ok normalizedPayload
        ∧ payload = dumpsDefaultStr (textValues normalizedPayload)

/-- A dead letter of the group, about an entry. -/
def DlqFields.Genuine (held : Entries) (name : String) (letter : DlqFields) : Prop :=
  name = dlqName d.stream ∧ letter.consumerGroup = d.group
    ∧ ∃ fields, (letter.originalMessageId, fields) ∈ held ∧ LetterOf fields letter.payload

/-- `process_message` is called with what an entry says, and a dead letter is about an entry. -/
def Command.Genuine (held : Entries) : Command → Prop
  | .processMessage rid messageId action payload =>
      ∃ fields normalizedPayload, (messageId, fields) ∈ held
        ∧ readEnvelope fields = .ok (normalizedPayload, action, payload)
        ∧ rid = (requestIdOf fields).getD (toString messageId)
  | .xadd name letter _ => letter.Genuine d held name
  | .gather jobs => ∀ job ∈ jobs, job.Genuine held
  | _ => True

variable {d} {held held' : Entries} (hsub : held ⊆ held')

include hsub

omit [StandardLibrary] in
lemma Job.Genuine.mono {job : Job} (h : job.Genuine held) : job.Genuine held' := by
  cases job with
  | handleMessage messageId rawPayload => exact hsub h
  | deadLetterReclaimed messageId fields deliveries => exact hsub h

lemma DlqFields.Genuine.mono {name : String} {letter : DlqFields}
    (h : letter.Genuine d held name) : letter.Genuine d held' name := by
  obtain ⟨hname, hgroup, fields, hmem, hletter⟩ := h
  exact ⟨hname, hgroup, fields, hsub hmem, hletter⟩

lemma Command.Genuine.mono {c : Command} (h : c.Genuine d held) : c.Genuine d held' := by
  cases c with
  | processMessage rid messageId action payload =>
      obtain ⟨fields, normalizedPayload, hmem, hread⟩ := h
      exact ⟨fields, normalizedPayload, hsub hmem, hread⟩
  | xadd name letter maxlen => exact DlqFields.Genuine.mono hsub h
  | gather jobs => exact fun job hjob => (h job hjob).mono hsub
  | xgroupCreate | xreadgroup | xautoclaim | xpendingRange | xack | acquire | sleep => trivial

end Genuine

/-! ## The handlers -/

section Handlers

variable [StandardLibrary] {ι : Type} {d : Deployment ι} {cfg : Config}
  (hstream : cfg.streamName = d.stream) (hgroup : cfg.groupName = d.group) {held : Entries}

include hstream hgroup

lemma IsDisposal.genuine {messageId : EntryId} {fields : Fields} {payload : String} {c : Command}
    (hmem : (messageId, fields) ∈ held) (hletter : LetterOf fields payload)
    (h : IsDisposal cfg messageId payload c) : c.Genuine d held := by
  cases h with
  | xadd error =>
      exact ⟨by rw [hstream], hgroup, fields, hmem, hletter⟩
  | xack => trivial

/-- **Handlers.**  A job about an entry calls `process_message` with what the entry says. -/
lemma start_genuine {job : Job} (hjob : job.Genuine held) :
    (job.start cfg).SendsOnly (Command.Genuine d held) := by
  cases job with
  | handleMessage messageId rawPayload =>
      cases hread : readEnvelope rawPayload with
      | error e =>
          exact (handleMessage_sends_invalid cfg messageId hread).mono fun c =>
            IsDisposal.genuine hstream hgroup hjob (.inl rfl)
      | ok envelope =>
          obtain ⟨normalizedPayload, action, payload⟩ := envelope
          have hnormal : normalize rawPayload = .ok normalizedPayload := by
            rw [readEnvelope] at hread
            cases hnormal : normalize rawPayload with
            | error e =>
                rw [hnormal] at hread
                cases hread
            | ok normal =>
                rw [hnormal] at hread
                change (parseEnvelope normal >>= _ : Except PyException _) = _ at hread
                cases hparse : parseEnvelope normal with
                | error e =>
                    rw [hparse] at hread
                    cases hread
                | ok y =>
                    rw [hparse] at hread
                    injection hread with hread
                    exact congrArg Except.ok (congrArg Prod.fst hread)
          refine (handleMessage_sends cfg messageId action payload hread).mono fun c hc => ?_
          cases hc with
          | processMessage => exact ⟨rawPayload, normalizedPayload, hjob, hread, rfl⟩
          | acquire => trivial
          | sleep => trivial
          | disposal c hc =>
              exact hc.genuine hstream hgroup hjob (.inr ⟨normalizedPayload, hnormal, rfl⟩)
  | deadLetterReclaimed messageId fields deliveries =>
      exact (deadLetterReclaimed_sends cfg noRequestId messageId fields deliveries).mono fun c =>
        IsDisposal.genuine hstream hgroup hjob (.inl rfl)

end Handlers

/-! ## The task of `run` -/

/-- Redis gives entries that the stream has held. -/
def Given (held : Entries) : (c : Command) → Except Raised c.Answer → Prop
  | .xreadgroup .., .ok response => ∀ m ∈ batchEntries response, m ∈ held
  | .xautoclaim .., .ok (_, claimed) =>
      ∀ m ∈ claimed, ∀ fields, m.2 = some fields → (m.1, fields) ∈ held
  | _, _ => True

section Run

variable [StandardLibrary] {ι : Type} (d : Deployment ι) (cfg : Config)

/-- **The contract**: what is sent is genuine; others add entries, and Redis gives what there is. -/
def integrity : Contract consumerSig Entries where
  may held _ c := c.Genuine d held
  env held _ c r held' _ := held ⊆ held' ∧ Given held' c r

lemma send_genuine {c : Command} (h : ∀ held, c.Genuine d held) :
    (send c).Keeps (integrity d) :=
  send_keeps (fun held _ _ => h held) fun _ _ _ _ _ _ _ => trivial

lemma gatherTasks_genuine {tasks : List Job} {held : Entries}
    (h : ∀ job ∈ tasks, job.Genuine held) (s : Self) :
    (gatherTasks tasks).wp (integrity d) (fun _ _ _ => True) (fun _ _ _ => True) held s := by
  rw [gatherTasks]
  split
  · trivial
  · exact send_wp h (fun _ _ _ _ => trivial) (fun _ _ _ _ => trivial)

/-- The jobs for the claimed entries are about them. -/
lemma reclaimTasks_genuine : ∀ (claimed : List (EntryId × Option Fields)) (held : Entries)
    (s : Self), (∀ m ∈ claimed, ∀ fields, m.2 = some fields → (m.1, fields) ∈ held) →
    (reclaimTasks cfg claimed).wp (integrity d)
      (fun tasks held' _ => held ⊆ held' ∧ ∀ job ∈ tasks, job.Genuine held')
      (fun _ _ _ => True) held s
  | [], held, s, _ => ⟨subset_rfl, nofun⟩
  | (messageId, none) :: claimed, held, s, hclaimed => by
      rw [reclaimTasks, Co.wp_bind]
      refine send_wp trivial (fun _ held' s' henv => ?_) (fun _ _ _ _ => trivial)
      refine Co.wp_mono (reclaimTasks_genuine claimed held' s' fun m hm fields hfields =>
        henv.1 (hclaimed m (List.mem_cons_of_mem _ hm) fields hfields))
        (fun tasks held'' _ h => ⟨henv.1.trans h.1, h.2⟩) (fun _ _ _ _ => trivial)
  | (messageId, some fields) :: claimed, held, s, hclaimed => by
      -- the rest, and the job of this entry, after `XPENDING` has answered or failed
      have hrest : ∀ held' s' deliveries, held ⊆ held' →
          (reclaimTasks cfg claimed).wp (integrity d)
            (fun tasks held'' _ => held ⊆ held''
              ∧ ∀ job ∈ reclaimJob cfg messageId fields deliveries :: tasks, job.Genuine held'')
            (fun _ _ _ => True) held' s' := by
        intro held' s' deliveries hsub
        refine Co.wp_mono (reclaimTasks_genuine claimed held' s' fun m hm fields hfields =>
          hsub (hclaimed m (List.mem_cons_of_mem _ hm) fields hfields))
          (fun tasks held'' _ h => ⟨hsub.trans h.1, fun job hjob => ?_⟩) (fun _ _ _ _ => trivial)
        rcases List.mem_cons.mp hjob with rfl | hjob
        · have hmem : (messageId, fields) ∈ held'' :=
            h.1 (hsub (hclaimed _ (List.mem_cons_self ..) fields rfl))
          cases deliveries with
          | none => exact hmem
          | some n =>
              rw [reclaimJob]
              split <;> exact hmem
        · exact h.2 job hjob
      simp only [reclaimTasks, deliveryCount, Co.wp_bind, wp_exceptException, Co.wp_pure]
      refine send_wp trivial (fun rows held' s' henv => hrest held' s' _ henv.1)
        (fun e held' s' henv => ?_)
      cases e with
      | cancelled => trivial
      | exception e => exact hrest held' s' none henv.1

/-- A scan keeps the contract. -/
lemma scan_genuine : ScanKeeps cfg (integrity d) fun _ => True := by
  intro startId held s _
  refine send_wp trivial (fun answer held' s' henv => ?_) (fun _ _ _ _ => trivial)
  refine takeOver_wp cfg (fun _ _ => trivial) (fun s => ?_) s'
  rw [handleReclaimed, Co.wp_bind]
  exact Co.wp_mono (reclaimTasks_genuine d cfg answer.2 held' s henv.2)
    (fun tasks held'' s'' h => gatherTasks_genuine d h.2 s'') (fun _ _ _ _ => trivial)

/-- **`run`** starts handlers only for what Redis gave it. -/
theorem run_genuine (fuel : ℕ) : (run cfg fuel).Keeps (integrity d) := by
  refine run_keeps cfg (fun _ _ => trivial) (send_genuine d fun _ => trivial) (scan_genuine d cfg)
    (fun held s _ => ?_) (fun _ => send_genuine d fun _ => trivial) fuel
  refine send_wp trivial (fun response held' s' henv => gatherTasks_genuine d ?_ s')
    (fun _ _ _ _ => trivial)
  rw [batchJobs_eq]
  intro job hjob
  obtain ⟨m, hm, rfl⟩ := List.mem_map.mp hjob
  exact henv.2 m hm

end Run

/-! ## The Redis side -/

/-- What the stream holds. -/
def Group.entries (g : Group) : Entries := {m | g.stream m.1 = some m.2}

section Redis

variable {ι : Type} {d : Deployment ι} {g g' : Group} {c : Command}

/-- Commands of consumers do not change the stream, and only `XADD` writes dead letters. -/
lemma Group.Exec.keeps {a : c.Answer} (h : g.Exec d c a g') :
    g'.stream = g.stream ∧ (g'.dlq = g.dlq
      ∨ ∃ name letter maxlen, c = .xadd name letter maxlen
          ∧ g'.dlq = g.dlq ++ [(name, letter)]) := by
  cases c with
  | xreadgroup groupname consumername stream count block =>
      obtain ⟨-, -, rfl⟩ := h
      exact ⟨rfl, .inl rfl⟩
  | xautoclaim name groupname consumername minIdleTime startId count =>
      obtain ⟨-, -, rfl⟩ := h
      exact ⟨rfl, .inl rfl⟩
  | xack name groupname e =>
      obtain rfl : g' = if name = d.stream ∧ groupname = d.group then g.ack e else g := h
      split <;> exact ⟨rfl, .inl rfl⟩
  | xadd name letter maxlen =>
      obtain rfl : g' = { g with dlq := g.dlq ++ [(name, letter)] } := h
      exact ⟨rfl, .inr ⟨name, letter, maxlen, rfl, rfl⟩⟩
  | xgroupCreate | xpendingRange | processMessage | acquire | sleep | gather =>
      obtain rfl : g' = g := h
      exact ⟨rfl, .inl rfl⟩

/-- So does an await, however it ends. -/
lemma Group.Reply.keeps {replies : Replies} {r : Except Raised c.Answer}
    (h : g.Reply d replies c r g') :
    g'.stream = g.stream ∧ (g'.dlq = g.dlq
      ∨ ∃ name letter maxlen, c = .xadd name letter maxlen
          ∧ g'.dlq = g.dlq ++ [(name, letter)]) := by
  match r, h.2 with
  | .ok a, ⟨g₁, hexec, hg'⟩ =>
      subst hg'
      exact hexec.keeps
  | .error .cancelled, .inl hg' => exact ⟨congrArg _ hg', .inl (congrArg _ hg')⟩
  | .error .cancelled, .inr ⟨_, hexec⟩ => exact hexec.keeps
  | .error (.exception _), ⟨_, .inl hg'⟩ => exact ⟨congrArg _ hg', .inl (congrArg _ hg')⟩
  | .error (.exception _), ⟨_, .inr ⟨_, hexec⟩⟩ => exact hexec.keeps

/-- What Redis gives, the stream holds. -/
lemma Group.Reply.given {replies : Replies} {r : Except Raised c.Answer}
    (h : g.Reply d replies c r g') {held : Entries} (hheld : g.entries ⊆ held) :
    Given held c r := by
  cases r with
  | error e => cases c <;> trivial
  | ok a =>
      obtain ⟨g₁, hexec, -⟩ := h.2
      cases c with
      | xreadgroup groupname consumername stream count block =>
          exact fun m hm => hheld (hexec.2.1 m hm).2
      | xautoclaim name groupname consumername minIdleTime startId count =>
          intro m hm fields hfields
          exact hheld ((hexec.2.1 m hm).2.2.trans hfields)
      | xgroupCreate | xpendingRange | xadd | xack | processMessage | acquire | sleep | gather =>
          trivial

end Redis

/-! ## The runs of the group -/

section Runs

variable {ι : Type} [DecidableEq ι] [StandardLibrary] (d : Deployment ι) (replies : Replies)

/-- The runs of the group, with the entries that the stream has held. -/
inductive System.History : Entries → System ι → Prop
  | init (stream : EntryId → Option Fields) :
      History (Group.init stream).entries ⟨Group.init stream, fun _ => none⟩
  | step {held : Entries} {sys sys' : System ι} (h : History held sys)
      (hstep : sys.Step d replies sys') : History (held ∪ sys'.group.entries) sys'

variable {d replies}

/-- They reach the reachable states. -/
lemma System.Reachable.exists_history {sys : System ι} (h : sys.Reachable d replies) :
    ∃ held, System.History d replies held sys := by
  induction h with
  | init stream => exact ⟨_, .init stream⟩
  | step _ hstep ih =>
      obtain ⟨held, hheld⟩ := ih
      exact ⟨_, hheld.step hstep⟩

omit [DecidableEq ι] in
variable (d) in
/-- The tasks of a process are genuine. -/
structure Worker.Genuine (held : Entries) (w : Worker) : Prop where
  main : w.main.wp (integrity d) (fun _ _ _ => True) (fun _ _ _ => True) held
  handlers : ∀ x ∈ w.handlers, x.job.Genuine held
    ∧ ∀ p, x.program = some p → p.SendsOnly (Command.Genuine d held)

omit [DecidableEq ι] in
/-- More entries do no harm. -/
lemma Worker.Genuine.mono {held held' : Entries} {w : Worker} (hw : w.Genuine d held)
    (hsub : held ⊆ held') : w.Genuine d held' := by
  have henv : ∀ s c r held'' s', (integrity d).env held' s c r held'' s' →
      (integrity d).env held s c r held'' s' :=
    fun s c r held'' s' hr => ⟨hsub.trans hr.1, hr.2⟩
  refine ⟨Program.wp_rely (R := (· ⊆ ·)) hw.main hsub
    (fun _ _ hc => Command.Genuine.mono hsub hc) henv (fun _ => trivial) (fun _ _ _ _ => trivial)
    (fun _ _ _ _ => trivial), fun x hx => ?_⟩
  obtain ⟨hjob, hprogram⟩ := hw.handlers x hx
  exact ⟨hjob.mono hsub, fun p hp =>
    (hprogram p hp).mono fun c => Command.Genuine.mono hsub⟩

omit [StandardLibrary] [DecidableEq ι] in
lemma Worker.mem_spawn {received : EntryId → ℕ} {p : Program consumerSig Unit} {x : Handler}
    (hx : x ∈ Worker.spawn received p) : ∃ jobs, p.command? = some (.gather jobs)
      ∧ ∃ job ∈ jobs, x = ⟨job, received job.messageId, none⟩ := by
  rw [Worker.spawn] at hx
  split at hx
  · next jobs hjobs =>
    obtain ⟨job, hjob, rfl⟩ := List.mem_map.mp hx
    exact ⟨jobs, hjobs, job, hjob, rfl⟩
  · cases hx

omit [DecidableEq ι] in
/-- The task of `run` runs to an await; what it gathers is genuine. -/
lemma Worker.Genuine.runMain {held : Entries} {w : Worker} {p : Program consumerSig Unit}
    (hp : p.wp (integrity d) (fun _ _ _ => True) (fun _ _ _ => True) held)
    (received : EntryId → ℕ) : (w.runMain received p).Genuine d held := by
  refine ⟨hp, fun x hx => ?_⟩
  obtain ⟨jobs, hjobs, job, hjob, rfl⟩ := Worker.mem_spawn hx
  refine ⟨?_, nofun⟩
  cases p with
  | await c s k =>
      obtain rfl : c = .gather jobs := Option.some.inj hjobs
      exact hp.1 job hjob
  | done r s => cases hjobs
  | spent => cases hjobs

omit [DecidableEq ι] in
/-- A handler runs to an await. -/
lemma Worker.Genuine.runHandler {held : Entries} {w : Worker} (hw : w.Genuine d held) {j : ℕ}
    {x : Handler} (hx : x ∈ w.handlers) {p : Program consumerSig Unit}
    (hp : p.SendsOnly (Command.Genuine d held)) : (w.runHandler j x p).Genuine d held := by
  refine ⟨hw.main, fun y hy => ?_⟩
  rcases List.mem_or_eq_of_mem_set hy with hy | rfl
  · exact hw.handlers y hy
  · refine ⟨(hw.handlers x hx).1, fun q hq => ?_⟩
    obtain rfl := Option.some.inj hq
    exact hp

variable (d) in
/-- **The invariant** of the whole group. -/
structure System.Genuine (held : Entries) (sys : System ι) : Prop where
  stream : sys.group.entries ⊆ held
  dlq : ∀ p ∈ sys.group.dlq, p.2.Genuine d held p.1
  workers : ∀ i w, sys.workers i = some w → w.Genuine d held

lemma System.Genuine.put {held : Entries} {sys : System ι} (hs : sys.Genuine d held) {g : Group}
    {i : ι} {w : Option Worker} (hstream : g.stream = sys.group.stream)
    (hdlq : ∀ p ∈ g.dlq, p.2.Genuine d held p.1)
    (hw : ∀ w', w = some w' → w'.Genuine d held) : (sys.put g i w).Genuine d held := by
  refine ⟨?_, hdlq, fun j w' hj => ?_⟩
  · intro m hm
    refine hs.stream (?_ : sys.group.stream m.1 = some m.2)
    rw [← hstream]
    exact hm
  · rcases System.put_workers hj with ⟨rfl, hw'⟩ | ⟨-, hw'⟩
    · exact hw w' hw'
    · exact hs.workers j w' hw'

omit [DecidableEq ι] in
/-- Dead letters of a genuine command are genuine. -/
lemma Group.Reply.dlq_genuine {held : Entries} {g g' : Group} {c : Command}
    {r : Except Raised c.Answer} (h : g.Reply d replies c r g') (hc : c.Genuine d held)
    (hdlq : ∀ p ∈ g.dlq, p.2.Genuine d held p.1) : ∀ p ∈ g'.dlq, p.2.Genuine d held p.1 := by
  rcases h.keeps.2 with hsame | ⟨name, letter, maxlen, rfl, hadd⟩
  · rw [hsame]
    exact hdlq
  · intro p hp
    rw [hadd] at hp
    rcases List.mem_append.mp hp with hp | hp
    · exact hdlq p hp
    · rw [List.mem_singleton.mp hp]
      exact hc

/-- **The step lemma**, for steps that do not change the stream and those that do. -/
theorem System.Genuine.step {held : Entries} {sys sys' : System ι} (hs : sys.Genuine d held)
    (h : sys.Step d replies sys') : sys'.Genuine d (held ∪ sys'.group.entries) := by
  have hmore : held ⊆ held ∪ sys'.group.entries := Set.subset_union_left
  have hout : sys'.Genuine d held → sys'.Genuine d (held ∪ sys'.group.entries) := fun hs' =>
    ⟨Set.subset_union_right, fun p hp => DlqFields.Genuine.mono hmore (hs'.dlq p hp),
      fun i w hw => (hs'.workers i w hw).mono hmore⟩
  cases h with
  | produce e fields hnew =>
      exact ⟨Set.subset_union_right, fun p hp => DlqFields.Genuine.mono hmore (hs.dlq p hp),
        fun i w hw => (hs.workers i w hw).mono hmore⟩
  | trim e =>
      exact ⟨Set.subset_union_right, fun p hp => DlqFields.Genuine.mono hmore (hs.dlq p hp),
        fun i w hw => (hs.workers i w hw).mono hmore⟩
  | tick ms => exact hout ⟨hs.stream, hs.dlq, hs.workers⟩
  | start i fuel monotonic hoff =>
      refine hout (hs.put rfl hs.dlq fun w hw => ?_)
      obtain rfl := Option.some.inj hw
      exact Worker.Genuine.runMain (run_genuine d (d.cfg i) fuel _ _ trivial) _
  | crash i => exact hout (hs.put rfl hs.dlq nofun)
  | stop i w hw =>
      refine hout (hs.put rfl hs.dlq fun w' hw' => ?_)
      obtain rfl := Option.some.inj hw'
      exact ⟨(hs.workers i w hw).main, (hs.workers i w hw).handlers⟩
  | clock i w monotonic hw =>
      refine hout (hs.put rfl hs.dlq fun w' hw' => ?_)
      obtain rfl := Option.some.inj hw'
      exact ⟨(hs.workers i w hw).main, (hs.workers i w hw).handlers⟩
  | main i w c s k r g hw hmain hreply hgathered =>
      have hwp := (hs.workers i w hw).main
      rw [hmain] at hwp
      have hnext := hwp.2 r held w.self ⟨subset_rfl, hreply.given hs.stream⟩
      refine hout (hs.put hreply.keeps.1 (hreply.dlq_genuine hwp.1 hs.dlq) fun w' hw' => ?_)
      obtain rfl := Option.some.inj hw'
      exact Worker.Genuine.runMain hnext _
  | handlerStart i w j x hw hj hnew =>
      have hx := List.mem_of_getElem? hj
      refine hout (hs.put rfl hs.dlq fun w' hw' => ?_)
      obtain rfl := Option.some.inj hw'
      exact (hs.workers i w hw).runHandler hx
        ((start_genuine (d.streamName_eq i) (d.groupName_eq i)
          ((hs.workers i w hw).handlers x hx).1).program _)
  | handlerCancel i w j x hw hj hnew =>
      refine hout (hs.put rfl hs.dlq fun w' hw' => ?_)
      obtain rfl := Option.some.inj hw'
      exact (hs.workers i w hw).runHandler (List.mem_of_getElem? hj) trivial
  | handler i w j x c s k r g hw hj hprog hreply hslot =>
      have hx := List.mem_of_getElem? hj
      have hsends := ((hs.workers i w hw).handlers x hx).2 _ hprog
      refine hout (hs.put hreply.keeps.1 (hreply.dlq_genuine hsends.1 hs.dlq) fun w' hw' => ?_)
      obtain rfl := Option.some.inj hw'
      exact (hs.workers i w hw).runHandler hx (hsends.2 r _)

/-- **The run lemma.** -/
theorem System.History.genuine {held : Entries} {sys : System ι}
    (h : System.History d replies held sys) : sys.Genuine d held := by
  induction h with
  | init stream => exact ⟨subset_rfl, nofun, nofun⟩
  | step _ hstep ih => exact ih.step hstep

omit [DecidableEq ι] [StandardLibrary] in
/-- A handler of some process waits for this call of `process_message`. -/
def System.Calls (sys : System ι) (rid : String) (messageId : EntryId) (action : String)
    (payload : Payload) : Prop :=
  ∃ i w, sys.workers i = some w ∧ ∃ x ∈ w.handlers, ∃ p, x.program = some p
    ∧ p.command? = some (.processMessage rid messageId action payload)

/-- Every call is what some entry says. -/
lemma System.History.call_genuine {held : Entries} {sys : System ι}
    (h : System.History d replies held sys) {rid : String} {messageId : EntryId} {action : String}
    {payload : Payload} (hcalls : sys.Calls rid messageId action payload) :
    (Command.processMessage rid messageId action payload).Genuine d held := by
  obtain ⟨i, w, hw, x, hx, p, hp, hcall⟩ := hcalls
  have hsends := ((h.genuine.workers i w hw).handlers x hx).2 p hp
  cases p with
  | await c s k =>
      obtain rfl : c = _ := Option.some.inj hcall
      exact hsends.1
  | done r s => cases hcall
  | spent => cases hcall

end Runs

/-! ## Emitted entries -/

section Emitted

variable [FloatText]

attribute [local instance] jsonLibrary

/-- Fields that `emit` wrote, for an action and a payload under a request id, as the client gives
them; `entry` is what it wrote.  The payload is one that `json.loads` reads back: `json.dumps` writes
what is no JSON value as its text, and keys that are no texts as texts. -/
structure EmittedAs (client : ClientText) (entry : Dict String String) (rid action : String)
    (payload : Payload) (fields : Fields) : Prop where
  readsBack : LoadsDumps (.obj payload)
  emits : ∃ producer args, args.action = action ∧ args.payload = .json payload
    ∧ Emits producer rid args entry
  fields_eq : fields = client.fields entry

omit [FloatText] in
lemma plain_texts (items : List (String × String)) (hnodup : (items.map Prod.fst).Nodup) :
    (textJson items).Plain := by
  refine .obj _ ?_ fun p hp => ?_
  · rw [List.map_map]
    exact hnodup
  · obtain ⟨q, -, rfl⟩ := List.mem_map.mp hp
    exact .str q.2

/-- What the two sides rely on, they have. -/
lemma wireJson_of_readsBack {payload : Payload} (hpayload : LoadsDumps (.obj payload))
    (rid : String) : WireJson payload rid where
  payload := hpayload
  requestId := loadsDumps_plain (plain_texts [("request_id", rid)] (List.nodup_singleton _))
  nonempty := by
    obtain ⟨c, cs, hcons, -⟩ :=
      head_writeJson {} (plain_texts [("request_id", rid)] (List.nodup_singleton _))
    intro hempty
    have hlist := congrArg String.toList hempty
    change (String.ofList (writeJson {} (metaJson rid))).toList = [] at hlist
    rw [String.toList_ofList] at hlist
    change writeJson {} (metaJson rid) = c :: cs at hcons
    rw [hcons] at hlist
    cases hlist
  empty := loads_write {} (.obj [] List.nodup_nil nofun)

variable {client : ClientText} {entry : Dict String String} {rid action : String}
  {payload : Payload} {fields : Fields}

/-- Such fields are read as they were emitted. -/
lemma EmittedAs.reads (h : EmittedAs client entry rid action payload fields) :
    readEnvelope fields = .ok (entry, action, payload)
      ∧ requestIdOf fields = currentRequestId rid := by
  obtain ⟨producer, args, rfl, hpayload, hemits⟩ := h.emits
  obtain ⟨data, hdata, rfl⟩ := hemits.eq
  rw [hpayload] at hdata
  obtain rfl : StandardLibrary.dumps (.obj payload) = data := Except.ok.inj hdata
  have hjson := wireJson_of_readsBack h.readsBack rid
  rw [h.fields_eq]
  exact ⟨readEnvelope_streamData hjson args.action client,
    requestIdOf_streamData hjson args.action client⟩

/-- A dead letter about them holds what was written, or the literals of the bytes that a client gave
which does not decode. -/
lemma EmittedAs.letter (h : EmittedAs client entry rid action payload fields) {letter : String}
    (hletter : LetterOf fields letter) :
    StandardLibrary.loads letter = .ok (textJson entry.items)
      ∨ client = .bytes
        ∧ letter = StandardLibrary.dumps (textJson (strItems (client.fields entry))) := by
  have hloads : StandardLibrary.loads (StandardLibrary.dumps (textJson entry.items))
      = .ok (textJson entry.items) := loadsDumps_plain (plain_texts entry.items entry.nodup)
  rw [h.fields_eq] at hletter
  rcases hletter with rfl | ⟨normalizedPayload, hnormal, rfl⟩
  · rw [dumps_stringKeys]
    cases client with
    | str =>
        rw [strItems_str]
        exact .inl hloads
    | bytes => exact .inr ⟨rfl, rfl⟩
  · rw [normalize_fields] at hnormal
    obtain rfl := Except.ok.inj hnormal
    rw [dumps_textValues]
    exact .inl hloads

variable {ι : Type} [DecidableEq ι]

/-- A call for an entry that was emitted is the emission. -/
lemma System.History.call_emitted {d : Deployment ι} {replies : Replies} {held : Entries}
    {sys : System ι} (h : System.History d replies held sys)
    (hemitted : ∀ m ∈ held, ∃ entry rid action payload,
      EmittedAs client entry rid action payload m.2)
    {rid : String} {messageId : EntryId} {action : String} {payload : Payload}
    (hcalls : sys.Calls rid messageId action payload) :
    ∃ entry origin, (messageId, client.fields entry) ∈ held
      ∧ EmittedAs client entry origin action payload (client.fields entry)
      ∧ rid = (currentRequestId origin).getD (toString messageId) := by
  obtain ⟨fields, normalizedPayload, hmem, hread, hrid⟩ := h.call_genuine hcalls
  obtain ⟨entry, origin, action', payload', hentry⟩ := hemitted _ hmem
  obtain ⟨hreads, hid⟩ := hentry.reads
  rw [hreads] at hread
  injection hread with hread
  injection hread with hnormal hread
  injection hread with haction hpayload
  subst haction hpayload
  obtain rfl : fields = client.fields entry := hentry.fields_eq
  exact ⟨entry, origin, hmem, hentry, by rw [hrid, hid]⟩

/-- **What is handled is what was emitted.**  In a run in which the stream has held only entries
that some `emit` wrote, `process_message` is called only for such an entry, with the action and
the payload that were given to `emit`, and under its request id (or the id of the entry, when there
was none); and every dead letter is in the queue of the stream and holds the fields of such an
entry. -/
theorem deliveries_intact (d : Deployment ι) (replies : Replies) (client : ClientText)
    (held : Entries) (sys : System ι) (hrun : System.History d replies held sys)
    (hemitted : ∀ m ∈ held, ∃ entry rid action payload,
      EmittedAs client entry rid action payload m.2) :
    (∀ rid messageId action payload, sys.Calls rid messageId action payload →
        ∃ entry origin, (messageId, client.fields entry) ∈ held
          ∧ EmittedAs client entry origin action payload (client.fields entry)
          ∧ rid = (currentRequestId origin).getD (toString messageId))
      ∧ ∀ name letter, (name, letter) ∈ sys.group.dlq →
        name = dlqName d.stream ∧ letter.consumerGroup = d.group
          ∧ ∃ entry, (letter.originalMessageId, client.fields entry) ∈ held
            ∧ (StandardLibrary.loads letter.payload = .ok (textJson entry.items)
              ∨ client = .bytes ∧ letter.payload
                  = StandardLibrary.dumps (textJson (strItems (client.fields entry)))) := by
  refine ⟨fun rid messageId action payload hcalls => hrun.call_emitted hemitted hcalls, ?_⟩
  intro name letter hmem
  obtain ⟨hname, hgroup, fields, hheld, hletter⟩ := hrun.genuine.dlq _ hmem
  obtain ⟨entry, origin, action, payload, hentry⟩ := hemitted _ hheld
  obtain rfl : fields = client.fields entry := hentry.fields_eq
  exact ⟨hname, hgroup, entry, hheld, hentry.letter hletter⟩

end Emitted

/-! ## A run -/

section Solo

variable [FloatText]

attribute [local instance] jsonLibrary

/-- What `emit` writes for a payload. -/
lemma emittedAs_streamData {payload : Payload} (hplain : (Json.obj payload).Plain)
    (rid action : String) : EmittedAs .str
      (streamData action (StandardLibrary.dumps (.obj payload)) rid) rid action payload
      (ClientText.str.fields (streamData action (StandardLibrary.dumps (.obj payload)) rid)) := by
  refine ⟨loadsDumps_plain hplain,
    ⟨{}, ⟨"events", action, .json payload, .redisManager, none, none, 1 / 5⟩, rfl, rfl, ?_⟩, rfl⟩
  exact ⟨[], [], _, .redisManager, "events", none, .nil _, List.mem_singleton_self _⟩

omit [FloatText] in
/-- A handler waits for a slot first, which it has not taken yet. -/
lemma handleMessage_first [StandardLibrary] (cfg : Config) (messageId : EntryId) {fields : Fields}
    {normalizedPayload : Dict String String} {action : String} {payload : Payload}
    (hread : readEnvelope fields = .ok (normalizedPayload, action, payload))
    (hretries : 1 ≤ cfg.maxRetries) (s : Self) :
    ∃ s₁ k, handleMessage cfg messageId fields s = .await .acquire s₁ k
      ∧ s₁.freeSlots = s.freeSlots
      ∧ ∀ s₂, (k (.ok ()) s₂).command? = some (.processMessage
          ((requestIdOf fields).getD (toString messageId)) messageId action payload) := by
  obtain ⟨n, hn⟩ := Nat.exists_eq_add_of_le' hretries
  rw [handleMessage, handleEntry, hread]
  simp only [handleEnvelope, hn]
  exact ⟨_, _, rfl, rfl, fun _ => rfl⟩

/-- A run in which one entry was emitted, up to its handling. -/
lemma exists_history {entry : Dict String String} {rid action : String} {payload : Payload}
    {fields : Fields} (hentry : EmittedAs .str entry rid action payload fields) :
    ∃ held sys, System.History solo (fun _ _ _ => True) held sys
      ∧ sys.Calls ((currentRequestId rid).getD "1-0") ⟨1, 0⟩ action payload
      ∧ ∀ m ∈ held, m.2 = fields := by
  let stream : EntryId → Option Fields := fun e => if e = ⟨1, 0⟩ then some fields else none
  have h0 : System.History solo (fun _ _ _ => True) _ ⟨Group.init stream, fun _ => none⟩ :=
    .init _
  have h1 := h0.step (.start _ () 2 0 rfl)
  have h2 := h1.step (.main _ () _ (.xgroupCreate "events" "users" "0" true) _ _ (.ok ()) _ rfl
    rfl ⟨trivial, _, rfl, rfl⟩ nofun)
  have h3 := h2.step (.main _ () _ (.xautoclaim "events" "users" "worker" 120000 .zero 10) _ _
    (.ok (.zero, [])) _ rfl rfl ⟨trivial, _, ⟨List.nodup_nil, nofun, rfl⟩, rfl⟩ nofun)
  have hnew : ∀ m ∈ [(⟨1, 0⟩, fields)], (Group.init stream).deliveries m.1 = 0
      ∧ stream m.1 = some m.2 := by
    intro m hm
    obtain rfl := List.mem_singleton.mp hm
    exact ⟨rfl, rfl⟩
  have h4 := h3.step (.main _ () _ (.xreadgroup "users" "worker" "events" 10 5000) _ _
    (.ok [("events", [(⟨1, 0⟩, fields)])]) _ rfl rfl
    ⟨trivial, _, ⟨List.nodup_singleton _, hnew, rfl⟩, rfl⟩ nofun)
  have h5 := h4.step (.handlerStart _ () _ 0 _ rfl rfl rfl)
  -- the handler waits for a slot
  obtain ⟨hreads, hid⟩ := hentry.reads
  obtain ⟨s₁, k, hawait, hslots, hcall⟩ := handleMessage_first soloConfig ⟨1, 0⟩ hreads
    (by decide) _
  rw [hid] at hcall
  have h6 := h5.step (.handler _ () _ 0 _ .acquire s₁ k (.ok ()) _ rfl rfl
    (congrArg some hawait) ⟨trivial, _, rfl, rfl⟩ (by
      show 0 < (Option.getD (Program.state? (handleMessage soloConfig ⟨1, 0⟩ fields _)) _).freeSlots
      rw [hawait]
      show 0 < s₁.freeSlots
      rw [hslots]
      exact (by decide : 0 < 10)))
  refine ⟨_, _, h6, ⟨(), _, rfl, _, List.mem_cons_self .., _, rfl, hcall _⟩, fun m hm => ?_⟩
  have hheld : m ∈ (Group.init stream).entries := by
    rcases hm with (((((hm | hm) | hm) | hm) | hm) | hm) | hm <;> exact hm
  have hfields : (if m.1 = ⟨1, 0⟩ then some fields else none) = some m.2 := hheld
  split at hfields
  · exact (Option.some.inj hfields).symm
  · cases hfields

end Solo

section Ping

attribute [local instance] integerText jsonLibrary

/-- One entry, emitted and handled. -/
theorem deliveries_intact_ping : ∃ held sys,
    System.History solo (fun _ _ _ => True) held sys
      ∧ sys.Calls ((currentRequestId "abc").getD "1-0") ⟨1, 0⟩ "ping" []
      ∧ ∃ entry origin, (⟨1, 0⟩, ClientText.str.fields entry) ∈ held
          ∧ EmittedAs .str entry origin "ping" [] (ClientText.str.fields entry)
          ∧ (currentRequestId "abc").getD "1-0" = (currentRequestId origin).getD "1-0" := by
  have hentry := emittedAs_streamData (.obj [] List.nodup_nil nofun) "abc" "ping"
  obtain ⟨held, sys, hrun, hcalls, hheld⟩ := exists_history hentry
  refine ⟨held, sys, hrun, hcalls, ?_⟩
  exact (deliveries_intact solo _ .str held sys hrun fun m hm =>
    ⟨_, _, _, _, hheld m hm ▸ hentry⟩).1 _ _ _ _ hcalls

end Ping

end Atsig
