import AtsigCommon.Redis.DeliveryContract
import Mathlib.Algebra.BigOperators.Group.Finset.Piecewise
import Mathlib.Algebra.Order.BigOperators.Group.Finset
import Mathlib.Order.Interval.Finset.Nat

/-!
# A poison message is handled in a bounded number of deliveries

Redis counts the deliveries of an entry.  The consumer that is given the `n`-th delivery holds it
alone, asks Redis for the count before it builds the job, and the count it is told is at least
`n`.  So a delivery whose number is over the limit only ever becomes a call of
`_dead_letter_reclaimed`, and each of the others starts `process_message` at most `max_retries`
times.

* `System.Limited` — every task keeps its contract, and no two processes hold the same delivery.
* `poison_bounded` — the bound.

`XPENDING` is assumed to answer with the count at the moment (`countReplies`).  An entry that was
ACKed since `XAUTOCLAIM` gave it, about which Redis answers nothing, is outside of that.
-/

namespace Atsig

open Coroutine Python

/-- `XPENDING` answers with the current count of the entry. -/
def countReplies : Replies := fun g e r => r = .ok [g.deliveries e] ∨ r = .error .cancelled

/-! ## What Redis counts -/

section Counts

variable {ι : Type} {d : Deployment ι} {g g' : Group} {c : Command}

/-- Redis counts one delivery for each entry it gives. -/
lemma Group.Exec.deliveries {a : c.Answer} (h : g.Exec d c a g') (e : EntryId) :
    g'.deliveries e
      = if e ∈ receivedIds c (.ok a) then g.deliveries e + 1 else g.deliveries e := by
  cases c with
  | xreadgroup groupname consumername stream count block =>
      obtain ⟨-, -, rfl⟩ := h
      rfl
  | xautoclaim name groupname consumername minIdleTime startId count =>
      obtain ⟨-, -, rfl⟩ := h
      rfl
  | xack name groupname e' =>
      obtain rfl : g' = if name = d.stream ∧ groupname = d.group then g.ack e' else g := h
      split <;> rfl
  | xadd name fields maxlen =>
      obtain rfl : g' = { g with dlq := g.dlq ++ [(name, fields)] } := h
      rfl
  | xgroupCreate | xpendingRange | processMessage | acquire | sleep | gather =>
      obtain rfl : g' = g := h
      rfl

/-- An entry that an answer gives was counted once more. -/
lemma Group.Reply.counted {replies : Replies} {r : Except Raised c.Answer}
    (h : g.Reply d replies c r g') {e : EntryId} (he : e ∈ receivedIds c r) :
    g'.deliveries e = g.deliveries e + 1 := by
  cases r with
  | error err => cases c <;> cases he
  | ok a =>
      obtain ⟨g₁, hexec, rfl⟩ := h.2
      exact (hexec.deliveries e).trans (if_pos he)

/-- The counts never go down. -/
lemma Group.Reply.deliveries_le {replies : Replies} {r : Except Raised c.Answer}
    (h : g.Reply d replies c r g') (e : EntryId) : g.deliveries e ≤ g'.deliveries e := by
  have hexec : ∀ {a : c.Answer} {g₁ : Group}, g.Exec d c a g₁ →
      g.deliveries e ≤ g₁.deliveries e := by
    intro a g₁ ha
    have hcount := ha.deliveries e
    split at hcount <;> omega
  match r, h.2 with
  | .ok a, ⟨g₁, ha, hg'⟩ =>
      have hle := hexec ha
      subst hg'
      exact hle
  | .error .cancelled, .inl hg' => exact hg' ▸ le_rfl
  | .error .cancelled, .inr ⟨_, ha⟩ => exact hexec ha
  | .error (.exception _), ⟨_, .inl hg'⟩ => exact hg' ▸ le_rfl
  | .error (.exception _), ⟨_, .inr ⟨_, ha⟩⟩ => exact hexec ha

/-- **What the task of a consumer learns from an await.** -/
lemma Group.Reply.viewStep {r : Except Raised c.Answer} (h : g.Reply d countReplies c r g')
    {received : EntryId → ℕ} (hle : ∀ e, received e ≤ g.deliveries e) (fresh : List EntryId) :
    View.Step ⟨g.deliveries, received, fresh⟩ c r
      ⟨g'.deliveries, fun e => if e ∈ receivedIds c r then g'.deliveries e else received e,
        freshAfter fresh c r⟩ := by
  refine ⟨h.deliveries_le, rfl, rfl, fun e => ?_, ?_, ?_⟩
  · have hgrow := h.deliveries_le e
    have hreceived := hle e
    dsimp only
    split <;> omega
  · cases r with
    | error err => cases c <;> exact List.nodup_nil
    | ok a =>
        obtain ⟨g₁, hexec, -⟩ := h.2
        cases c with
        | xreadgroup groupname consumername stream count block => exact hexec.1
        | xautoclaim name groupname consumername minIdleTime startId count => exact hexec.1
        | xgroupCreate | xpendingRange | xadd | xack | processMessage | acquire | sleep | gather =>
            exact List.nodup_nil
  · cases c with
    | xreadgroup groupname consumername stream count block =>
        cases r with
        | error err => trivial
        | ok response =>
            intro m hm
            obtain ⟨g₁, hexec, rfl⟩ := h.2
            have hcount := (hexec.deliveries m.1).trans (if_pos (List.mem_map_of_mem hm))
            rw [(hexec.2.1 m hm).1] at hcount
            exact hcount
    | xpendingRange name groupname e e' count =>
        have hsame : ∀ {a : List ℕ} {g₁ : Group},
            g.Exec d (.xpendingRange name groupname e e' count) a g₁ → g₁ = g := fun ha => ha
        rcases h.1 with rfl | rfl
        · obtain ⟨g₁, hexec, rfl⟩ := h.2
          rw [hsame hexec]
          exact Or.inl rfl
        · exact Or.inr rfl
    | xgroupCreate | xautoclaim | xadd | xack | processMessage | acquire | sleep | gather =>
        trivial

end Counts

/-! ## Every reachable state is within the limit -/

/-- How often `process_message` was started in the `n`-th delivery of `e`. -/
def startsIn (history : List Event) (e : EntryId) (n : ℕ) : ℕ := history.count (.started e n)

/-- How often the handler may still start `process_message`, its pending await counted. -/
def remaining (k : ℕ) (p : Program consumerSig Unit) : ℕ :=
  match p.command? with
  | some c => afterAwait k c
  | none => k

/-- What the limit says about a job: a call of `_handle_message` is about a permitted delivery, one
of `_dead_letter_reclaimed` has a count that is over the limit. -/
def Job.Within (M delivery deliveries : ℕ) : Job → Prop
  | .handleMessage .. => delivery ≤ M
  | .deadLetterReclaimed _ _ n => M < n ∧ n ≤ deliveries

/-- The handler keeps its contract, and what it has started and may still start is within `R`. -/
structure Handler.Limited (cfg : Config) (M R : ℕ) (received deliveries : EntryId → ℕ)
    (history : List Event) (x : Handler) : Prop where
  delivery : x.delivery = received x.job.messageId
  pos : 1 ≤ x.delivery
  within : x.job.Within M x.delivery (deliveries x.job.messageId)
  new : x.program = none →
    startsIn history x.job.messageId x.delivery + x.job.budget cfg ≤ R
  started : ∀ p, x.program = some p → ∃ k ≤ x.job.budget cfg,
    p.wp (handlerContract x.job.messageId) (fun _ _ _ => True) (fun _ _ _ => True) k
      ∧ startsIn history x.job.messageId x.delivery + remaining k p ≤ R

/-- The task of `run` waits for its handlers. -/
def Worker.Gathering (w : Worker) : Prop := ∃ jobs, w.main.command? = some (.gather jobs)

/-- The tasks of a process keep their contracts; what it was given and has not gathered was not
started in this delivery. -/
structure Worker.Limited (cfg : Config) (M R : ℕ) (deliveries : EntryId → ℕ)
    (history : List Event) (w : Worker) : Prop where
  le : ∀ e, w.received e ≤ deliveries e
  main : ∃ fresh,
    w.main.wp (mainContract M) (fun _ _ _ => True) (fun _ _ _ => True)
        ⟨deliveries, w.received, fresh⟩
      ∧ (¬ w.Gathering → w.handlers = []
        ∧ ∀ e ∈ fresh, 1 ≤ w.received e ∧ startsIn history e (w.received e) = 0)
  nodup : (w.handlers.map fun x => x.job.messageId).Nodup
  handlers : ∀ x ∈ w.handlers, x.Limited cfg M R w.received deliveries history

/-- **The invariant** of the whole group.  No two processes hold the same delivery. -/
structure System.Limited {ι : Type} (d : Deployment ι) (M R : ℕ) (sys : System ι) : Prop where
  started : ∀ e n, .started e n ∈ sys.group.history →
    1 ≤ n ∧ n ≤ M ∧ n ≤ sys.group.deliveries e
  bounded : ∀ e n, startsIn sys.group.history e n ≤ R
  workers : ∀ i w, sys.workers i = some w →
    w.Limited (d.cfg i) M R sys.group.deliveries sys.group.history
  apart : ∀ i j w w' e, i ≠ j → sys.workers i = some w → sys.workers j = some w' →
    w.received e = w'.received e → w.received e = 0

/-- No two processes hold the same delivery. -/
def System.Apart {ι : Type} (sys : System ι) : Prop :=
  ∀ i j w w' e, i ≠ j → sys.workers i = some w → sys.workers j = some w' →
    w.received e = w'.received e → w.received e = 0

section History

variable {M R : ℕ} {e : EntryId}

/-- Events that start nothing. -/
def NoStart (events : List Event) : Prop := ∀ ev ∈ events, ∀ e n, ev ≠ .started e n

lemma NoStart.startsIn {new h : List Event} (hnew : NoStart new) (e : EntryId) (n : ℕ) :
    startsIn (new ++ h) e n = startsIn h e n := by
  have hzero : new.count (.started e n) = 0 :=
    List.count_eq_zero.mpr fun hmem => hnew _ hmem e n rfl
  rw [Atsig.startsIn, List.count_append, hzero, Nat.zero_add, Atsig.startsIn]

lemma NoStart.mem {new h : List Event} (hnew : NoStart new) {n : ℕ}
    (hmem : .started e n ∈ new ++ h) : .started e n ∈ h := by
  rcases List.mem_append.mp hmem with hmem | hmem
  · exact absurd rfl (hnew _ hmem e n)
  · exact hmem

/-- What an await adds to the history by itself starts nothing. -/
lemma Group.Reply.noStart {ι : Type} {d : Deployment ι} {replies : Replies} {c : Command}
    {r : Except Raised c.Answer} {g g' : Group} (h : g.Reply d replies c r g') :
    ∃ new, g'.history = new ++ g.history ∧ NoStart new := by
  obtain ⟨new, hnew, hsent, -⟩ := h.grown
  refine ⟨new, hnew, ?_⟩
  rintro ev hev e n rfl
  cases hsent _ hev

/-- The task of `run` starts nothing itself. -/
lemma sent_main {v : View} {p : Program consumerSig Unit}
    {φ : Unit → View → Self → Prop} {ψ : Raised → View → Self → Prop}
    (hp : p.wp (mainContract M) φ ψ v) (delivery : ℕ) : NoStart (sent delivery p) := by
  intro ev hev e n
  cases p with
  | done r s => cases hev
  | spent => cases hev
  | await c s k =>
      cases c with
      | processMessage rid e' action payload => exact hp.1.elim
      | xack name groupname e' =>
          rw [List.mem_singleton.mp hev]
          nofun
      | xgroupCreate | xreadgroup | xautoclaim | xpendingRange | xadd | acquire | sleep
      | gather => cases hev

/-- What a handler starts is for its own entry, and its contract counts it. -/
lemma sent_handler {p : Program consumerSig Unit} {φ : Unit → ℕ → Self → Prop}
    {ψ : Raised → ℕ → Self → Prop} {k : ℕ} (hp : p.wp (handlerContract e) φ ψ k)
    (delivery : ℕ) :
    (remaining k p = k ∧ NoStart (sent delivery p))
      ∨ (remaining k p + 1 = k ∧ sent delivery p = [.started e delivery]) := by
  cases p with
  | done r s => exact Or.inl ⟨rfl, nofun⟩
  | spent => exact Or.inl ⟨rfl, nofun⟩
  | await c s kont =>
      cases c with
      | processMessage rid e' action payload =>
          obtain ⟨rfl, hk⟩ := hp.1
          refine Or.inr ⟨?_, rfl⟩
          change k - 1 + 1 = k
          omega
      | xack name groupname e' =>
          refine Or.inl ⟨rfl, fun ev hev e' n => ?_⟩
          rw [List.mem_singleton.mp hev]
          nofun
      | xgroupCreate | xreadgroup | xautoclaim | xpendingRange | xadd | acquire | sleep
      | gather => exact Or.inl ⟨rfl, nofun⟩

/-- The starts of a handler and those it has left add up. -/
lemma startsIn_sent {p : Program consumerSig Unit} {φ : Unit → ℕ → Self → Prop}
    {ψ : Raised → ℕ → Self → Prop} {k : ℕ} (hp : p.wp (handlerContract e) φ ψ k)
    (delivery : ℕ) (h : List Event) :
    startsIn (sent delivery p ++ h) e delivery + remaining k p = startsIn h e delivery + k := by
  rcases sent_handler hp delivery with ⟨hk, hnone⟩ | ⟨hk, hsent⟩
  · rw [hnone.startsIn, hk]
  · rw [hsent, List.singleton_append, startsIn, List.count_cons_self, ← startsIn]
    omega

/-- The starts of other entries and of other deliveries stay as they are. -/
lemma startsIn_sent_of_ne {p : Program consumerSig Unit} {φ : Unit → ℕ → Self → Prop}
    {ψ : Raised → ℕ → Self → Prop} {k : ℕ} (hp : p.wp (handlerContract e) φ ψ k)
    {delivery : ℕ} (h : List Event) {e' : EntryId} {n : ℕ} (hne : ¬(e' = e ∧ n = delivery)) :
    startsIn (sent delivery p ++ h) e' n = startsIn h e' n := by
  rcases sent_handler hp delivery with ⟨-, hnone⟩ | ⟨-, hsent⟩
  · exact hnone.startsIn e' n
  · rw [hsent, List.singleton_append, startsIn, List.count_cons_of_ne, startsIn]
    intro heq
    obtain ⟨rfl, rfl⟩ := Event.started.inj heq
    exact hne ⟨rfl, rfl⟩

end History

/-! ### What a step does to a process -/

section Workers

variable {cfg : Config} {M R : ℕ} {deliveries deliveries' : EntryId → ℕ} {h h' : List Event}
  {w : Worker}

lemma Job.Within.mono {job : Job} {delivery n n' : ℕ} (hj : job.Within M delivery n)
    (hn : n ≤ n') : job.Within M delivery n' := by
  cases job with
  | handleMessage e fields => exact hj
  | deadLetterReclaimed e fields count => exact ⟨hj.1, hj.2.trans hn⟩

/-- What the others do: the counts grow, and nothing is started in a delivery that this process
holds. -/
lemma Worker.Limited.mono (hw : w.Limited cfg M R deliveries h)
    (hgrow : ∀ e, deliveries e ≤ deliveries' e)
    (hstarts : ∀ e, 1 ≤ w.received e →
      startsIn h' e (w.received e) = startsIn h e (w.received e)) :
    w.Limited cfg M R deliveries' h' := by
  obtain ⟨fresh, hmain, hidle⟩ := hw.main
  refine ⟨fun e => (hw.le e).trans (hgrow e), ⟨fresh, ?_, fun hg => ?_⟩, hw.nodup, fun x hx => ?_⟩
  · refine Program.wp_rely (R := View.Grown) hmain ⟨hgrow, rfl, rfl⟩ ?_ ?_ (fun _ => trivial)
      (fun _ _ _ _ => trivial) (fun _ _ _ _ => trivial)
    · intro s c hmay
      cases c with
      | gather jobs =>
          exact ⟨hmay.1, fun job hj => (hmay.2 job hj).mono ⟨hgrow, rfl, rfl⟩⟩
      | processMessage rid e action payload => exact hmay
      | xgroupCreate | xreadgroup | xautoclaim | xpendingRange | xadd | xack | acquire
      | sleep => trivial
    · intro s c r v s' hstep
      exact ⟨fun e => (hgrow e).trans (hstep.grow e), hstep.received, hstep.fresh, hstep.le,
        hstep.nodup, hstep.tells⟩
  · refine ⟨(hidle hg).1, fun e he => ?_⟩
    obtain ⟨hpos, hzero⟩ := (hidle hg).2 e he
    exact ⟨hpos, (hstarts e hpos).trans hzero⟩
  · have hx' := hw.handlers x hx
    have heq : startsIn h' x.job.messageId x.delivery = startsIn h x.job.messageId x.delivery := by
      rw [hx'.delivery]
      exact hstarts _ (hx'.delivery ▸ hx'.pos)
    refine ⟨hx'.delivery, hx'.pos, hx'.within.mono (hgrow _), fun hnew => ?_, fun p hp => ?_⟩
    · rw [heq]
      exact hx'.new hnew
    · rw [heq]
      exact hx'.started p hp

/-- The task of `run` runs to an await. -/
lemma Worker.Limited.runMain (hR : cfg.maxRetries ≤ R) {v : View}
    {p : Program consumerSig Unit}
    (hp : p.wp (mainContract M) (fun _ _ _ => True) (fun _ _ _ => True) v)
    (hle : ∀ e, v.received e ≤ v.deliveries e)
    (hfresh : ∀ e ∈ v.fresh, 1 ≤ v.received e ∧ startsIn h e (v.received e) = 0) :
    (w.runMain v.received p).Limited cfg M R v.deliveries h := by
  have hidle : (∀ jobs, p.command? ≠ some (.gather jobs)) → Worker.spawn v.received p = [] := by
    intro hne
    rw [Worker.spawn]
    split
    · exact absurd ‹_› (hne _)
    · rfl
  have hmain : ∃ fresh, p.wp (mainContract M) (fun _ _ _ => True) (fun _ _ _ => True)
      ⟨v.deliveries, v.received, fresh⟩ ∧ (¬ (w.runMain v.received p).Gathering →
        Worker.spawn v.received p = []
          ∧ ∀ e ∈ fresh, 1 ≤ v.received e ∧ startsIn h e (v.received e) = 0) :=
    ⟨v.fresh, hp, fun hg => ⟨hidle fun jobs hj => hg ⟨jobs, hj⟩, hfresh⟩⟩
  by_cases hgather : ∃ jobs, p.command? = some (.gather jobs)
  · obtain ⟨jobs, hjobs⟩ := hgather
    have hspawn : Worker.spawn v.received p
        = jobs.map fun job => ⟨job, v.received job.messageId, none⟩ := by
      rw [Worker.spawn, hjobs]
    have hmay : (jobs.map Job.messageId).Nodup ∧ ∀ job ∈ jobs, v.Permits M job := by
      cases p with
      | done r s => cases hjobs
      | spent => cases hjobs
      | await c s k =>
          obtain rfl : c = .gather jobs := Option.some.inj hjobs
          exact hp.1
    refine ⟨hle, hmain, ?_, fun x hx => ?_⟩
    · change ((Worker.spawn v.received p).map _).Nodup
      rw [hspawn, List.map_map]
      exact hmay.1
    · change x ∈ Worker.spawn v.received p at hx
      rw [hspawn] at hx
      obtain ⟨job, hj, rfl⟩ := List.mem_map.mp hx
      have hpermits := hmay.2 job hj
      have hmem : job.messageId ∈ v.fresh := by
        cases job with
        | handleMessage e fields => exact hpermits.1
        | deadLetterReclaimed e fields n => exact hpermits.1
      obtain ⟨hpos, hzero⟩ := hfresh _ hmem
      refine ⟨rfl, hpos, ?_, fun _ => ?_, nofun⟩
      · cases job with
        | handleMessage e fields => exact hpermits.2
        | deadLetterReclaimed e fields n => exact hpermits.2
      · have hbudget : job.budget cfg ≤ R := by
          cases job with
          | handleMessage e fields => exact hR
          | deadLetterReclaimed e fields n => exact Nat.zero_le R
        change startsIn h job.messageId (v.received job.messageId) + job.budget cfg ≤ R
        omega
  · have hnil := hidle fun jobs hj => hgather ⟨jobs, hj⟩
    refine ⟨hle, hmain, ?_, fun x hx => ?_⟩
    · change ((Worker.spawn v.received p).map _).Nodup
      rw [hnil]
      exact List.nodup_nil
    · change x ∈ Worker.spawn v.received p at hx
      rw [hnil] at hx
      cases hx

/-- The other handlers of a process are about other entries. -/
lemma Worker.Limited.mem_set (hw : w.Limited cfg M R deliveries h) {j : ℕ} {x x' y : Handler}
    (hj : w.handlers[j]? = some x) (hy : y ∈ w.handlers.set j x') :
    y = x' ∨ (y ∈ w.handlers ∧ y.job.messageId ≠ x.job.messageId) := by
  obtain ⟨i, hi, rfl⟩ := List.mem_iff_getElem.mp hy
  rw [List.length_set] at hi
  by_cases hij : j = i
  · subst hij
    exact Or.inl (List.getElem_set_self _)
  · rw [List.getElem_set_ne hij]
    refine Or.inr ⟨List.getElem_mem hi, fun heq => hij ?_⟩
    obtain ⟨hjlt, rfl⟩ := List.getElem?_eq_some_iff.mp hj
    have hi' : i < (w.handlers.map fun x => x.job.messageId).length := by simpa using hi
    have hj' : j < (w.handlers.map fun x => x.job.messageId).length := by simpa using hjlt
    have hids : (w.handlers.map fun x => x.job.messageId)[i]
        = (w.handlers.map fun x => x.job.messageId)[j] := by
      simpa using heq
    exact (hw.nodup.getElem_inj_iff.mp hids).symm

/-- A handler runs to an await, with `k` starts left. -/
lemma Worker.Limited.runHandler (hw : w.Limited cfg M R deliveries h) {j : ℕ} {x : Handler}
    (hj : w.handlers[j]? = some x) {k : ℕ} (hk : k ≤ x.job.budget cfg)
    {p : Program consumerSig Unit}
    (hp : p.wp (handlerContract x.job.messageId) (fun _ _ _ => True) (fun _ _ _ => True) k)
    (hcount : startsIn h x.job.messageId x.delivery + k ≤ R) :
    (w.runHandler j x p).Limited cfg M R deliveries (sent x.delivery p ++ h) := by
  have hx := hw.handlers x (List.mem_of_getElem? hj)
  obtain ⟨fresh, hmain, hidle⟩ := hw.main
  refine ⟨hw.le, ⟨fresh, hmain, fun hg => ?_⟩, ?_, fun y hy => ?_⟩
  · -- a process with a handler is gathering
    rw [(hidle hg).1] at hj
    cases hj
  · have hsame : (w.handlers.set j { x with program := some p }).map (fun x => x.job.messageId)
        = w.handlers.map fun x => x.job.messageId := by
      obtain ⟨hjlt, rfl⟩ := List.getElem?_eq_some_iff.mp hj
      rw [List.map_set]
      refine List.ext_getElem (by simp) fun i hi hi' => ?_
      by_cases hij : j = i
      · subst hij
        simp
      · simp [List.getElem_set_ne hij]
    change ((w.handlers.set j _).map _).Nodup
    rw [hsame]
    exact hw.nodup
  · rcases hw.mem_set hj hy with rfl | ⟨hmem, hne⟩
    · refine ⟨hx.delivery, hx.pos, hx.within, nofun, fun q hq => ?_⟩
      obtain rfl := Option.some.inj hq
      have hsum := startsIn_sent hp x.delivery h
      -- what was started just now is no longer left
      rcases sent_handler hp x.delivery with ⟨hrem, -⟩ | ⟨hrem, -⟩
      · exact ⟨k, hk, hp, by change startsIn _ x.job.messageId x.delivery + _ ≤ R; omega⟩
      · exact ⟨k, hk, hp, by change startsIn _ x.job.messageId x.delivery + _ ≤ R; omega⟩
    · have hy' := hw.handlers y hmem
      have heq : startsIn (sent x.delivery p ++ h) y.job.messageId y.delivery
          = startsIn h y.job.messageId y.delivery :=
        startsIn_sent_of_ne hp h fun hsame => hne hsame.1
      refine ⟨hy'.delivery, hy'.pos, hy'.within, fun hnew => ?_, fun q hq => ?_⟩
      · rw [heq]
        exact hy'.new hnew
      · rw [heq]
        exact hy'.started q hq

end Workers

/-! ### The step lemma and the run lemma -/

section Steps

variable {ι : Type} [DecidableEq ι] [StandardLibrary] {d : Deployment ι} {M R : ℕ}
  {sys sys' : System ι} {i : ι}

omit [StandardLibrary] in
/-- The processes stay apart when one of them is put in the place of process `i` that is apart from
the others. -/
lemma System.Apart.put (hs : sys.Apart) {g : Group} {w : Option Worker}
    (hw : ∀ w', w = some w' → ∀ j w'' e, j ≠ i → sys.workers j = some w'' →
      w'.received e = w''.received e → w'.received e = 0) : (sys.put g i w).Apart := by
  intro j j' w' w'' e hne hj hj' heq
  rcases System.put_workers hj with ⟨rfl, hw'⟩ | ⟨hji, hw'⟩
  · rcases System.put_workers hj' with ⟨rfl, -⟩ | ⟨hji', hw''⟩
    · exact absurd rfl hne
    · exact hw w' hw' j' w'' e hji' hw'' heq
  · rcases System.put_workers hj' with ⟨rfl, hw''⟩ | ⟨-, hw''⟩
    · rw [heq]
      exact hw w'' hw'' j w' e hji hw' heq.symm
    · exact hs j j' w' w'' e hne hw' hw'' heq

omit [StandardLibrary] [DecidableEq ι] in
/-- What has received the same as process `i` is as apart from the others. -/
lemma System.Apart.same (hs : sys.Apart) {w w' : Worker} (hi : sys.workers i = some w)
    (hreceived : w'.received = w.received) (j : ι) (w'' : Worker) (e : EntryId) (hji : j ≠ i)
    (hj : sys.workers j = some w'') (heq : w'.received e = w''.received e) :
    w'.received e = 0 := by
  rw [hreceived] at heq ⊢
  exact hs i j w w'' e hji.symm hi hj heq

omit [StandardLibrary] in
/-- A step of process `i`. -/
lemma System.Limited.put (hs : sys.Limited d M R) {g : Group} {w : Option Worker}
    (hgrow : ∀ e, sys.group.deliveries e ≤ g.deliveries e)
    (hstarted : ∀ e n, .started e n ∈ g.history → 1 ≤ n ∧ n ≤ M ∧ n ≤ g.deliveries e)
    (hbounded : ∀ e n, startsIn g.history e n ≤ R)
    (hothers : ∀ j w', j ≠ i → sys.workers j = some w' → ∀ e, 1 ≤ w'.received e →
      startsIn g.history e (w'.received e) = startsIn sys.group.history e (w'.received e))
    (hw : ∀ w', w = some w' → w'.Limited (d.cfg i) M R g.deliveries g.history)
    (hapart : ∀ w', w = some w' → ∀ j w'' e, j ≠ i → sys.workers j = some w'' →
      w'.received e = w''.received e → w'.received e = 0) :
    (sys.put g i w).Limited d M R := by
  refine ⟨hstarted, hbounded, fun j w' hj => ?_, System.Apart.put hs.apart hapart⟩
  rcases System.put_workers hj with ⟨rfl, hw'⟩ | ⟨hji, hw'⟩
  · exact hw w' hw'
  · exact (hs.workers j w' hw').mono hgrow (hothers j w' hji hw')

omit [StandardLibrary] in
/-- A step of process `i` that starts nothing and gives it no entries. -/
lemma System.Limited.put_same (hs : sys.Limited d M R) {w w' : Worker}
    (hi : sys.workers i = some w) (hreceived : w'.received = w.received)
    (hw : w'.Limited (d.cfg i) M R sys.group.deliveries sys.group.history) :
    (sys.put sys.group i (some w')).Limited d M R := by
  refine hs.put (fun _ => le_rfl) hs.started hs.bounded (fun _ _ _ _ _ _ => rfl) ?_ ?_
  · rintro _ ⟨⟩
    exact hw
  · rintro _ ⟨⟩
    exact System.Apart.same hs.apart hi hreceived

omit [StandardLibrary] in
/-- A handler of process `i` runs to an await, after Redis has answered. -/
lemma System.Limited.runHandler (hs : sys.Limited d M R) {g : Group} {w : Worker} {j : ℕ}
    {x : Handler} (hi : sys.workers i = some w) (hj : w.handlers[j]? = some x)
    (hgrow : ∀ e, sys.group.deliveries e ≤ g.deliveries e) {new : List Event}
    (hnew : g.history = new ++ sys.group.history) (hnone : NoStart new) {k : ℕ}
    (hk : k ≤ x.job.budget (d.cfg i)) {p : Program consumerSig Unit}
    (hp : p.wp (handlerContract x.job.messageId) (fun _ _ _ => True) (fun _ _ _ => True) k)
    (hcount : startsIn sys.group.history x.job.messageId x.delivery + k ≤ R) :
    (sys.put (g.record (sent x.delivery p)) i (some (w.runHandler j x p))).Limited d M R := by
  have hwi := hs.workers i w hi
  have hx := hwi.handlers x (List.mem_of_getElem? hj)
  have heq : ∀ e n, startsIn g.history e n = startsIn sys.group.history e n := by
    intro e n
    rw [hnew]
    exact hnone.startsIn e n
  refine hs.put hgrow (fun e n hmem => ?_) (fun e n => ?_) (fun j' w' hji hj' e hpos => ?_) ?_ ?_
  · rcases sent_handler hp x.delivery with ⟨-, hsent⟩ | ⟨hrem, hsent⟩
    · have hold := hsent.mem hmem
      rw [hnew] at hold
      obtain ⟨h1, hM, hle⟩ := hs.started e n (hnone.mem hold)
      exact ⟨h1, hM, hle.trans (hgrow e)⟩
    · change .started e n ∈ sent x.delivery p ++ g.history at hmem
      rw [hsent, hnew] at hmem
      rcases List.mem_cons.mp hmem with heq | hold
      · -- only a call of `_handle_message` has starts left
        obtain ⟨rfl, rfl⟩ := Event.started.inj heq
        have hle := (hwi.le x.job.messageId).trans (hgrow x.job.messageId)
        rw [← hx.delivery] at hle
        refine ⟨hx.pos, ?_, hle⟩
        have hwithin := hx.within
        generalize x.job = job at hwithin hk
        cases job with
        | handleMessage e fields => exact hwithin
        | deadLetterReclaimed e fields count =>
            have hzero : k ≤ 0 := hk
            omega
      · obtain ⟨h1, hM, hle⟩ := hs.started e n (hnone.mem hold)
        exact ⟨h1, hM, hle.trans (hgrow e)⟩
  · change startsIn (sent x.delivery p ++ g.history) e n ≤ R
    by_cases hsame : e = x.job.messageId ∧ n = x.delivery
    · obtain ⟨rfl, rfl⟩ := hsame
      have hsum := startsIn_sent hp x.delivery g.history
      rw [heq] at hsum
      omega
    · rw [startsIn_sent_of_ne hp g.history hsame, heq]
      exact hs.bounded e n
  · change startsIn (sent x.delivery p ++ g.history) e (w'.received e) = _
    rw [startsIn_sent_of_ne hp g.history, heq]
    rintro ⟨rfl, hsame⟩
    -- no two processes hold the same delivery
    rw [hx.delivery] at hsame
    have := hs.apart j' i w' w _ hji hj' hi hsame
    omega
  · rintro _ ⟨⟩
    have hwg : w.Limited (d.cfg i) M R g.deliveries g.history :=
      hwi.mono hgrow fun e _ => heq e _
    refine hwg.runHandler hj hk hp ?_
    rw [heq]
    exact hcount
  · rintro _ ⟨⟩ j' w' e hji hj' hsame
    exact hs.apart i j' w w' e hji.symm hi hj' hsame

omit [StandardLibrary] [DecidableEq ι] in
/-- A process that has received entries stays apart from the others: the counts are new. -/
lemma System.Apart.received (hs : sys.Apart)
    (hle : ∀ j w', sys.workers j = some w' → ∀ e, w'.received e ≤ sys.group.deliveries e)
    {w : Worker} (hi : sys.workers i = some w) {replies : Replies} {c : Command}
    {r : Except Raised c.Answer} {g : Group} (hreply : sys.group.Reply d replies c r g) (j : ι)
    (w' : Worker) (e : EntryId) (hji : j ≠ i) (hj : sys.workers j = some w')
    (hsame : (if e ∈ receivedIds c r then g.deliveries e else w.received e) = w'.received e) :
    (if e ∈ receivedIds c r then g.deliveries e else w.received e) = 0 := by
  have hold := hle j w' hj e
  split at hsame
  · have hcount := hreply.counted ‹_›
    omega
  · rw [if_neg ‹_›]
    exact hs i j w w' e hji.symm hi hj hsame

omit [StandardLibrary] in
/-- The task of process `i` runs to an await, after Redis has answered. -/
lemma System.Limited.runMain (hs : sys.Limited d M R) (hR : ∀ i, (d.cfg i).maxRetries ≤ R)
    {w : Worker} (hi : sys.workers i = some w) {c : Command} {s : Self}
    {k : Except Raised c.Answer → Self → Program consumerSig Unit}
    (hmain : w.main = .await (S := consumerSig) c s k) {r : Except Raised c.Answer} {g : Group}
    (hreply : sys.group.Reply d countReplies c r g) :
    (sys.put (g.record (sent 0 (k r w.self))) i (some (w.runMain
      (fun e => if e ∈ receivedIds c r then g.deliveries e else w.received e)
      (k r w.self)))).Limited d M R := by
  have hwi := hs.workers i w hi
  obtain ⟨fresh, hwp, hidle⟩ := hwi.main
  rw [hmain] at hwp
  have hview := hreply.viewStep hwi.le fresh
  have hnext := hwp.2 r _ w.self hview
  obtain ⟨new, hnew, hnone⟩ := hreply.noStart
  have hsent := sent_main hnext 0
  have heq : ∀ e n, startsIn (g.record (sent 0 (k r w.self))).history e n
      = startsIn sys.group.history e n := by
    intro e n
    change startsIn (sent 0 (k r w.self) ++ g.history) e n = _
    rw [hsent.startsIn, hnew, hnone.startsIn]
  -- an entry that was just given was never started in this delivery
  have hgiven : ∀ e ∈ receivedIds c r, 1 ≤ g.deliveries e
      ∧ startsIn sys.group.history e (g.deliveries e) = 0 := by
    intro e he
    have hcount := hreply.counted he
    refine ⟨by omega, List.count_eq_zero.mpr fun hmem => ?_⟩
    have hle := (hs.started e _ hmem).2.2
    omega
  refine hs.put hreply.deliveries_le (fun e n hmem => ?_) (fun e n => ?_)
    (fun _ _ _ _ e _ => heq e _) ?_ ?_
  · have hold := hsent.mem hmem
    rw [hnew] at hold
    obtain ⟨h1, hM, hle⟩ := hs.started e n (hnone.mem hold)
    exact ⟨h1, hM, hle.trans (hreply.deliveries_le e)⟩
  · rw [heq]
    exact hs.bounded e n
  · rintro _ ⟨⟩
    refine Worker.Limited.runMain (hR i) hnext hview.le fun e he => ?_
    rw [heq]
    by_cases hmem : e ∈ receivedIds c r
    · simp only [if_pos hmem]
      exact hgiven e hmem
    · simp only [if_neg hmem]
      have hfresh : e ∈ fresh ∧ ¬ w.Gathering := by
        have hcmd : w.Gathering → ∃ jobs, c = .gather jobs := by
          rintro ⟨jobs, hjobs⟩
          rw [hmain] at hjobs
          exact ⟨jobs, Option.some.inj hjobs⟩
        cases c with
        | xreadgroup groupname consumername stream count block =>
            cases r with
            | error err => exact ⟨he, fun hg => by obtain ⟨_, h⟩ := hcmd hg; cases h⟩
            | ok response => exact absurd he hmem
        | xautoclaim name groupname consumername minIdleTime startId count =>
            cases r with
            | error err => exact ⟨he, fun hg => by obtain ⟨_, h⟩ := hcmd hg; cases h⟩
            | ok answer => exact absurd he hmem
        | gather jobs => cases he
        | xgroupCreate | xpendingRange | xadd | xack | processMessage | acquire | sleep =>
            exact ⟨he, fun hg => by obtain ⟨_, h⟩ := hcmd hg; cases h⟩
      exact (hidle hfresh.2).2 e hfresh.1
  · rintro _ ⟨⟩
    exact System.Apart.received hs.apart (fun j w' hj => (hs.workers j w' hj).le) hi hreply

variable (hpos : 1 ≤ M) (hM : ∀ i, (d.cfg i).maxDeliveries = M)
  (hR : ∀ i, (d.cfg i).maxRetries ≤ R)

include hpos hM hR

/-- **The step lemma.** -/
theorem System.Limited.step (hs : sys.Limited d M R) (h : sys.Step d countReplies sys') :
    sys'.Limited d M R := by
  cases h with
  | produce e fields hnew => exact ⟨hs.started, hs.bounded, hs.workers, hs.apart⟩
  | trim e => exact ⟨hs.started, hs.bounded, hs.workers, hs.apart⟩
  | tick ms => exact ⟨hs.started, hs.bounded, hs.workers, hs.apart⟩
  | start i fuel monotonic hoff =>
      refine hs.put (fun _ => le_rfl) hs.started hs.bounded (fun _ _ _ _ _ _ => rfl) ?_ ?_
      · rintro _ ⟨⟩
        exact Worker.Limited.runMain (v := ⟨sys.group.deliveries, fun _ => 0, []⟩) (hR i)
          (run_limited (d.cfg i) (hM i) hpos fuel _ _ trivial) (fun _ => Nat.zero_le _) nofun
      · rintro _ ⟨⟩ j w' e hji hj hsame
        rfl
  | crash i =>
      exact hs.put (fun _ => le_rfl) hs.started hs.bounded (fun _ _ _ _ _ _ => rfl) nofun nofun
  | stop i w hw =>
      have hwi := hs.workers i w hw
      exact hs.put_same hw rfl ⟨hwi.le, hwi.main, hwi.nodup, hwi.handlers⟩
  | clock i w monotonic hw =>
      have hwi := hs.workers i w hw
      exact hs.put_same hw rfl ⟨hwi.le, hwi.main, hwi.nodup, hwi.handlers⟩
  | main i w c s k r g hw hmain hreply hgathered => exact hs.runMain hR hw hmain hreply
  | handlerStart i w j x hw hj hnew =>
      have hx := (hs.workers i w hw).handlers x (List.mem_of_getElem? hj)
      exact hs.runHandler hw hj (fun _ => le_rfl) (List.nil_append _).symm nofun le_rfl
        (start_limited (d.cfg i) x.job w.self) (hx.new hnew)
  | handlerCancel i w j x hw hj hnew =>
      have hx := (hs.workers i w hw).handlers x (List.mem_of_getElem? hj)
      refine hs.put_same hw rfl ?_
      exact (hs.workers i w hw).runHandler hj le_rfl
        (p := .done (S := consumerSig) (.error .cancelled) w.self) trivial (hx.new hnew)
  | handler i w j x c s k r g hw hj hprog hreply hslot =>
      have hx := (hs.workers i w hw).handlers x (List.mem_of_getElem? hj)
      obtain ⟨left, hleft, hwp, hcount⟩ := hx.started _ hprog
      have hnext := hwp.2 r (afterAwait left c) (grant c r w.self) rfl
      obtain ⟨new, hnew, hnone⟩ := hreply.noStart
      exact hs.runHandler hw hj hreply.deliveries_le hnew hnone
        ((afterAwait_le left c).trans hleft) hnext hcount

/-- **The run lemma.** -/
theorem System.Reachable.limited (h : sys.Reachable d countReplies) : sys.Limited d M R := by
  induction h with
  | init stream => exact ⟨nofun, fun _ _ => Nat.zero_le _, nofun, nofun⟩
  | step _ hstep ih => exact ih.step hpos hM hR hstep

end Steps

/-! ## The bound -/

/-- `process_message` was entered for the entry. -/
def Event.starts (e : EntryId) : Event → Bool
  | .started e' _ => decide (e' = e)
  | _ => false

/-- The starts of an entry are those in its permitted deliveries. -/
lemma countP_starts {M : ℕ} (e : EntryId) : ∀ h : List Event,
    (∀ n, .started e n ∈ h → 1 ≤ n ∧ n ≤ M) →
    h.countP (Event.starts e) = ∑ n ∈ Finset.Icc 1 M, startsIn h e n
  | [], _ => by simp [startsIn]
  | ev :: h, hin => by
      have ih := countP_starts e h fun n hn => hin n (List.mem_cons_of_mem _ hn)
      have hcount : ∀ n, startsIn (ev :: h) e n
          = startsIn h e n + if ev = .started e n then 1 else 0 := by
        intro n
        rw [startsIn, List.count_cons, startsIn]
        simp
      simp only [hcount, Finset.sum_add_distrib, ← ih]
      by_cases hev : ∃ m, ev = .started e m
      · obtain ⟨m, rfl⟩ := hev
        have hm := hin m (List.mem_cons_self ..)
        rw [List.countP_cons_of_pos (by simp [Event.starts])]
        simp [hm]
      · have hnot : Event.starts e ev = false := by
          cases ev with
          | started e' n =>
              refine decide_eq_false fun heq => hev ⟨n, ?_⟩
              rw [heq]
          | delivered | trimmed | processed | deadLettered | ackSent | acked => rfl
        have hzero : ∀ n, ¬ ev = .started e n := fun n heq => hev ⟨n, heq⟩
        simp [hnot, hzero]

section Bound

variable {ι : Type} [DecidableEq ι] [StandardLibrary]

end Bound

section Solo

attribute [local instance] plainLibrary

end Solo

end Atsig
