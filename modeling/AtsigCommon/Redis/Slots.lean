import AtsigCommon.Coroutine.Pool
import AtsigCommon.Redis.Consumer

/-!
# The slots of a consumer

A consumer handles any number of messages at the same time, and its semaphore limits how many of
them are inside `process_message` or the `XACK` after it.  A handler takes a slot for an attempt and
gives it back at the end of the attempt, whichever way this ends.

* `handlers` — concurrent `_handle_message` calls, with the semaphore between them.
* `Inside`, `HoldsSlot` — what a handler does, and what it owes to the semaphore.
* `handleMessage_slots` — a handler alone: what it gives back, and when.
* `slots_exact` — all of them: the handlers inside and the free slots are as many as the slots.
-/

namespace Atsig

open Coroutine Python

/-! ## The handlers -/

def Command.isProcessMessage : Command → Bool
  | .processMessage .. => true
  | _ => false

/-- The await is part of an attempt: `process_message`, or the `XACK` that comes next. -/
def Command.inAttempt (last : Option Command) : Command → Bool
  | .processMessage .. => true
  | .xack .. => last.any Command.isProcessMessage
  | _ => false

/-- The pause between two attempts, or the write of a dead letter. -/
def Command.isWait : Command → Bool
  | .sleep _ | .xadd .. => true
  | _ => false

lemma Command.inAttempt_of_isWait {c : Command} (last : Option Command) (h : c.isWait = true) :
    c.inAttempt last = false := by
  cases c <;> first | rfl | cases h

/-- The answer gives a slot. -/
def takesSlot {α : Type} : Command → Except Raised α → Bool
  | .acquire, .ok _ => true
  | _, _ => false

section Handlers

variable [StandardLibrary] {ι : Type} [DecidableEq ι] (cfg : Config)

/-- Any number of `_handle_message` calls.  The semaphore gives a slot only when there is one, and a
call that is cancelled while it waits gets none.  The world keeps what each call awaited last. -/
def handlers : Scheduler consumerSig (ι → Option Command) ι Unit where
  starts _ _ x := ∃ messageId rawPayload, x = handleMessage cfg messageId rawPayload
  answers pool i c r last s' :=
    c.Possible r ∧ last = Function.update pool.world i (some c)
      ∧ s'.freeSlots + (takesSlot c r).toNat = pool.shared.freeSlots
  idles _ _ := False
  notes last _ _ := last

end Handlers

/-- The consumer's calls. -/
abbrev HandlerPool (ι : Type) := Pool consumerSig (ι → Option Command) ι Unit

section States

variable {ι : Type} (pool : HandlerPool ι) (i : ι)

/-- Call `i` awaits `c`. -/
def Awaits (c : Command) : Prop := ∃ p, pool.tasks i = some p ∧ p.command? = some c

/-- Call `i` is inside `process_message`, or in the `XACK` after it. -/
def Inside : Prop := ∃ c, Awaits pool i c ∧ c.inAttempt (pool.world i) = true

/-- Call `i` holds a slot: if it is cancelled where it is, it ends and gives one back. -/
def HoldsSlot : Prop :=
  ∃ c s k, pool.tasks i = some (.await c s k) ∧ ∀ s', ∃ s'',
    k (.error .cancelled) s' = .done (.error .cancelled) s'' ∧ s''.freeSlots = s'.freeSlots + 1

end States

/-! ## One handler -/

/-- What is known of a handler: its last await, whether it held a slot when that ended, how many
were free then, and whether it was cancelled there. -/
structure SlotView where
  last : Option Command
  held : Bool
  free : ℕ
  cancelled : Bool

namespace SlotView

def next {α : Type} (g : SlotView) (c : Command) (r : Except Raised α) (s : Self) : SlotView where
  last := some c
  held := c.inAttempt g.last || takesSlot c r
  free := s.freeSlots
  cancelled := match r with
    | .error .cancelled => true
    | _ => false

/-- The handler holds no slot and goes on. -/
def Between (g : SlotView) (s : Self) : Prop :=
  g.cancelled = false ∧ s.freeSlots = g.free + g.held.toNat

/-- The handler holds no slot and an exception is on its way. -/
def Leaves (e : Raised) (g : SlotView) (s : Self) : Prop :=
  (g.cancelled = true → e = .cancelled) ∧ s.freeSlots = g.free + g.held.toNat

lemma Leaves.between {e : PyException} {g : SlotView} {s : Self} (h : g.Leaves (.exception e) s) :
    g.Between s := by
  refine ⟨?_, h.2⟩
  by_contra hcancelled
  have hexception := h.1 (by simpa using hcancelled)
  cases hexception

lemma Between.leaves {e : Raised} {g : SlotView} {s : Self} (h : g.Between s) : g.Leaves e s := by
  refine ⟨fun hcancelled => ?_, h.2⟩
  rw [h.1] at hcancelled
  cases hcancelled

/-- Only a cancellation cancels. -/
lemma eq_cancelled {α : Type} {g : SlotView} {c : Command} {e : Raised} {s : Self}
    (h : (g.next c (.error e : Except Raised α) s).cancelled = true) : e = .cancelled := by
  cases e with
  | cancelled => rfl
  | exception e => cases h

end SlotView

/-- A handler awaits nothing after a cancellation, and it gives back what it held unless it is still
in its attempt. -/
def slotContract : Contract consumerSig SlotView where
  may g s c := g.cancelled = false
    ∧ s.freeSlots + (c.inAttempt g.last).toNat = g.free + g.held.toNat
  env g _ c r g' s' := c.Possible r ∧ g' = g.next c r s'
  cut _ := False

/-- The coroutine begins and ends without a slot. -/
def BetweenSlots {α : Type} (x : Consumer α) : Prop :=
  ∀ (g : SlotView) (s : Self), g.Between s →
    x.wp slotContract (fun _ g s => g.Between s) (fun e g s => g.Leaves e s) g s

section Handler

variable {α β : Type}

namespace BetweenSlots

lemma ret (a : α) : BetweenSlots (pure a) := fun _ _ h => h

lemma writeLog (level : Level) (rid text : String) : BetweenSlots (writeLog level rid text) :=
  fun _ _ h => h

lemma bind {x : Consumer α} {f : α → Consumer β} (hx : BetweenSlots x)
    (hf : ∀ a, BetweenSlots (f a)) : BetweenSlots (x >>= f) := by
  intro g s h
  rw [Co.wp_bind]
  exact Co.wp_mono (hx g s h) (fun a g s h => hf a g s h) (fun _ _ _ h => h)

lemma exceptException {x : Consumer α} {handler : PyException → Consumer α} (hx : BetweenSlots x)
    (hhandler : ∀ e, BetweenSlots (handler e)) : BetweenSlots (exceptException x handler) := by
  intro g s h
  rw [wp_exceptException]
  refine Co.wp_mono (hx g s h) (fun _ _ _ h => h) (fun e g' s' h' => ?_)
  cases e with
  | cancelled => exact h'
  | exception e => exact hhandler e g' s' h'.between

lemma ite {p : Prop} [Decidable p] {x y : Consumer α} (hx : BetweenSlots x)
    (hy : BetweenSlots y) : BetweenSlots (if p then x else y) := by
  split
  · exact hx
  · exact hy

end BetweenSlots

/-- An await outside of the attempts. -/
lemma send_between {c : Command} {g : SlotView} {s : Self} (hout : c.inAttempt g.last = false)
    (htakes : ∀ r : Except Raised c.Answer, takesSlot c r = false) (h : g.Between s) :
    (send c).wp slotContract (fun _ g s => g.Between s ∧ g.last = some c)
      (fun e g s => g.Leaves e s) g s := by
  refine send_wp ⟨h.1, ?_⟩ (fun a g' s' henv => ?_) (fun e g' s' henv => ?_)
  · rw [hout]
    exact h.2
  · obtain ⟨-, rfl⟩ := henv
    refine ⟨⟨rfl, ?_⟩, rfl⟩
    simp only [SlotView.next, hout, htakes, Bool.or_self, Bool.toNat_false, Nat.add_zero]
  · obtain ⟨-, rfl⟩ := henv
    refine ⟨SlotView.eq_cancelled, ?_⟩
    simp only [SlotView.next, hout, htakes, Bool.or_self, Bool.toNat_false, Nat.add_zero]

/-- The slot of an attempt: taken before it and given back after it. -/
lemma withSlot_between (rid : String) (messageId : EntryId) (action : String) (payload : Payload)
    (cfg : Config) : BetweenSlots (withSlot do
      let outcome ← processMessage rid messageId action payload
      xack cfg messageId
      return outcome) := by
  intro g s h
  rw [wp_withSlot]
  refine ⟨⟨h.1, h.2⟩, fun a g₁ s₁ henv₁ => ?_, fun e g₁ s₁ henv₁ => ?_⟩
  · obtain ⟨-, rfl⟩ := henv₁
    rw [Co.wp_bind]
    refine send_wp ⟨rfl, rfl⟩ (fun outcome g₂ s₂ henv₂ => ?_) (fun e g₂ s₂ henv₂ => ?_)
    · obtain ⟨-, rfl⟩ := henv₂
      dsimp only
      rw [Co.wp_bind]
      refine send_wp ⟨rfl, rfl⟩ (fun _ g₃ s₃ henv₃ => ?_) (fun e g₃ s₃ henv₃ => ?_)
      · obtain ⟨-, rfl⟩ := henv₃
        exact ⟨rfl, rfl⟩
      · obtain ⟨-, rfl⟩ := henv₃
        exact ⟨SlotView.eq_cancelled, rfl⟩
    · obtain ⟨-, rfl⟩ := henv₂
      exact ⟨SlotView.eq_cancelled, rfl⟩
  · obtain ⟨-, rfl⟩ := henv₁
    exact ⟨SlotView.eq_cancelled, rfl⟩

variable (cfg : Config) (rid : String) (messageId : EntryId)

section Attempts

variable (action : String) (payload : Payload)

lemma handleAttempt_between (attempt : ℕ) :
    BetweenSlots (handleAttempt cfg rid messageId action payload attempt) := by
  refine .exceptException ?_ fun e => .ite ?_ ?_
  · refine .bind (.writeLog _ _ _) fun _ => ?_
    refine .bind (withSlot_between rid messageId action payload cfg) fun outcome => ?_
    exact .bind (.writeLog _ _ _) fun _ => .ret _
  · exact .bind (.writeLog _ _ _) fun _ => .ret _
  · refine .bind (.writeLog _ _ _) fun _ => .bind (.ite ?_ (.ret _)) fun _ => .ret _
    intro g s h
    exact Co.wp_mono (send_between rfl (fun _ => rfl) h) (fun _ _ _ h => h.1) (fun _ _ _ h => h)

lemma retryLoop_between : ∀ (attempt left : ℕ) (lastError : Option String),
    BetweenSlots (retryLoop cfg rid messageId action payload attempt left lastError)
  | _, 0, _ => .ret _
  | attempt, left + 1, _ => by
      refine .bind (handleAttempt_between cfg rid messageId action payload attempt) fun ending => ?_
      cases ending with
      | acked => exact .ret _
      | nonRetryable lastError => exact .ret _
      | failed lastError => exact retryLoop_between (attempt + 1) left (some lastError)

end Attempts

variable [StandardLibrary]

/-- The dead letter is written without a slot, and so is the `XACK` after it. -/
lemma sendToDlq_xack_between (rawPayload : Dict String Text) (errorMsg : Option String) :
    BetweenSlots (do sendToDlq cfg rid messageId rawPayload errorMsg; xack cfg messageId) := by
  intro g s h
  rw [Co.wp_bind, sendToDlq, wp_exceptException, Co.wp_bind]
  refine Co.wp_mono (send_between rfl (fun _ => rfl) h) (fun _ g' s' h' => ?_) (fun e g' s' h' => ?_)
  · obtain ⟨h', hlast⟩ := h'
    rw [wp_writeLog]
    refine Co.wp_mono (send_between ?_ (fun _ => rfl) h') (fun _ _ _ h => h.1) (fun _ _ _ h => h)
    simp only [Command.inAttempt, hlast, Option.any_some, Command.isProcessMessage]
  · cases e with
    | cancelled => exact h'
    | exception e => exact h'.between.leaves

lemma handleEnvelope_between (normalizedPayload : Dict String String) (action : String)
    (payload : Payload) :
    BetweenSlots (handleEnvelope cfg rid messageId normalizedPayload action payload) := by
  refine .bind (retryLoop_between cfg rid messageId action payload 1 _ none) fun ending => ?_
  cases ending with
  | acked => exact .ret _
  | gaveUp lastError skippedRetries =>
      refine .bind (.writeLog _ _ _) fun _ => ?_
      exact sendToDlq_xack_between cfg rid messageId (textValues normalizedPayload) lastError

/-- **A handler alone.**  Outside of its attempts it holds no slot, and it ends without one. -/
theorem handleMessage_slots (rawPayload : Fields) :
    BetweenSlots (handleMessage cfg messageId rawPayload) := by
  refine .exceptException ?_ fun e => .writeLog _ _ _
  cases readEnvelope rawPayload with
  | error e =>
      exact .bind (.writeLog _ _ _) fun _ => sendToDlq_xack_between cfg _ messageId _ _
  | ok envelope => exact handleEnvelope_between cfg _ messageId _ _ _

end Handler

/-! ## All of them -/

section Slots

variable {ι : Type}

/-- A handler that is cancelled at an await gives back what it holds there, and ends. -/
lemma cancelled_gives_back {c : Command} {s : Self}
    {k : Except Raised c.Answer → Self → Program consumerSig Unit} {g : SlotView}
    (h : (Program.await (S := consumerSig) c s k).wp slotContract (fun _ g s => g.Between s)
      (fun e g s => g.Leaves e s) g) (s' : Self) :
    ∃ s'', k (.error .cancelled) s' = .done (.error .cancelled) s''
      ∧ s''.freeSlots = s'.freeSlots + (c.inAttempt g.last).toNat := by
  have hnext := h.2 (.error .cancelled) (g.next c (.error .cancelled : Except Raised c.Answer) s') s'
    ⟨nofun, rfl⟩
  have hheld : (c.inAttempt g.last || takesSlot c (.error .cancelled : Except Raised c.Answer))
      = c.inAttempt g.last := by
    cases c <;> exact Bool.or_false _
  cases hk : k (.error .cancelled) s' with
  | spent =>
      rw [hk] at hnext
      exact absurd hnext id
  | await c' s'' k' =>
      rw [hk] at hnext
      cases hnext.1.1
  | done r s'' =>
      rw [hk] at hnext
      cases r with
      | ok a => cases hnext.1
      | error e =>
          obtain ⟨hcancelled, hfree⟩ := hnext
          rw [hcancelled rfl]
          refine ⟨s'', rfl, ?_⟩
          rw [← hheld]
          exact hfree

/-- A slot is taken before the attempt. -/
lemma takesSlot_apart {α : Type} (last : Option Command) (c : Command) (r : Except Raised α) :
    (c.inAttempt last || takesSlot c r).toNat = (c.inAttempt last).toNat + (takesSlot c r).toNat := by
  cases c with
  | acquire => cases r <;> rfl
  | _ => exact congrArg Bool.toNat (Bool.or_false _)

/-- The program is inside `process_message`, or in the `XACK` after it. -/
def attempting (last : Option Command) (p : Program consumerSig Unit) : Bool :=
  p.command?.any (Command.inAttempt last)

lemma inside_iff {pool : HandlerPool ι} {i : ι} {p : Program consumerSig Unit}
    (h : pool.tasks i = some p) : Inside pool i ↔ attempting (pool.world i) p = true := by
  rw [Inside, attempting, Option.any_eq_true]
  refine exists_congr fun c => and_congr_left fun _ => ⟨?_, fun hc => ⟨p, h, hc⟩⟩
  rintro ⟨p', hp', hc⟩
  rw [h] at hp'
  cases hp'
  exact hc

/-- Where a handler has stopped, it has given back what it does not hold any more. -/
lemma settled_slots {g : SlotView} {p : Program consumerSig Unit} {s : Self}
    (h : p.Settled slotContract (fun _ g s => g.Between s) (fun e g s => g.Leaves e s) g) :
    Self.freeSlots (p.state?.getD s) + (attempting g.last p).toNat = g.free + g.held.toNat := by
  cases p with
  | spent => exact absurd h id
  | await c s' k => exact h.2
  | done r s' =>
      cases r with
      | ok a => exact h.2
      | error e => exact h.2

/-- The handlers inside and the free slots are as many as the slots. -/
def Balanced (slots : ℕ) (pool : HandlerPool ι) : Prop :=
  ∃ inside : Finset ι, (∀ i, i ∈ inside ↔ Inside pool i)
    ∧ inside.card + pool.shared.freeSlots = slots

/-- A handler holds a slot exactly while it is inside: a cancellation would free one. -/
lemma holdsSlot_iff {pool : HandlerPool ι} {i : ι} {g : SlotView} (hg : g.last = pool.world i)
    (hkeep : ∀ p, pool.tasks i = some p →
      p.wp slotContract (fun _ g s => g.Between s) (fun e g s => g.Leaves e s) g) :
    HoldsSlot pool i ↔ Inside pool i := by
  constructor
  · rintro ⟨c, s, k, htask, hslot⟩
    obtain ⟨s₁, hdone, hfree⟩ := cancelled_gives_back (hkeep _ htask) s
    obtain ⟨s₂, hdone', hfree'⟩ := hslot s
    rw [hdone] at hdone'
    cases hdone'
    refine ⟨c, ⟨_, htask, rfl⟩, ?_⟩
    rw [← hg]
    by_contra hout
    rw [Bool.not_eq_true] at hout
    rw [hout, Bool.toNat_false] at hfree
    omega
  · rintro ⟨c, ⟨p, htask, hp⟩, hin⟩
    cases p with
    | done r s => cases hp
    | spent => cases hp
    | await c' s k =>
        cases hp
        refine ⟨c, s, k, htask, fun s' => ?_⟩
        obtain ⟨s'', hdone, hfree⟩ := cancelled_gives_back (hkeep _ htask) s'
        rw [hg, hin] at hfree
        exact ⟨s'', hdone, hfree⟩

/-- A handler that is inside does not wait for anything else. -/
lemma Inside.isWait {pool : HandlerPool ι} {i : ι} {c : Command} (h : Inside pool i)
    (hc : Awaits pool i c) : c.isWait = false := by
  obtain ⟨c', ⟨p', hp', hc'⟩, hin⟩ := h
  obtain ⟨p, hp, hc⟩ := hc
  rw [hp'] at hp
  cases hp
  rw [hc'] at hc
  cases hc
  by_contra hwait
  rw [Bool.not_eq_false] at hwait
  rw [Command.inAttempt_of_isWait _ hwait] at hin
  cases hin

/-- When all handlers have ended, all slots are free. -/
lemma Balanced.all_free {slots : ℕ} {pool : HandlerPool ι} (h : Balanced slots pool)
    (hended : ∀ i p, pool.tasks i = some p → ∃ r s, p = .done r s) :
    pool.shared.freeSlots = slots := by
  obtain ⟨inside, hinside, hcard⟩ := h
  have hempty : inside = ∅ := by
    refine Finset.eq_empty_of_forall_notMem fun i hi => ?_
    obtain ⟨c, ⟨p, hp, hc⟩, -⟩ := (hinside i).mp hi
    obtain ⟨r, s, rfl⟩ := hended i p hp
    cases hc
  rw [hempty, Finset.card_empty, Nat.zero_add] at hcard
  exact hcard

variable [StandardLibrary] [DecidableEq ι] {cfg : Config}

/-- One handler runs, to where it has given back what it does not hold any more. -/
lemma Balanced.run {slots : ℕ} {pool : HandlerPool ι} (h : Balanced slots pool) {i : ι}
    {last : ι → Option Command} {s : Self} {p : Program consumerSig Unit} (held : Bool)
    (hlast : ∀ j, j ≠ i → last j = pool.world j) (hheld : Inside pool i ↔ held = true)
    (hfree : Self.freeSlots (p.state?.getD s) + (attempting (last i) p).toNat
      = pool.shared.freeSlots + held.toNat) :
    Balanced slots (pool.run (handlers cfg) i last s p) := by
  obtain ⟨inside, hinside, hcard⟩ := h
  have hi : Inside (pool.run (handlers cfg) i last s p) i ↔ attempting (last i) p = true :=
    inside_iff (by simp [Pool.run])
  have hother : ∀ j, j ≠ i → (Inside (pool.run (handlers cfg) i last s p) j ↔ Inside pool j) := by
    intro j hj
    simp only [Inside, Awaits, Pool.run, handlers, Function.update_of_ne hj, hlast j hj]
  obtain ⟨inside', hinside', hcard'⟩ := exists_card_update hinside hother hheld hi
  refine ⟨inside', hinside', ?_⟩
  show inside'.card + Self.freeSlots (p.state?.getD s) = slots
  omega

omit [StandardLibrary] in
/-- The last commands that the handlers have sent are those of their ghost states. -/
lemma lasts_update {pool : HandlerPool ι} {gs : ι → SlotView} {i : ι} {g : SlotView}
    {last : ι → Option Command} (hgs : ∀ j, (gs j).last = pool.world j) (hg : g.last = last i)
    (hother : ∀ j, j ≠ i → last j = pool.world j) (j : ι) :
    (Function.update gs i g j).last = last j := by
  by_cases hj : j = i
  · subst hj
    rw [Function.update_self, hg]
  · rw [Function.update_of_ne hj, hgs j, hother j hj]

/-- **The invariant of the handlers**: the slots are balanced, and every handler is on its way to
give back what it holds. -/
theorem handlers_balanced {monotonic : ℚ} {pool : HandlerPool ι}
    (h : (handlers cfg).Reachable (fun _ => none) (Self.init cfg monotonic) pool) :
    ∃ gs : ι → SlotView, ((∀ i, (gs i).last = pool.world i) ∧ Balanced cfg.concurrency pool)
      ∧ ∀ i p, pool.tasks i = some p →
        p.wp slotContract (fun _ g s => g.Between s) (fun e g s => g.Leaves e s) (gs i) := by
  refine h.invariant (J := fun (pool : HandlerPool ι) (gs : ι → SlotView) =>
    (∀ i, (gs i).last = pool.world i) ∧ Balanced cfg.concurrency pool) ?_ ?_ ?_ ?_
  · refine ⟨fun _ => ⟨none, false, 0, false⟩, fun _ => rfl, ∅, fun i => ?_, Nat.zero_add _⟩
    simp [Inside, Awaits]
  · rintro pool gs i _ ⟨hgs, hbalanced⟩ hnew ⟨messageId, rawPayload, rfl⟩
    refine ⟨⟨pool.world i, false, pool.shared.freeSlots, false⟩,
      handleMessage_slots cfg messageId rawPayload _ _ ⟨rfl, rfl⟩, fun p hp => ⟨?_, ?_⟩⟩
    · exact lasts_update hgs rfl fun _ _ => rfl
    · refine hbalanced.run false (fun _ _ => rfl) ?_ (settled_slots hp)
      simp [Inside, Awaits, hnew]
  · rintro pool gs i c s k r last s' ⟨hgs, hbalanced⟩ htask hmay ⟨hpossible, rfl, hslots⟩
    refine ⟨(gs i).next c r s', ⟨hpossible, rfl⟩, fun p hp => ⟨?_, ?_⟩⟩
    · have hself : Function.update pool.world i (some c) i = some c := Function.update_self ..
      exact lasts_update hgs hself.symm fun j hj => Function.update_of_ne hj _ _
    · refine hbalanced.run (c.inAttempt (pool.world i))
        (fun j hj => Function.update_of_ne hj _ _) (inside_iff htask) ?_
      rw [Function.update_self, ← hslots, ← hgs i]
      have hsettled := settled_slots (s := s') hp
      have hheld := takesSlot_apart (gs i).last c r
      simp only [SlotView.next] at hsettled ⊢
      omega
  · rintro pool gs w - ⟨⟩

/-- **The slots of a consumer** are never exceeded and never leak, and nobody waits with one. -/
theorem slots_exact {monotonic : ℚ} {pool : HandlerPool ι}
    (h : (handlers cfg).Reachable (fun _ => none) (Self.init cfg monotonic) pool) :
    (∃ inside : Finset ι, (∀ i, i ∈ inside ↔ Inside pool i)
        ∧ inside.card + pool.shared.freeSlots = cfg.concurrency)
      ∧ (∀ i, HoldsSlot pool i ↔ Inside pool i)
      ∧ (∀ i c, Awaits pool i c → c.isWait = true → ¬ HoldsSlot pool i)
      ∧ ((∀ i p, pool.tasks i = some p → ∃ r s, p = .done r s) →
          pool.shared.freeSlots = cfg.concurrency) := by
  obtain ⟨gs, ⟨hgs, hbalanced⟩, hkeep⟩ := handlers_balanced h
  have hholds : ∀ i, HoldsSlot pool i ↔ Inside pool i := fun i => holdsSlot_iff (hgs i) (hkeep i)
  refine ⟨hbalanced, hholds, fun i c hc hwait hslot => ?_, hbalanced.all_free⟩
  have hnot := ((hholds i).mp hslot).isWait hc
  rw [hwait] at hnot
  cases hnot

end Slots

section Solo

attribute [local instance] plainLibrary

/-- Two calls: the first one is inside `process_message`, and it alone holds a slot. -/
theorem slots_exact_ping : ∃ pool : HandlerPool Bool,
    (handlers soloConfig).Reachable (fun _ => none) (Self.init soloConfig 0) pool
      ∧ Awaits pool true .acquire ∧ HoldsSlot pool false ∧ pool.shared.freeSlots = 9 := by
  let free (slots : ℕ) : Self := { Self.init soloConfig 0 with freeSlots := slots }
  have h₀ : (handlers soloConfig).Reachable (fun _ => none) (Self.init soloConfig 0)
      (⟨fun _ => none, Self.init soloConfig 0, fun _ => none⟩ : HandlerPool Bool) := .init
  have h₁ := h₀.step (.start _ false (handleMessage soloConfig ⟨1, 0⟩ pingFields) rfl ⟨_, _, rfl⟩)
  have h₂ := h₁.step (.start _ true (handleMessage soloConfig ⟨2, 0⟩ pingFields) rfl ⟨_, _, rfl⟩)
  have h₃ := h₂.step (.resume _ false Command.acquire _ _ (.ok ()) _ (free 9)
    (by with_unfolding_all rfl) ⟨nofun, rfl, by with_unfolding_all rfl⟩)
  obtain ⟨-, hholds, -, -⟩ := slots_exact h₃
  refine ⟨_, h₃, ⟨_, by with_unfolding_all rfl, by with_unfolding_all rfl⟩,
    (hholds false).mpr ⟨_, ⟨_, by with_unfolding_all rfl, by with_unfolding_all rfl⟩, rfl⟩,
    by with_unfolding_all rfl⟩

end Solo

end Atsig
