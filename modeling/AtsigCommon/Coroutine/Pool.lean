import AtsigCommon.Coroutine.Contract
import Mathlib.Data.Finset.Card
import Mathlib.Logic.Function.Basic

/-!
# Pools: coroutines interleaved over a shared state

A `Pool` holds any number of tasks that see one shared state.  A task runs to its next await in one
atomic step; between two of its awaits every other task may run.  What the tasks do not see, such
as the time and what has happened so far, is the `world`.

A `Scheduler` says which coroutines may be started, how an await may end, what happens by itself,
and what the world notes about a task that has run.

* `Scheduler.Step`, `Scheduler.Reachable` — the interleavings.
* `Scheduler.Reachable.invariant_reached` — the rule for them: when every task keeps a contract
  with a ghost state of its own, an invariant that ties the ghost states to the pool is shown by
  looking at one task at a time.
-/

namespace Coroutine

variable {S : Signature} {W ι G α : Type}

/-- Tasks that share a state. -/
structure Pool (S : Signature) (W ι α : Type) where
  world : W
  shared : S.State
  tasks : ι → Option (Program S α)

/-- What surrounds a pool. -/
structure Scheduler (S : Signature) (W ι α : Type) where
  /-- The coroutines that may be entered as task `i`. -/
  starts : Pool S W ι α → ι → Co S α → Prop
  /-- How an await of task `i` may end: with which answer, in which world and shared state. -/
  answers : Pool S W ι α → ι → (c : S.Command) → Except S.Raise (S.Answer c) → W → S.State → Prop
  /-- What happens by itself. -/
  idles : W → W → Prop
  /-- What the world notes about task `i`, which has run. -/
  notes : W → ι → Program S α → W

/-- A task that waits has not ended. -/
lemma Pool.ne_done_of_await {pool : Pool S W ι α} {i : ι} {c : S.Command} {s : S.State}
    {k : Except S.Raise (S.Answer c) → S.State → Program S α}
    (htask : pool.tasks i = some (.await c s k)) (r : Except S.Raise α) (s' : S.State) :
    pool.tasks i ≠ some (.done r s') := by
  rw [htask]
  intro h
  cases h

section Steps

variable [DecidableEq ι] (sched : Scheduler S W ι α)

/-- Task `i` has run to its next await from the world `w` and the shared state `s`. -/
def Pool.run (pool : Pool S W ι α) (i : ι) (w : W) (s : S.State) (p : Program S α) :
    Pool S W ι α where
  world := sched.notes w i p
  shared := p.state?.getD s
  tasks := Function.update pool.tasks i (some p)

/-- One atomic step. -/
inductive Scheduler.Step : Pool S W ι α → Pool S W ι α → Prop
  /-- A task is entered. -/
  | start (pool : Pool S W ι α) (i : ι) (x : Co S α) (hnew : pool.tasks i = none)
      (h : sched.starts pool i x) :
      Step pool (pool.run sched i pool.world pool.shared (x pool.shared))
  /-- An await ends. -/
  | resume (pool : Pool S W ι α) (i : ι) (c : S.Command) (s : S.State)
      (k : Except S.Raise (S.Answer c) → S.State → Program S α)
      (r : Except S.Raise (S.Answer c)) (w : W) (s' : S.State)
      (htask : pool.tasks i = some (.await c s k)) (h : sched.answers pool i c r w s') :
      Step pool (pool.run sched i w s' (k r s'))
  /-- Nothing runs. -/
  | idle (pool : Pool S W ι α) (w : W) (h : sched.idles pool.world w) :
      Step pool { pool with world := w }

/-- The pools that are reached, from one without tasks. -/
inductive Scheduler.Reachable (w : W) (s : S.State) : Pool S W ι α → Prop
  | init : Reachable w s ⟨w, s, fun _ => none⟩
  | step {pool pool' : Pool S W ι α} (h : Reachable w s pool) (hstep : sched.Step pool pool') :
      Reachable w s pool'

variable {sched}

lemma Pool.run_self {pool : Pool S W ι α} {i : ι} {w : W} {s : S.State} {p : Program S α} :
    (pool.run sched i w s p).tasks i = some p := Function.update_self ..

lemma Pool.run_of_ne {pool : Pool S W ι α} {i j : ι} {w : W} {s : S.State} {p : Program S α}
    (h : j ≠ i) : (pool.run sched i w s p).tasks j = pool.tasks j := Function.update_of_ne h ..

/-- The tasks after task `i` has run. -/
lemma Pool.run_tasks {pool : Pool S W ι α} {i j : ι} {w : W} {s : S.State} {p q : Program S α}
    (h : (pool.run sched i w s p).tasks j = some q) :
    (j = i ∧ q = p) ∨ (j ≠ i ∧ pool.tasks j = some q) := by
  by_cases hj : j = i
  · subst hj
    exact Or.inl ⟨rfl, by simpa [Pool.run, eq_comm] using h⟩
  · exact Or.inr ⟨hj, by simpa [Pool.run, hj] using h⟩

end Steps

/-! ## Counting tasks -/

/-- A set of tasks changes in one place. -/
lemma exists_card_update [DecidableEq ι] {P Q : ι → Prop} {i : ι} {p q : Bool} {t : Finset ι}
    (ht : ∀ j, j ∈ t ↔ P j) (hother : ∀ j, j ≠ i → (Q j ↔ P j)) (hp : P i ↔ p = true)
    (hq : Q i ↔ q = true) :
    ∃ u : Finset ι, (∀ j, j ∈ u ↔ Q j) ∧ u.card + p.toNat = t.card + q.toNat := by
  have hcard : (t.erase i).card + p.toNat = t.card := by
    cases p with
    | false => rw [Finset.erase_eq_of_notMem (by simp [ht, hp]), Bool.toNat_false, Nat.add_zero]
    | true => exact Finset.card_erase_add_one (by simp [ht, hp])
  cases q with
  | false =>
      refine ⟨t.erase i, fun j => ?_, hcard⟩
      by_cases hj : j = i
      · subst hj
        simp [hq]
      · simp [hj, ht, hother j hj]
  | true =>
      refine ⟨insert i (t.erase i), fun j => ?_, ?_⟩
      · by_cases hj : j = i
        · subst hj
          simp [hq]
        · simp [hj, ht, hother j hj]
      · rw [Finset.card_insert_of_notMem (Finset.notMem_erase i t), Bool.toNat_true]
        omega

/-! ## The rule -/

variable {C : Contract S G} {φ : α → G → S.State → Prop} {ψ : S.Raise → G → S.State → Prop}

/-- What a program that keeps a contract has established when it stops running: a permission, or
its postcondition. -/
def Program.Settled (C : Contract S G) (φ : α → G → S.State → Prop)
    (ψ : S.Raise → G → S.State → Prop) (g : G) : Program S α → Prop
  | .done (.ok a) s => φ a g s
  | .done (.error e) s => ψ e g s
  | .await c s _ => C.may g s c
  | .spent => C.cut g

lemma Program.wp.settled {p : Program S α} {g : G} (h : p.wp C φ ψ g) : p.Settled C φ ψ g := by
  cases p with
  | done r s => cases r <;> exact h
  | await c s k => exact h.1
  | spent => exact h

variable [DecidableEq ι] {sched : Scheduler S W ι α} {J : Pool S W ι α → (ι → G) → Prop} {w₀ : W}
  {s₀ : S.State}

/-- **The rule for pools**, where each step may use that the pool before it is reached.  Suppose that
what is started keeps the contract, that every answer is within it, and that each of these steps,
seen from the task that runs, keeps `J`.  Then in every reachable pool there are ghost states for
which `J` holds and every task keeps the contract. -/
theorem Scheduler.Reachable.invariant_reached
    (hinit : ∃ gs, J ⟨w₀, s₀, fun _ => none⟩ gs)
    (hstart : ∀ pool gs i x, sched.Reachable w₀ s₀ pool → J pool gs → pool.tasks i = none →
      sched.starts pool i x → ∃ g, x.wp C φ ψ g pool.shared ∧ ∀ p, Program.Settled C φ ψ g p →
        J (pool.run sched i pool.world pool.shared p) (Function.update gs i g))
    (hresume : ∀ pool gs i c s k r w s', sched.Reachable w₀ s₀ pool → J pool gs →
      pool.tasks i = some (.await c s k) → C.may (gs i) s c → sched.answers pool i c r w s' →
      ∃ g, C.env (gs i) s c r g s' ∧ ∀ p, Program.Settled C φ ψ g p →
        J (pool.run sched i w s' p) (Function.update gs i g))
    (hidle : ∀ pool gs w, sched.Reachable w₀ s₀ pool → J pool gs → sched.idles pool.world w →
      J { pool with world := w } gs)
    {pool : Pool S W ι α} (h : sched.Reachable w₀ s₀ pool) :
    ∃ gs, J pool gs ∧ ∀ i p, pool.tasks i = some p → p.wp C φ ψ (gs i) := by
  have hput : ∀ {pool : Pool S W ι α} {gs : ι → G} {i : ι} {g : G} {w : W} {s : S.State}
      {p : Program S α}, (∀ j q, pool.tasks j = some q → q.wp C φ ψ (gs j)) → p.wp C φ ψ g →
      ∀ j q, (pool.run sched i w s p).tasks j = some q →
        q.wp C φ ψ (Function.update gs i g j) := by
    intro pool gs i g w s p hkeep hp j q hj
    rcases Pool.run_tasks hj with ⟨rfl, rfl⟩ | ⟨hne, hj⟩
    · rw [Function.update_self]
      exact hp
    · rw [Function.update_of_ne hne]
      exact hkeep j q hj
  induction h with
  | init =>
      obtain ⟨gs, hJ⟩ := hinit
      exact ⟨gs, hJ, nofun⟩
  | step hreach hstep ih =>
      obtain ⟨gs, hJ, hkeep⟩ := ih
      cases hstep with
      | start i x hnew h =>
          obtain ⟨g, hx, hnext⟩ := hstart _ gs i x hreach hJ hnew h
          exact ⟨_, hnext _ hx.settled, hput hkeep hx⟩
      | resume i c s k r w s' htask h =>
          have hwp := hkeep i _ htask
          obtain ⟨g, henv, hnext⟩ := hresume _ gs i c s k r w s' hreach hJ htask hwp.1 h
          have hp := hwp.2 r g s' henv
          exact ⟨_, hnext _ hp.settled, hput hkeep hp⟩
      | idle w h => exact ⟨gs, hidle _ gs w hreach hJ h, hkeep⟩

/-- **The rule for pools** whose steps need to know nothing else. -/
theorem Scheduler.Reachable.invariant
    (hinit : ∃ gs, J ⟨w₀, s₀, fun _ => none⟩ gs)
    (hstart : ∀ pool gs i x, J pool gs → pool.tasks i = none → sched.starts pool i x →
      ∃ g, x.wp C φ ψ g pool.shared ∧ ∀ p, Program.Settled C φ ψ g p →
        J (pool.run sched i pool.world pool.shared p) (Function.update gs i g))
    (hresume : ∀ pool gs i c s k r w s', J pool gs → pool.tasks i = some (.await c s k) →
      C.may (gs i) s c → sched.answers pool i c r w s' →
      ∃ g, C.env (gs i) s c r g s' ∧ ∀ p, Program.Settled C φ ψ g p →
        J (pool.run sched i w s' p) (Function.update gs i g))
    (hidle : ∀ pool gs w, J pool gs → sched.idles pool.world w → J { pool with world := w } gs)
    {pool : Pool S W ι α} (h : sched.Reachable w₀ s₀ pool) :
    ∃ gs, J pool gs ∧ ∀ i p, pool.tasks i = some p → p.wp C φ ψ (gs i) :=
  h.invariant_reached hinit (fun pool gs i x _ => hstart pool gs i x)
    (fun pool gs i c s k r w s' _ => hresume pool gs i c s k r w s')
    fun pool gs w _ => hidle pool gs w

end Coroutine
