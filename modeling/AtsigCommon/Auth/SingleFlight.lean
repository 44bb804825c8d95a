import AtsigCommon.Auth.Verifier
import AtsigCommon.Coroutine.Pool
import Mathlib.Tactic.Linarith

/-!
# Concurrent calls and the requests they make

Any number of calls of `adecode_token`, each with its thread, on one verifier.  The decision to
fetch and the fetch itself are apart: `_refresh_if_needed` looks at the keys without the lock, and
`refresh` does not look again when it has the lock.  `_keys_for` decides under the lock.

* `keyPool` — the calls and the threads as a pool.
* `flight` — what a task does while it has the lock, and that it changes nothing without it.
* `single_flight` — while `refresh` finds the keys still stale whenever it gets to its fetch, the
  requests keep their distance.
* `fetched_twice` — two threads that looked at the keys before either fetched them.
-/

namespace Atsig

open Coroutine Python

/-- A call of `adecode_token`, or the thread that it starts. -/
inductive Who (ι : Type)
  | call (i : ι)
  | thread (i : ι)
  deriving DecidableEq

/-- The time, when `certs` was called, the newest call first, and the last reading of the clock by
each task. -/
structure Flight (ι : Type) where
  now : ℚ
  attempts : List ℚ
  asked : Who ι → ℚ

section Flight

variable [Jose] {ι : Type} [DecidableEq ι] (cfg : VerifierConfig)

/-- A call whose claims nobody reads. -/
def callOf (token : Jose.Token) : Auth Unit := do
  let _ ← adecodeToken cfg token
  return ()

/-- Calls and threads over one verifier. -/
abbrev KeyPool (ι : Type) := Pool authSig (Flight ι) (Who ι) Unit

/-- Calls of `adecode_token`, one for each token.  The lock is granted while it is free; the await
of a thread ends when the thread has, or by a cancellation; the clock does not go back.  Any task
may run between two awaits of another, also where the event loop would let only a thread run. -/
def keyPool (tokens : ι → Jose.Token)
    (allowed : KeyPool ι → (c : AuthCommand) → Except AuthRaised c.Answer → Prop) :
    Scheduler authSig (Flight ι) (Who ι) Unit where
  starts pool who x :=
    match who with
    | .call i => x = callOf cfg (tokens i)
    | .thread i => x = refreshIfNeeded cfg
        ∧ (pool.tasks (.call i)).bind Program.command? = some .toThread
  answers pool who c r w v :=
    allowed pool c r ∧
      match c with
      | .clock _ => r = .ok pool.world.now ∧ v = pool.shared
          ∧ w = { pool.world with asked := Function.update pool.world.asked who pool.world.now }
      | .acquire => r = .ok () ∧ pool.shared.locked = false
          ∧ v = { pool.shared with locked := true } ∧ w = pool.world
      | .certs => r ≠ .error .cancelled ∧ v = pool.shared ∧ w = pool.world
      | .validate .. | .clientDecode _ => v = pool.shared ∧ w = pool.world
      | .toThread => (r = .error .cancelled
            ∨ ∃ i s, who = .call i ∧ pool.tasks (.thread i) = some (.done r s))
          ∧ v = pool.shared ∧ w = pool.world
  idles w w' := ∃ now, w.now ≤ now ∧ w' = { w with now := now }
  notes w _ p :=
    match p.command? with
    | some .certs => { w with attempts := w.now :: w.attempts }
    | _ => w

/-- `certs` succeeds, with keys that the realm has. -/
def Succeeds (served : Jose.KeySet → Prop) : (c : AuthCommand) → Except AuthRaised c.Answer → Prop
  | .certs, r => ∃ keys, fetchedKeys r = some keys ∧ served keys
  | _, _ => True

/-- **The condition**: when `refresh`, which has the lock, reads the clock for its fetch, the keys
are still missing or stale. -/
def StillStale (pool : KeyPool ι) : AuthCommand → Prop
  | .clock (.fetch .refresh) => pool.shared.isStale cfg pool.world.now = true
  | _ => True

/-! ## What a task does with the lock -/

/-- How far a task is: it does not have the lock; it has it; it has read the clock in `_keys_for`,
or for its fetch; it has got the keys. -/
inductive Phase
  | outside
  | inside
  | decided (now : ℚ)
  | fetching (now : ℚ)
  | stored (now : ℚ) (keys : Jose.KeySet)

/-- The phase, and the verifier when the task last went on. -/
structure Seen where
  phase : Phase
  state : Verifier

/-- What makes `_keys_for` fetch: stale keys, or, unless every key id is known, an attempt that is
long enough ago. -/
def Due (known : Prop) (v : Verifier) (now : ℚ) : Prop :=
  v.isStale cfg now = true ∨ (¬ known ∧ v.keys.isSome ∧
    ∀ last, v.lastAttempt = some last → now - last ≥ cfg.minRefreshInterval)

/-- **The contract of a task**: without the lock it changes nothing; with it, it fetches when that
is due, stores what it got and gives the lock back.  While a task has the lock nobody else changes
the verifier, and its keys have been served. -/
def flight (served : Jose.KeySet → Prop) (known : Prop) : Contract authSig Seen where
  may g v c :=
    match g.phase, c with
    | .outside, .clock .needsRefresh => v = g.state
    | .outside, .acquire => v = g.state
    | .outside, .toThread => v = g.state
    | .outside, .clientDecode _ => v = g.state
    | .inside, .clock .keysFor => v = g.state
    | .inside, .clock (.fetch .refresh) => v = g.state
    | .decided now, .clock (.fetch .keysFor) => v = g.state ∧ Due cfg known v now
    | .decided now, .validate keys .. => v = { g.state with locked := false }
        ∧ v.isStale cfg now = false ∧ keys = v.keys
    | .fetching now, .certs => v = { g.state with lastAttempt := some now }
    | .stored now new, .validate keys .. => v = { g.state with
        keys := some new, fetchedAt := now, locked := false } ∧ keys = some new
    | _, _ => False
  env g v c r g' v' :=
    match g.phase, c with
    | .outside, .clock .needsRefresh => (∃ now, r = .ok now) ∧ g' = ⟨.outside, v'⟩
    | .outside, .acquire => r = .ok () ∧ g' = ⟨.inside, v'⟩
    | .inside, .clock .keysFor => ∃ now, r = .ok now ∧ v' = v ∧ g' = ⟨.decided now, v'⟩
        ∧ ∀ keys, v.keys = some keys → served keys
    | .inside, .clock (.fetch _) => ∃ now, r = .ok now ∧ v' = v ∧ v.isStale cfg now = true
        ∧ g' = ⟨.fetching now, v'⟩
    | .decided t, .clock (.fetch _) => ∃ now, r = .ok now ∧ t ≤ now ∧ v' = v
        ∧ g' = ⟨.fetching now, v'⟩
    | .fetching now, .certs => ∃ keys, fetchedKeys r = some keys ∧ v' = v
        ∧ g' = ⟨.stored now keys, v'⟩
    | _, _ => g' = ⟨.outside, v'⟩
  cut _ := False

/-- What a task that has ended leaves behind. -/
def Left (g : Seen) (v : Verifier) : Prop :=
  match g.phase with
  | .outside => v = g.state
  | .decided _ => v = { g.state with locked := false }
  | .stored now keys =>
      v = { g.state with keys := some keys, fetchedAt := now, locked := false }
  | _ => False

section Contract

variable {cfg} {served : Jose.KeySet → Prop} {known : Prop}

lemma refresh_flight (v : Verifier) :
    (refresh cfg).wp (flight cfg served known) (fun _ => Left) (fun _ => Left) ⟨.outside, v⟩ v := by
  refine withLock_wp rfl (fun _ g₁ v₁ henv => ?_) (fun _ _ _ henv => by cases henv.1)
  obtain ⟨-, rfl⟩ := henv
  refine fetchLocked_wp cfg rfl (fun _ _ _ henv => ?_) (fun now g₂ v₂ henv => ?_)
    (fun now g₂ v₂ g₃ v₃ henv henv' => ?_) (fun now g₂ v₂ r g₃ v₃ henv₂ henv₃ => ?_)
  · obtain ⟨_, h, -⟩ := henv
    cases h
  · obtain ⟨_, hok, rfl, -, rfl⟩ := henv
    obtain rfl := Except.ok.inj hok
    rfl
  · obtain ⟨_, hok, rfl, -, rfl⟩ := henv
    obtain ⟨_, hkeys, -, -⟩ := henv'
    cases hkeys
  · obtain ⟨_, hok, rfl, -, rfl⟩ := henv₂
    obtain rfl := Except.ok.inj hok
    obtain ⟨keys, hkeys, rfl, rfl⟩ := henv₃
    rw [hkeys]
    rfl

/-- `_keys_for` returns with what the task verifies. -/
lemma keysFor_flight {kid : Json} (hknown : known → ∀ keys, kid.truthy → served keys →
    ∃ key, Jose.getKey keys kid = .ok (some key)) (v : Verifier) :
    (keysFor cfg kid).wp (flight cfg served known)
      (fun keys g v' => ∀ token algs leeway,
        (flight cfg served known).may g v' (.validate keys token algs leeway))
      (fun _ => Left) ⟨.outside, v⟩ v := by
  refine keysFor_wp cfg rfl (fun _ _ _ henv => by cases henv.1) (fun _ g₁ v₁ henv => ?_)
    (fun _ g₁ v₁ now g₂ v₂ henv₁ henv₂ => ?_)
  · obtain ⟨-, rfl⟩ := henv
    refine ⟨rfl, fun _ _ _ henv => ?_⟩
    obtain ⟨_, h, -⟩ := henv
    cases h
  · obtain ⟨-, rfl⟩ := henv₁
    obtain ⟨_, hok, rfl, rfl, hserved⟩ := henv₂
    obtain rfl := Except.ok.inj hok
    cases hunknown : v₂.isUnknownKey cfg kid now with
    | error e => exact rfl
    | ok unknown =>
        refine ⟨fun hfresh _ _ _ _ => ⟨rfl, hfresh, rfl⟩, fun hfetch => ?_⟩
        have hdue : Due cfg known v₂ now := by
          rcases Bool.or_eq_true_iff.mp hfetch with hstale | rfl
          · exact Or.inl hstale
          · obtain ⟨keys, hkeys, hkid, hnone, hlong⟩ := Verifier.isUnknownKey_true hunknown
            refine Or.inr ⟨fun hk => ?_, by rw [hkeys]; rfl, hlong⟩
            obtain ⟨key, hkey⟩ := hknown hk keys hkid (hserved keys hkeys)
            rw [hnone] at hkey
            cases hkey
        refine fetchLocked_wp cfg ⟨rfl, hdue⟩ (fun _ _ _ henv => ?_) (fun t g₂ v₃ henv => ?_)
          (fun t g₂ v₃ g₃ v₄ henv henv' => ?_) (fun t g₂ v₃ r g₃ v₄ henv₂ henv₃ => ?_)
        · obtain ⟨_, h, -⟩ := henv
          cases h
        · obtain ⟨_, hok, -, rfl, rfl⟩ := henv
          obtain rfl := Except.ok.inj hok
          rfl
        · obtain ⟨_, hok, -, rfl, rfl⟩ := henv
          obtain ⟨_, hkeys, -, -⟩ := henv'
          cases hkeys
        · obtain ⟨_, hok, -, rfl, rfl⟩ := henv₂
          obtain rfl := Except.ok.inj hok
          obtain ⟨keys, hkeys, rfl, rfl⟩ := henv₃
          rw [hkeys]
          exact fun _ _ _ => ⟨rfl, rfl⟩

lemma flight_env_validate {g g' : Seen} {v v' : Verifier} {keys : Option Jose.KeySet}
    {token : Jose.Token} {algs : List String} {leeway : ℤ} {r : Except AuthRaised Json}
    (h : (flight cfg served known).env g v (.validate keys token algs leeway) r g' v') :
    g' = ⟨.outside, v'⟩ := by
  obtain ⟨phase, state⟩ := g
  cases phase <;> exact h

/-- `needs_refresh` outside of the lock. -/
lemma needsRefresh_flight (v : Verifier) :
    (needsRefresh cfg).wp (flight cfg served known) (fun _ g v' => g = ⟨.outside, v'⟩) (fun _ => Left)
      ⟨.outside, v⟩ v := by
  refine needsRefresh_wp cfg (fun _ => rfl) (fun _ => rfl) (fun _ g v' _ henv => henv.2)
    (fun _ _ _ henv => ?_)
  obtain ⟨⟨_, h⟩, -⟩ := henv
  cases h

/-- A thread keeps the contract. -/
theorem refreshIfNeeded_flight (v : Verifier) :
    (refreshIfNeeded cfg).wp (flight cfg served known) (fun _ => Left) (fun _ => Left)
      ⟨.outside, v⟩ v := by
  rw [refreshIfNeeded, Co.wp_bind]
  refine Co.wp_mono (needsRefresh_flight v) (fun needed g v' h => ?_) (fun _ _ _ h => h)
  obtain rfl := h
  cases needed with
  | true => exact refresh_flight v'
  | false => exact rfl

/-- A call keeps the contract. -/
theorem callOf_flight {token : Jose.Token} (hknown : known → ∀ kid keys,
    Jose.kidOf token = .ok kid → kid.truthy → served keys →
      ∃ key, Jose.getKey keys kid = .ok (some key)) (v : Verifier) :
    (callOf cfg token).wp (flight cfg served known) (fun _ => Left) (fun _ => Left) ⟨.outside, v⟩ v := by
  have hdecode : ∀ v : Verifier, (decodeToken cfg token).wp (flight cfg served known) (fun _ => Left)
      (fun _ => Left) ⟨.outside, v⟩ v := by
    intro v
    rw [decodeToken]
    split
    · rw [decodeWith]
      cases hkid : Jose.kidOf token with
      | error e => exact rfl
      | ok kid =>
          dsimp only
          rw [Co.wp_bind]
          refine Co.wp_mono (keysFor_flight (fun hk keys => hknown hk kid keys hkid) v)
            (fun keys g v' h => ?_) (fun _ _ _ h => h)
          simp only [Co.wp_bind, wp_exceptError]
          refine ask_wp (h token allowedAlgorithms cfg.leeway) (fun claims g' v'' henv => ?_)
            (fun e g' v'' henv => ?_)
          · obtain rfl := flight_env_validate henv
            cases checkClaims cfg claims <;> rfl
          · obtain rfl := flight_env_validate henv
            cases e <;> rfl
    · rw [wp_exceptError]
      refine ask_wp rfl (fun _ g v' henv => ?_) (fun e g v' henv => ?_)
      · obtain rfl : g = ⟨.outside, v'⟩ := henv
        rfl
      · obtain rfl : g = ⟨.outside, v'⟩ := henv
        cases e <;> rfl
  have hthread : ∀ v : Verifier, (refreshInThread cfg).wp (flight cfg served known)
      (fun _ g v' => g = ⟨.outside, v'⟩) (fun _ => Left) ⟨.outside, v⟩ v := by
    intro v
    rw [refreshInThread]
    split
    · rw [Co.wp_bind]
      refine Co.wp_mono (needsRefresh_flight v) (fun needed g v' h => ?_) (fun _ _ _ h => h)
      obtain rfl := h
      cases needed with
      | true =>
          refine ask_wp rfl (fun _ g v'' henv => henv) (fun e g v'' henv => ?_)
          obtain rfl : g = ⟨.outside, v''⟩ := henv
          rfl
      | false => exact rfl
    · exact rfl
  rw [callOf, adecodeToken, Co.wp_bind, Co.wp_bind]
  refine Co.wp_mono (hthread v) (fun _ g v' h => ?_) (fun _ _ _ h => h)
  obtain rfl := h
  exact hdecode v'

end Contract

/-! ## Who has the lock -/

/-- The commands that a task waits for while it has the lock. -/
@[simp] def AuthCommand.inLock : AuthCommand → Bool
  | .clock .keysFor | .clock (.fetch _) | .certs => true
  | _ => false

/-- The task waits with the lock. -/
def InLock (p : Program authSig Unit) : Prop := p.command?.any AuthCommand.inLock

/-- A task has settled. -/
abbrev Settles (served : Jose.KeySet → Prop) (known : Prop) (g : Seen) (p : Program authSig Unit) : Prop :=
  p.Settled (flight cfg served known) (fun _ => Left) (fun _ => Left) g

section Settles

variable {cfg} {served : Jose.KeySet → Prop} {known : Prop} {p : Program authSig Unit}
  {v : Verifier} {now : ℚ}

lemma settles_outside (h : Settles cfg served known ⟨.outside, v⟩ p) :
    p.state? = some v ∧ ¬ InLock p ∧ p.command? ≠ some .certs
      ∧ ∀ keys token algs leeway, p.command? ≠ some (.validate keys token algs leeway) := by
  cases p with
  | done r s =>
      obtain rfl : s = v := by cases r <;> exact h
      exact ⟨rfl, nofun, nofun, nofun⟩
  | spent => exact h.elim
  | await c s k =>
      cases c with
      | clock reading =>
          cases reading with
          | needsRefresh => exact ⟨congrArg some h, nofun, nofun, nofun⟩
          | keysFor => exact h.elim
          | fetch fetcher => exact h.elim
      | acquire => exact ⟨congrArg some h, nofun, nofun, nofun⟩
      | toThread => exact ⟨congrArg some h, nofun, nofun, nofun⟩
      | clientDecode token => exact ⟨congrArg some h, nofun, nofun, nofun⟩
      | certs => exact h.elim
      | validate keys token algs leeway => exact h.elim

lemma settles_inside (h : Settles cfg served known ⟨.inside, v⟩ p) :
    p.state? = some v ∧ InLock p ∧ p.command? ≠ some .certs
      ∧ ∀ keys token algs leeway, p.command? ≠ some (.validate keys token algs leeway) := by
  cases p with
  | done r s => cases r <;> exact h.elim
  | spent => exact h.elim
  | await c s k =>
      cases c with
      | clock reading =>
          cases reading with
          | needsRefresh => exact h.elim
          | keysFor => exact ⟨congrArg some h, rfl, nofun, nofun⟩
          | fetch fetcher =>
              cases fetcher with
              | refresh => exact ⟨congrArg some h, rfl, nofun, nofun⟩
              | keysFor => exact h.elim
      | acquire | toThread | clientDecode | certs | validate => exact h.elim

lemma settles_decided (h : Settles cfg served known ⟨.decided now, v⟩ p) :
    (p.state? = some v ∧ InLock p ∧ p.command? ≠ some .certs
      ∧ ∀ keys token algs leeway, p.command? ≠ some (.validate keys token algs leeway))
    ∨ (p.state? = some { v with locked := false } ∧ ¬ InLock p ∧ p.command? ≠ some .certs
      ∧ ∀ keys token algs leeway, p.command? = some (.validate keys token algs leeway) →
        v.isStale cfg now = false ∧ keys = v.keys) := by
  cases p with
  | done r s =>
      obtain rfl : s = { v with locked := false } := by cases r <;> exact h
      exact Or.inr ⟨rfl, nofun, nofun, nofun⟩
  | spent => exact h.elim
  | await c s k =>
      cases c with
      | clock reading =>
          cases reading with
          | needsRefresh => exact h.elim
          | keysFor => exact h.elim
          | fetch fetcher =>
              cases fetcher with
              | refresh => exact h.elim
              | keysFor => exact Or.inl ⟨congrArg some h.1, rfl, nofun, nofun⟩
      | validate keys token algs leeway =>
          obtain ⟨rfl, hfresh, rfl⟩ := h
          refine Or.inr ⟨rfl, nofun, nofun, ?_⟩
          rintro _ _ _ _ ⟨⟩
          exact ⟨hfresh, rfl⟩
      | acquire | toThread | clientDecode | certs => exact h.elim

lemma settles_fetching (h : Settles cfg served known ⟨.fetching now, v⟩ p) :
    p.state? = some { v with lastAttempt := some now } ∧ p.command? = some .certs := by
  cases p with
  | done r s => cases r <;> exact h.elim
  | spent => exact h.elim
  | await c s k =>
      cases c with
      | certs => exact ⟨congrArg some h, rfl⟩
      | clock reading => cases reading <;> exact h.elim
      | acquire | toThread | clientDecode | validate => exact h.elim

lemma settles_stored {new : Jose.KeySet} (h : Settles cfg served known ⟨.stored now new, v⟩ p) :
    p.state? = some { v with keys := some new, fetchedAt := now, locked := false } ∧ ¬ InLock p
      ∧ p.command? ≠ some .certs
      ∧ ∀ keys token algs leeway, p.command? = some (.validate keys token algs leeway) →
        keys = some new := by
  cases p with
  | done r s =>
      obtain rfl : s = { v with keys := some new, fetchedAt := now, locked := false } := by
        cases r <;> exact h
      exact ⟨rfl, nofun, nofun, nofun⟩
  | spent => exact h.elim
  | await c s k =>
      cases c with
      | validate keys token algs leeway =>
          obtain ⟨rfl, rfl⟩ := h
          refine ⟨rfl, nofun, nofun, ?_⟩
          rintro _ _ _ _ ⟨⟩
          rfl
      | clock reading => cases reading <;> exact h.elim
      | acquire | toThread | clientDecode | certs => exact h.elim

end Settles

/-! ## The invariant -/

/-- No request is under way: the latest one, if there was any, has given the keys. -/
def Resting (v : Verifier) : List ℚ → Prop
  | [] => v.keys = none
  | a :: _ => v.keys.isSome ∧ v.fetchedAt = a ∧ v.lastAttempt = some a

/-- Nobody has the lock. -/
def Unheld (pool : KeyPool ι) : Prop :=
  (∀ who p, pool.tasks who = some p → ¬ InLock p) ∧ Resting pool.shared pool.world.attempts

/-- Task `who`, alone, has the lock.  A request that is under way is the latest one. -/
structure Held (pool : KeyPool ι) (g : Seen) (who : Who ι) : Prop where
  task : ∃ p, pool.tasks who = some p ∧ InLock p ∧ p.state? = some pool.shared
    ∧ (p.command? ≠ some .certs → Resting pool.shared pool.world.attempts)
    ∧ (p.command? = some .certs → ∃ t older, pool.world.attempts = t :: older
      ∧ g.phase = .fetching t ∧ pool.world.asked who = t ∧ pool.shared.lastAttempt = some t)
  locked : pool.shared.locked = true
  alone : ∀ who' q, who' ≠ who → pool.tasks who' = some q → ¬ InLock q

/-- A task that verifies a token has keys: it has requested them itself, or some request was at
most `ttl` before it looked at the clock. -/
def Verified (asked : ℚ) (attempts : List ℚ) (p : Program authSig Unit) : Prop :=
  ∀ keys token algs leeway, p.command? = some (.validate keys token algs leeway) →
    keys.isSome ∧ ∃ a ∈ attempts, asked = a ∨ asked - a ≤ cfg.ttl

/-- **The invariant.**  Two requests are `far` from each other. -/
structure Flying (served : Jose.KeySet → Prop) (far : ℚ → ℚ → Prop) (pool : KeyPool ι)
    (gs : Who ι → Seen) : Prop where
  keys : ∀ keys, pool.shared.keys = some keys → served keys
  past : ∀ a ∈ pool.world.attempts, a ≤ pool.world.now
  apart : pool.world.attempts.Pairwise fun newer older => far older newer
  verified : ∀ who p, pool.tasks who = some p →
    Verified cfg (pool.world.asked who) pool.world.attempts p
  decided : ∀ who t, (gs who).phase = .decided t → t ≤ pool.world.now
  lock : Unheld pool ∨ ∃ who, Held pool (gs who) who

/-- When two requests are far from each other: what makes the code fetch is enough. -/
structure FarEnough (known : Prop) (far : ℚ → ℚ → Prop) : Prop where
  later : ∀ a t t', far a t → t ≤ t' → far a t'
  stale : ∀ a t, t - a > cfg.ttl → far a t
  retry : ¬ known → ∀ a t, t - a ≥ cfg.minRefreshInterval → far a t

section Invariant

variable {cfg} {served : Jose.KeySet → Prop} {far : ℚ → ℚ → Prop} {known : Prop} {tokens : ι → Jose.Token}
  {allowed : KeyPool ι → (c : AuthCommand) → Except AuthRaised c.Answer → Prop}
  {pool : KeyPool ι} {gs : Who ι → Seen} {who : Who ι} {g : Seen} {w : Flight ι} {v : Verifier}
  {p : Program authSig Unit}

lemma Resting.locked {attempts : List ℚ} (h : Resting v attempts) (locked : Bool) :
    Resting { v with locked := locked } attempts := by
  cases attempts with
  | nil => exact h
  | cons a older => exact h

lemma notes_of_ne (h : p.command? ≠ some .certs) : (keyPool cfg tokens allowed).notes w who p = w := by
  simp only [keyPool]

lemma notes_certs (h : p.command? = some .certs) :
    (keyPool cfg tokens allowed).notes w who p = { w with attempts := w.now :: w.attempts } := by
  simp only [keyPool, h]

lemma run_shared (h : p.state? = some v) (v' : Verifier) :
    (pool.run (keyPool cfg tokens allowed) who w v' p).shared = v := by
  rw [Pool.run, h]
  rfl

/-- A task that waits with the lock is the one that has it. -/
lemma Flying.held (h : Flying cfg served far pool gs) (htask : pool.tasks who = some p)
    (hin : InLock p) : Held pool (gs who) who := by
  rcases h.lock with hunheld | ⟨i, hheld⟩
  · exact absurd hin (hunheld.1 who p htask)
  · by_cases hi : who = i
    · subst hi
      exact hheld
    · exact absurd hin (hheld.alone who p hi htask)

omit [DecidableEq ι] in
/-- What the task that has the lock waits for, and in which state. -/
lemma Held.waits {c : AuthCommand} {s : Verifier}
    {k : Except AuthRaised c.Answer → Verifier → Program authSig Unit} (h : Held pool g who)
    (htask : pool.tasks who = some (.await c s k)) :
    s = pool.shared ∧ (c ≠ .certs → Resting pool.shared pool.world.attempts)
      ∧ (c = .certs → ∃ t older, pool.world.attempts = t :: older ∧ g.phase = .fetching t
        ∧ pool.world.asked who = t ∧ pool.shared.lastAttempt = some t) := by
  obtain ⟨q, hq, -, hstate, hrest, hflight⟩ := h.task
  obtain rfl := Option.some.inj (htask.symm.trans hq)
  refine ⟨Option.some.inj hstate, fun hc => hrest fun hcmd => ?_, fun hc => ?_⟩
  · exact hc (Option.some.inj hcmd)
  · subst hc
    exact hflight rfl

/-- The parts of the invariant that only look at the world and at the task that has run. -/
lemma Flying.run (h : Flying cfg served far pool gs) {w' : Flight ι} {v' : Verifier}
    (hstate : p.state? = some v') (hkeys : ∀ keys, v'.keys = some keys → served keys)
    (hw : (keyPool cfg tokens allowed).notes w who p = w') (hnow : w'.now = pool.world.now)
    (hgrow : pool.world.attempts ⊆ w'.attempts) (hpast : ∀ a ∈ w'.attempts, a ≤ pool.world.now)
    (hapart : w'.attempts.Pairwise fun newer older => far older newer)
    (hasked : ∀ j, j ≠ who → w'.asked j = pool.world.asked j)
    (hverified : Verified cfg (w'.asked who) w'.attempts p)
    (hdecided : ∀ t, g.phase = .decided t → t ≤ pool.world.now)
    (hlock : Unheld (pool.run (keyPool cfg tokens allowed) who w v p)
      ∨ ∃ i, Held (pool.run (keyPool cfg tokens allowed) who w v p)
        (Function.update gs who g i) i) :
    Flying cfg served far (pool.run (keyPool cfg tokens allowed) who w v p)
      (Function.update gs who g) := by
  have hworld : (pool.run (keyPool cfg tokens allowed) who w v p).world = w' := hw
  refine ⟨?_, ?_, ?_, ?_, ?_, hlock⟩
  · rw [run_shared hstate]
    exact hkeys
  · rw [hworld, hnow]
    exact hpast
  · rw [hworld]
    exact hapart
  · intro j q hj
    rw [hworld]
    rcases Pool.run_tasks hj with ⟨rfl, rfl⟩ | ⟨hne, hj⟩
    · exact hverified
    · intro keys token algs leeway hcmd
      obtain ⟨hkeys, a, ha, hage⟩ := h.verified j q hj keys token algs leeway hcmd
      rw [hasked j hne]
      exact ⟨hkeys, a, hgrow ha, hage⟩
  · intro j t hphase
    rw [hworld, hnow]
    by_cases hj : j = who
    · subst hj
      rw [Function.update_self] at hphase
      exact hdecided t hphase
    · rw [Function.update_of_ne hj] at hphase
      exact h.decided j t hphase

/-- The lock is free when no task waits with it and the last request has given the keys. -/
lemma unheld_run (hothers : ∀ i q, i ≠ who → pool.tasks i = some q → ¬ InLock q)
    (hstate : p.state? = some v) (hout : ¬ InLock p) (hcerts : p.command? ≠ some .certs)
    (hrest : Resting v w.attempts) (v' : Verifier) :
    Unheld (pool.run (keyPool cfg tokens allowed) who w v' p) := by
  have hw : (pool.run (keyPool cfg tokens allowed) who w v' p).world = w := by
    rw [Pool.run, notes_of_ne hcerts]
  refine ⟨fun i q hi => ?_, ?_⟩
  · rcases Pool.run_tasks hi with ⟨-, rfl⟩ | ⟨hne, hi⟩
    · exact hout
    · exact hothers i q hne hi
  · rw [run_shared hstate, hw]
    exact hrest

/-- A step outside of the lock. -/
lemma Flying.run_outside (h : Flying cfg served far pool gs)
    (hold : ∀ q, pool.tasks who = some q → ¬ InLock q)
    (hattempts : w.attempts = pool.world.attempts) (hnow : w.now = pool.world.now)
    (hasked : ∀ j, j ≠ who → w.asked j = pool.world.asked j)
    (hp : Settles cfg served known ⟨.outside, pool.shared⟩ p) :
    Flying cfg served far (pool.run (keyPool cfg tokens allowed) who w pool.shared p)
      (Function.update gs who ⟨.outside, pool.shared⟩) := by
  obtain ⟨hstate, hout, hcerts, hvalidate⟩ := settles_outside hp
  refine h.run hstate h.keys (notes_of_ne hcerts) hnow (by rw [hattempts]; exact List.Subset.refl _)
    (by rw [hattempts]; exact h.past) (by rw [hattempts]; exact h.apart) hasked
    (fun keys token algs leeway hcmd => absurd hcmd (hvalidate keys token algs leeway)) nofun ?_
  rcases h.lock with hunheld | ⟨i, hheld⟩
  · refine Or.inl (unheld_run (fun j q _ => hunheld.1 j q) hstate hout hcerts ?_ _)
    rw [hattempts]
    exact hunheld.2
  · obtain ⟨q, hq, hin, hshared, hrest, hflight⟩ := hheld.task
    have hne : i ≠ who := by
      rintro rfl
      exact hold q hq hin
    have hw : (pool.run (keyPool cfg tokens allowed) who w pool.shared p).world = w := by
      rw [Pool.run, notes_of_ne hcerts]
    refine Or.inr ⟨i, ?_⟩
    rw [Function.update_of_ne hne]
    refine ⟨⟨q, by rw [Pool.run_of_ne hne]; exact hq, hin, ?_, ?_, ?_⟩, ?_, fun j r hj hr => ?_⟩
    · rw [run_shared hstate]
      exact hshared
    · rw [run_shared hstate, hw, hattempts]
      exact hrest
    · rw [run_shared hstate, hw, hattempts, hasked i hne]
      exact hflight
    · rw [run_shared hstate]
      exact hheld.locked
    · rcases Pool.run_tasks hr with ⟨-, rfl⟩ | ⟨-, hr⟩
      · exact hout
      · exact hheld.alone j r hj hr

/-- The lock is taken. -/
lemma Flying.run_acquire (h : Flying cfg served far pool gs) (hfree : pool.shared.locked = false)
    (hp : Settles cfg served known ⟨.inside, { pool.shared with locked := true }⟩ p) :
    Flying cfg served far
      (pool.run (keyPool cfg tokens allowed) who pool.world { pool.shared with locked := true } p)
      (Function.update gs who ⟨.inside, { pool.shared with locked := true }⟩) := by
  obtain ⟨hstate, hin, hcerts, hvalidate⟩ := settles_inside hp
  obtain ⟨houtside, hrest⟩ : Unheld pool := by
    rcases h.lock with hunheld | ⟨i, hheld⟩
    · exact hunheld
    · have hlocked := hheld.locked
      rw [hfree] at hlocked
      cases hlocked
  refine h.run hstate h.keys (notes_of_ne hcerts) rfl (List.Subset.refl _) h.past h.apart (fun _ _ => rfl)
    (fun keys token algs leeway hcmd => absurd hcmd (hvalidate keys token algs leeway)) nofun
    (Or.inr ⟨who, ⟨p, Pool.run_self, hin, ?_, fun _ => ?_, fun hcmd => absurd hcmd hcerts⟩, ?_,
      fun i q hi hq => ?_⟩)
  · rw [run_shared hstate]
    exact hstate
  · rw [run_shared hstate, Pool.run, notes_of_ne hcerts]
    exact hrest.locked true
  · rw [run_shared hstate]
  · rw [Pool.run_of_ne hi] at hq
    exact houtside i q hq

/-- `_keys_for` reads the clock, and fetches the keys or returns those that it has. -/
lemma Flying.run_decided (h : Flying cfg served far pool gs) (hheld : Held pool (gs who) who)
    (hrest : Resting pool.shared pool.world.attempts)
    (hp : Settles cfg served known ⟨.decided pool.world.now, pool.shared⟩ p) :
    Flying cfg served far
      (pool.run (keyPool cfg tokens allowed) who
        { pool.world with asked := Function.update pool.world.asked who pool.world.now }
        pool.shared p)
      (Function.update gs who ⟨.decided pool.world.now, pool.shared⟩) := by
  have hasked : ∀ j, j ≠ who →
      Function.update pool.world.asked who pool.world.now j = pool.world.asked j :=
    fun j hj => Function.update_of_ne hj ..
  have hnow : ∀ t, Phase.decided pool.world.now = .decided t → t ≤ pool.world.now := by
    rintro _ ⟨⟩
    exact le_refl _
  rcases settles_decided hp with ⟨hstate, hin, hcerts, hvalidate⟩ |
    ⟨hstate, hout, hcerts, hvalidate⟩
  · refine h.run hstate h.keys (notes_of_ne hcerts) rfl (List.Subset.refl _) h.past h.apart hasked
      (fun keys token algs leeway hcmd => absurd hcmd (hvalidate keys token algs leeway)) hnow
      (Or.inr ⟨who, ⟨p, Pool.run_self, hin, ?_, fun _ => ?_, fun hcmd => absurd hcmd hcerts⟩, ?_,
        fun i q hi hq => ?_⟩)
    · rw [run_shared hstate]
      exact hstate
    · rw [run_shared hstate, Pool.run, notes_of_ne hcerts]
      exact hrest
    · rw [run_shared hstate]
      exact hheld.locked
    · rw [Pool.run_of_ne hi] at hq
      exact hheld.alone i q hi hq
  · refine h.run hstate h.keys (notes_of_ne hcerts) rfl (List.Subset.refl _) h.past h.apart hasked
      (fun keys token algs leeway hcmd => ?_) hnow
      (Or.inl (unheld_run hheld.alone hstate hout hcerts ?_ _))
    · obtain ⟨hfresh, rfl⟩ := hvalidate keys token algs leeway hcmd
      obtain ⟨hkeys, hage⟩ := Bool.or_eq_false_iff.mp hfresh
      cases hattempts : pool.world.attempts with
      | nil =>
          rw [hattempts] at hrest
          rw [show pool.shared.keys = none from hrest] at hkeys
          cases hkeys
      | cons a older =>
          rw [hattempts] at hrest
          obtain ⟨hsome, hfetched, -⟩ := hrest
          refine ⟨hsome, a, List.mem_cons_self .., Or.inr ?_⟩
          dsimp only
          rw [Function.update_self, ← hfetched]
          simpa using hage
    · exact hrest.locked false

/-- `certs` is called. -/
lemma Flying.run_fetching (h : Flying cfg served far pool gs) (hheld : Held pool (gs who) who)
    (hfar : ∀ a ∈ pool.world.attempts, far a pool.world.now)
    (hp : Settles cfg served known ⟨.fetching pool.world.now, pool.shared⟩ p) :
    Flying cfg served far
      (pool.run (keyPool cfg tokens allowed) who
        { pool.world with asked := Function.update pool.world.asked who pool.world.now }
        pool.shared p)
      (Function.update gs who ⟨.fetching pool.world.now, pool.shared⟩) := by
  obtain ⟨hstate, hcerts⟩ := settles_fetching hp
  have hin : InLock p := by
    rw [InLock, hcerts]
    rfl
  have hnot : ∀ keys token algs leeway,
      p.command? ≠ some (.validate keys token algs leeway) := by
    rw [hcerts]
    nofun
  refine h.run hstate h.keys (notes_certs hcerts) rfl (List.subset_cons_self ..) (fun a ha => ?_)
    (List.pairwise_cons.mpr ⟨hfar, h.apart⟩) (fun j hj => Function.update_of_ne hj ..)
    (fun keys token algs leeway hcmd => absurd hcmd (hnot keys token algs leeway)) nofun
    (Or.inr ⟨who, ⟨p, Pool.run_self, hin, ?_, fun hcmd => absurd hcerts hcmd, fun _ => ?_⟩, ?_,
      fun i q hi hq => ?_⟩)
  · rcases List.mem_cons.mp ha with rfl | ha
    · exact le_refl _
    · exact h.past a ha
  · rw [run_shared hstate]
    exact hstate
  · rw [run_shared hstate, Pool.run, notes_certs hcerts, Function.update_self]
    exact ⟨pool.world.now, pool.world.attempts, rfl, rfl, Function.update_self .., rfl⟩
  · rw [run_shared hstate]
    exact hheld.locked
  · rw [Pool.run_of_ne hi] at hq
    exact hheld.alone i q hi hq

/-- `certs` has succeeded. -/
lemma Flying.run_stored (h : Flying cfg served far pool gs) (hheld : Held pool (gs who) who)
    {t : ℚ} {older : List ℚ} {new : Jose.KeySet} (hserved : served new)
    (hattempts : pool.world.attempts = t :: older) (hasked : pool.world.asked who = t)
    (hlast : pool.shared.lastAttempt = some t)
    (hp : Settles cfg served known ⟨.stored t new, pool.shared⟩ p) :
    Flying cfg served far (pool.run (keyPool cfg tokens allowed) who pool.world pool.shared p)
      (Function.update gs who ⟨.stored t new, pool.shared⟩) := by
  obtain ⟨hstate, hout, hcerts, hvalidate⟩ := settles_stored hp
  refine h.run hstate (fun keys hkeys => ?_) (notes_of_ne hcerts) rfl (List.Subset.refl _) h.past
    h.apart (fun _ _ => rfl) (fun keys token algs leeway hcmd => ?_) nofun
    (Or.inl (unheld_run hheld.alone hstate hout hcerts ?_ _))
  · obtain rfl := Option.some.inj hkeys
    exact hserved
  · obtain rfl := hvalidate keys token algs leeway hcmd
    exact ⟨rfl, t, by rw [hattempts]; exact List.mem_cons_self .., Or.inl hasked⟩
  · rw [hattempts]
    exact ⟨rfl, rfl, hlast⟩

omit [DecidableEq ι] in
/-- A fetch that is due is far from every request before it. -/
lemma Flying.due (h : Flying cfg served far pool gs) (hfar : FarEnough cfg known far)
    (hrest : Resting pool.shared pool.world.attempts) {t : ℚ}
    (hdue : Due cfg known pool.shared t) (ht : t ≤ pool.world.now) :
    ∀ a ∈ pool.world.attempts, far a pool.world.now := by
  have hpast := h.past
  have hapart := h.apart
  cases hattempts : pool.world.attempts with
  | nil => nofun
  | cons b older =>
      rw [hattempts] at hrest hpast hapart
      obtain ⟨hsome, hfetched, hlast⟩ := hrest
      have hb : far b pool.world.now := by
        refine hfar.later b t _ ?_ ht
        rcases hdue with hstale | ⟨hunknown, -, hlong⟩
        · rcases Bool.or_eq_true_iff.mp hstale with hnone | hold
          · rw [Option.isNone_iff_eq_none.mp hnone] at hsome
            cases hsome
          · rw [hfetched] at hold
            exact hfar.stale b t (of_decide_eq_true hold)
        · exact hfar.retry hunknown b t (hlong b hlast)
      intro a ha
      rcases List.mem_cons.mp ha with rfl | ha
      · exact hb
      · exact hfar.later a b _ ((List.pairwise_cons.mp hapart).1 a ha)
          (hpast b (List.mem_cons_self ..))

/-- **An await ends.** -/
lemma Flying.resume (hfar : FarEnough cfg known far)
    (hallowed : ∀ pool c r, allowed pool c r → Succeeds served c r ∧ StillStale cfg pool c)
    (h : Flying cfg served far pool gs) {c : AuthCommand}
    {s : Verifier} {k : Except AuthRaised c.Answer → Verifier → Program authSig Unit}
    {r : Except AuthRaised c.Answer} (htask : pool.tasks who = some (.await c s k))
    (hmay : (flight cfg served known).may (gs who) s c)
    (hanswer : (keyPool cfg tokens allowed).answers pool who c r w v) :
    ∃ g, (flight cfg served known).env (gs who) s c r g v ∧
      ∀ p, Settles cfg served known g p →
        Flying cfg served far (pool.run (keyPool cfg tokens allowed) who w v p)
          (Function.update gs who g) := by
  obtain ⟨hsucceeds, hstill⟩ := hallowed pool c r hanswer.1
  have hanswer := hanswer.2
  have hout : ¬ InLock (.await c s k : Program authSig Unit) → ∀ q, pool.tasks who = some q →
      ¬ InLock q := by
    intro hc q hq
    obtain rfl := Option.some.inj (htask.symm.trans hq)
    exact hc
  have hin : c.inLock = true → Held pool (gs who) who := fun hc => h.held htask hc
  have hdecided := h.decided who
  generalize hg : gs who = g at hmay hin hdecided
  obtain ⟨phase, state⟩ := g
  cases c with
  | clock reading =>
      obtain ⟨rfl, rfl, rfl⟩ := hanswer
      cases reading with
      | needsRefresh =>
          refine ⟨⟨.outside, pool.shared⟩, ?_, fun p hp => h.run_outside (hout nofun) rfl rfl
            (fun j hj => Function.update_of_ne hj ..) hp⟩
          cases phase with
          | outside => exact ⟨⟨_, rfl⟩, rfl⟩
          | inside | decided | fetching | stored => exact rfl
      | keysFor =>
          cases phase with
          | inside =>
              obtain ⟨rfl, hrest, -⟩ := (hin rfl).waits htask
              exact ⟨⟨.decided pool.world.now, pool.shared⟩, ⟨_, rfl, rfl, rfl, h.keys⟩,
                fun p hp => h.run_decided (hg ▸ hin rfl) (hrest nofun) hp⟩
          | outside | decided | fetching | stored => exact hmay.elim
      | fetch fetcher =>
          obtain ⟨rfl, hrest, -⟩ := (hin rfl).waits htask
          have hrest := hrest nofun
          have hapart := fun t hdue ht => h.due hfar hrest (t := t) hdue ht
          cases phase with
          | inside =>
              cases fetcher with
              | refresh =>
                  exact ⟨⟨.fetching pool.world.now, pool.shared⟩, ⟨_, rfl, rfl, hstill, rfl⟩,
                    fun p hp => h.run_fetching (hg ▸ hin rfl)
                      (hapart _ (Or.inl hstill) (le_refl _)) hp⟩
              | keysFor => exact hmay.elim
          | decided t =>
              cases fetcher with
              | refresh => exact hmay.elim
              | keysFor =>
                  exact ⟨⟨.fetching pool.world.now, pool.shared⟩,
                    ⟨_, rfl, hdecided t rfl, rfl, rfl⟩, fun p hp => h.run_fetching (hg ▸ hin rfl)
                      (hapart t hmay.2 (hdecided t rfl)) hp⟩
          | outside | fetching | stored => cases fetcher <;> exact hmay.elim
  | acquire =>
      obtain ⟨rfl, hfree, rfl, rfl⟩ := hanswer
      cases phase with
      | outside => exact ⟨_, ⟨rfl, rfl⟩, fun p hp => h.run_acquire hfree hp⟩
      | inside | decided | fetching | stored => exact hmay.elim
  | certs =>
      obtain ⟨-, rfl, rfl⟩ := hanswer
      obtain ⟨keys, hkeys, hserved⟩ := hsucceeds
      obtain ⟨rfl, -, hflight⟩ := (hin rfl).waits htask
      obtain ⟨t, older, hattempts, hphase, hasked, hlast⟩ := hflight rfl
      obtain rfl : phase = .fetching t := hphase
      exact ⟨⟨.stored t keys, pool.shared⟩, ⟨keys, hkeys, rfl, rfl⟩,
        fun p hp => h.run_stored (hg ▸ hin rfl) hserved hattempts hasked hlast hp⟩
  | validate keys token algs leeway =>
      obtain ⟨rfl, rfl⟩ := hanswer
      refine ⟨⟨.outside, pool.shared⟩, ?_, fun p hp => h.run_outside (hout nofun) rfl rfl
        (fun _ _ => rfl) hp⟩
      cases phase <;> rfl
  | clientDecode token =>
      obtain ⟨rfl, rfl⟩ := hanswer
      refine ⟨⟨.outside, pool.shared⟩, ?_, fun p hp => h.run_outside (hout nofun) rfl rfl
        (fun _ _ => rfl) hp⟩
      cases phase <;> rfl
  | toThread =>
      obtain ⟨-, rfl, rfl⟩ := hanswer
      refine ⟨⟨.outside, pool.shared⟩, ?_, fun p hp => h.run_outside (hout nofun) rfl rfl
        (fun _ _ => rfl) hp⟩
      cases phase <;> rfl

/-- The invariant holds in every pool that is reached. -/
theorem Flying.reachable (hfar : FarEnough cfg known far)
    (hallowed : ∀ pool c r, allowed pool c r → Succeeds served c r ∧ StillStale cfg pool c)
    (hknown : known → ∀ i kid keys, Jose.kidOf (tokens i) = .ok kid → kid.truthy →
      served keys → ∃ key, Jose.getKey keys kid = .ok (some key)) {now : ℚ} {asked : Who ι → ℚ}
    (h : (keyPool cfg tokens allowed).Reachable ⟨now, [], asked⟩ Verifier.init pool) :
    ∃ gs, Flying cfg served far pool gs := by
  refine (h.invariant (C := flight cfg served known) (φ := fun _ => Left) (ψ := fun _ => Left)
    (J := Flying cfg served far) ?_ ?_ ?_ ?_).imp fun gs hgs => hgs.1
  · refine ⟨fun _ => ⟨.outside, Verifier.init⟩, nofun, nofun, List.Pairwise.nil, nofun, nofun,
      Or.inl ⟨nofun, rfl⟩⟩
  · intro pool gs who x hflying hnew hx
    refine ⟨⟨.outside, pool.shared⟩, ?_, fun p hp => hflying.run_outside ?_ rfl rfl
      (fun _ _ => rfl) hp⟩
    · cases who with
      | call i =>
          obtain rfl : x = callOf cfg (tokens i) := hx
          exact callOf_flight (fun hk kid keys => hknown hk i kid keys) pool.shared
      | thread i =>
          obtain ⟨rfl, -⟩ := hx
          exact refreshIfNeeded_flight pool.shared
    · intro q hq
      rw [hnew] at hq
      cases hq
  · intro pool gs who c s k r w s' hflying htask hmay hanswer
    exact hflying.resume hfar hallowed htask hmay hanswer
  · rintro pool gs _ hflying ⟨now, hnow, rfl⟩
    refine ⟨hflying.keys, fun a ha => (hflying.past a ha).trans hnow, hflying.apart,
      hflying.verified, fun who t ht => (hflying.decided who t ht).trans hnow, ?_⟩
    rcases hflying.lock with hunheld | ⟨who, hheld⟩
    · exact Or.inl hunheld
    · exact Or.inr ⟨who, hheld.task, hheld.locked, hheld.alone⟩

end Invariant

/-! ## Results -/

/-- The distance of two requests, the older one first. -/
def Apart (gap : ℚ → Prop) (attempts : List ℚ) : Prop :=
  attempts.Pairwise fun newer older => gap (newer - older)

/-- **One fetch at a time, and none too soon.**  Suppose that `certs` succeeds, and that `refresh`
finds the keys still missing or stale whenever it gets to its fetch.  Then two requests are never
closer than the smaller one of `ttl` and `min_refresh_interval`; they are more than `ttl` apart
when every token has the id of a key that the realm serves; and a call that verifies a token does
so with keys that were requested by itself or at most `ttl` before. -/
theorem single_flight (served : Jose.KeySet → Prop) (tokens : ι → Jose.Token) {now : ℚ}
    {asked : Who ι → ℚ} {pool : KeyPool ι}
    (h : (keyPool cfg tokens fun pool c r => Succeeds served c r ∧ StillStale cfg pool c).Reachable
      ⟨now, [], asked⟩ Verifier.init pool) :
    Apart (fun gap => min cfg.ttl cfg.minRefreshInterval ≤ gap) pool.world.attempts
      ∧ ((∀ i kid keys, Jose.kidOf (tokens i) = .ok kid → kid.truthy → served keys →
          ∃ key, Jose.getKey keys kid = .ok (some key)) →
        Apart (fun gap => cfg.ttl < gap) pool.world.attempts)
      ∧ ∀ who p, pool.tasks who = some p →
        Verified cfg (pool.world.asked who) pool.world.attempts p := by
  have hmin : FarEnough cfg False
      (fun older newer => min cfg.ttl cfg.minRefreshInterval ≤ newer - older) := by
    refine ⟨fun a t t' hgap ht => ?_, fun a t hgap => ?_, fun _ a t hgap => ?_⟩
    · linarith
    · exact (min_le_left _ _).trans hgap.le
    · exact (min_le_right _ _).trans hgap
  have httl : FarEnough cfg True (fun older newer => cfg.ttl < newer - older) := by
    refine ⟨fun a t t' hgap ht => ?_, fun a t hgap => hgap, fun hk => absurd trivial hk⟩
    linarith
  obtain ⟨gs, hflying⟩ := Flying.reachable hmin (fun _ _ _ ha => ha) nofun h
  refine ⟨hflying.apart, fun hknown => ?_, fun who p hp => hflying.verified who p hp⟩
  obtain ⟨gs', hflying'⟩ := Flying.reachable httl (fun _ _ _ ha => ha) (fun _ => hknown) h
  exact hflying'.apart

/-! ## Runs -/

section Runs

variable {cfg} {tokens : ι → Jose.Token}
  {allowed : KeyPool ι → (c : AuthCommand) → Except AuthRaised c.Answer → Prop} {pool : KeyPool ι}
  {w₀ w : Flight ι} {v₀ v : Verifier}

/-- A call begins. -/
lemma reachable_call (h : (keyPool cfg tokens allowed).Reachable w₀ v₀ pool) (i : ι)
    (hnew : pool.tasks (.call i) = none) :
    (keyPool cfg tokens allowed).Reachable w₀ v₀ (pool.run (keyPool cfg tokens allowed) (.call i)
      pool.world pool.shared (callOf cfg (tokens i) pool.shared)) :=
  h.step (.start pool _ _ hnew rfl)

/-- The thread of a call begins. -/
lemma reachable_thread (h : (keyPool cfg tokens allowed).Reachable w₀ v₀ pool) (i : ι)
    (hnew : pool.tasks (.thread i) = none)
    (hcall : (pool.tasks (.call i)).bind Program.command? = some AuthCommand.toThread) :
    (keyPool cfg tokens allowed).Reachable w₀ v₀ (pool.run (keyPool cfg tokens allowed) (.thread i)
      pool.world pool.shared (refreshIfNeeded cfg pool.shared)) :=
  h.step (.start pool _ _ hnew ⟨rfl, hcall⟩)

/-- A task goes on. -/
lemma reachable_resume (h : (keyPool cfg tokens allowed).Reachable w₀ v₀ pool) (who : Who ι)
    (c : AuthCommand) (r : Except AuthRaised c.Answer) {s : Verifier}
    {k : Except AuthRaised c.Answer → Verifier → Program authSig Unit}
    (htask : pool.tasks who = some (.await c s k))
    (hanswer : (keyPool cfg tokens allowed).answers pool who c r w v) :
    (keyPool cfg tokens allowed).Reachable w₀ v₀
      (pool.run (keyPool cfg tokens allowed) who w v (k r v)) :=
  h.step (.resume pool who c s k r w v htask hanswer)

end Runs

end Flight

section Example

attribute [local instance] kidJose

/-- The realm has the key `k1`. -/
def servesK1 (keys : List String) : Prop := keys = ["k1"]

/-- Calls for the key `k1`. -/
def k1 (_ : Bool) : Json := .str "k1"

/-- A call fetches the keys in its thread and verifies its token with them. -/
theorem single_flight_k1 : ∃ (pool : KeyPool Bool) (p : Program authSig Unit),
    pool.world.attempts = [0] ∧ Apart (fun gap => 600 < gap) pool.world.attempts
      ∧ pool.tasks (.call false) = some p
      ∧ p.command? = some (.validate (some ["k1"]) (.str "k1") allowedAlgorithms 60)
      ∧ Verified {} (pool.world.asked (.call false)) pool.world.attempts p := by
  have h0 : (keyPool {} k1 fun pool c r => Succeeds servesK1 c r ∧ StillStale {} pool c).Reachable
      ⟨0, [], fun _ => 0⟩ Verifier.init _ := .init
  have h1 := reachable_call h0 false rfl
  have h2 := reachable_thread h1 false rfl (by with_unfolding_all rfl)
  have h3 := reachable_resume h2 (.thread false) .acquire (.ok ()) (by with_unfolding_all rfl)
    ⟨⟨trivial, trivial⟩, rfl, by with_unfolding_all rfl, rfl, rfl⟩
  have h4 := reachable_resume h3 (.thread false) (.clock (.fetch .refresh)) (.ok _)
    (by with_unfolding_all rfl) ⟨⟨trivial, by with_unfolding_all rfl⟩, rfl, rfl, rfl⟩
  have h5 := reachable_resume h4 (.thread false) .certs (.ok ["k1"])
    (by with_unfolding_all rfl) ⟨⟨⟨_, rfl, rfl⟩, trivial⟩, nofun, rfl, rfl⟩
  have h6 := reachable_resume h5 (.call false) .toThread (.ok ()) (by with_unfolding_all rfl)
    ⟨⟨trivial, trivial⟩, .inr ⟨false, _, rfl, by with_unfolding_all rfl⟩, rfl, rfl⟩
  have h7 := reachable_resume h6 (.call false) .acquire (.ok ()) (by with_unfolding_all rfl)
    ⟨⟨trivial, trivial⟩, rfl, by with_unfolding_all rfl, rfl, rfl⟩
  have h8 := reachable_resume h7 (.call false) (.clock .keysFor) (.ok _)
    (by with_unfolding_all rfl) ⟨⟨trivial, trivial⟩, rfl, rfl, rfl⟩
  have hkid : ∀ i kid keys, Jose.kidOf (k1 i) = .ok kid → kid.truthy → servesK1 keys →
      ∃ key, Jose.getKey keys kid = .ok (some key) := by
    rintro i _ _ ⟨⟩ - rfl
    exact ⟨_, rfl⟩
  obtain ⟨-, hapart, hverified⟩ := single_flight {} servesK1 k1 h8
  exact ⟨_, _, by with_unfolding_all rfl, hapart hkid, rfl, by with_unfolding_all rfl,
    hverified (.call false) _ rfl⟩

/-- **Two threads fetch the keys at the same time**, each having seen that there are none before
either had the lock. -/
theorem fetched_twice : ∃ pool : KeyPool Bool,
    (keyPool {} k1 fun _ c r => Succeeds servesK1 c r).Reachable ⟨0, [], fun _ => 0⟩
      Verifier.init pool
    ∧ pool.world.attempts = [0, 0]
    ∧ ¬ Apart (fun gap => min 600 30 ≤ gap) pool.world.attempts := by
  have h0 : (keyPool {} k1 fun _ c r => Succeeds servesK1 c r).Reachable ⟨0, [], fun _ => 0⟩
      Verifier.init _ := .init
  have h1 := reachable_call h0 false rfl
  have h2 := reachable_call h1 true rfl
  have h3 := reachable_thread h2 false rfl (by with_unfolding_all rfl)
  have h4 := reachable_thread h3 true rfl (by with_unfolding_all rfl)
  have h5 := reachable_resume h4 (.thread false) .acquire (.ok ()) (by with_unfolding_all rfl)
    ⟨trivial, rfl, by with_unfolding_all rfl, rfl, rfl⟩
  have h6 := reachable_resume h5 (.thread false) (.clock (.fetch .refresh)) (.ok _)
    (by with_unfolding_all rfl) ⟨trivial, rfl, rfl, rfl⟩
  have h7 := reachable_resume h6 (.thread false) .certs (.ok ["k1"])
    (by with_unfolding_all rfl) ⟨⟨_, rfl, rfl⟩, nofun, rfl, rfl⟩
  have h8 := reachable_resume h7 (.thread true) .acquire (.ok ()) (by with_unfolding_all rfl)
    ⟨trivial, rfl, by with_unfolding_all rfl, rfl, rfl⟩
  have h9 := reachable_resume h8 (.thread true) (.clock (.fetch .refresh)) (.ok _)
    (by with_unfolding_all rfl) ⟨trivial, rfl, rfl, rfl⟩
  have hclose : ¬ Apart (fun gap => min 600 30 ≤ gap) [0, 0] := by norm_num [Apart]
  exact ⟨_, h9, by with_unfolding_all rfl, by with_unfolding_all exact hclose⟩

end Example

end Atsig
