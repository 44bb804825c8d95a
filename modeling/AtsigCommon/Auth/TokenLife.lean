import AtsigCommon.Auth.OneRefresh

/-!
# How long a returned token lives

A thread stores the token that Keycloak gave it and, later, the time at which it expires, and it
takes that time from the clock after the answer.  Another thread can run in between: when a call is
cancelled, its thread goes on and the next call begins a refresh of its own, and synchronous code
calls `get_token` from any thread.  Then the token of one refresh stands beside the time of another.

* `Issuer` — what is known of Keycloak: when each token expires, and how long it takes.
* `lifePool` — calls, their threads and other threads over one manager, in any interleaving, with
  any cancellations.
* `TokenPoint`, `LifeValid` — the invariant.
* `returned_alive` — if all tokens live equally long, a token that is returned has at least
  `min 30 life - 2 * delay` seconds left.
* `returned_expired` — if they do not, a token can be returned long after it has expired.
-/

namespace Atsig

open Coroutine Python

/-! ## Keycloak and the clock -/

/-- When each token expires and how long it lives (a token tells both), and the time that passes at
most between the issue of a token and the moment its thread has dated it. -/
structure Issuer where
  expiry : String → ℚ
  life : String → ℚ
  delay : ℚ

namespace Issuer

def issued (kc : Issuer) (token : String) : ℚ := kc.expiry token - kc.life token

/-- An answer of Keycloak: its token was issued before now, and its `expires_in` is right. -/
def Answers (kc : Issuer) (now : ℚ) (data : TokenData) : Prop :=
  ∀ token, data.accessToken = some token →
    kc.issued token ≤ now ∧ ∀ expiresIn, data.expiresIn = some expiresIn → expiresIn = kc.life token

/-- There is still time to date the token that a thread was given. -/
def InTime (kc : Issuer) (now : ℚ) (undated : Option String) : Prop :=
  ∀ token, undated = some token → now ≤ kc.issued token + kc.delay

end Issuer

/-- The time, when each task last read it, and the token that each task was given and has not dated
yet. -/
structure TokenClock (ι : Type) where
  now : ℚ
  checked : Who ι → ℚ
  undated : Who ι → Option String

namespace TokenClock

variable {ι : Type} [DecidableEq ι]

/-- A task reads the time. -/
def read (w : TokenClock ι) (who : Who ι) : TokenClock ι where
  now := w.now
  checked := Function.update w.checked who w.now
  undated := Function.update w.undated who none

/-- A task is given a token. -/
def give (w : TokenClock ι) (who : Who ι) (token : Option String) : TokenClock ι :=
  { w with undated := Function.update w.undated who token }

/-- A call gets what its thread has returned. -/
def join (w : TokenClock ι) (i : ι) : TokenClock ι :=
  { w with checked := Function.update w.checked (.call i) (w.checked (.thread i)) }

end TokenClock

/-- Tasks over one manager. -/
abbrev LifePool (ι : Type) := Pool tokenSig (TokenClock ι) (Who ι) (Option String)

/-- The calls, and the threads.  A thread serves the call of its index, or no call has its index and
it runs synchronous code that calls `get_token`.  A call can be cancelled at an await whether or not
its thread is running, and other calls can run where it does not await (as on several loops). -/
def lifePool {ι : Type} [DecidableEq ι] (kc : Issuer) :
    Scheduler tokenSig (TokenClock ι) (Who ι) (Option String) where
  starts pool who x :=
    match who with
    | .call i => x = agetToken ∧ pool.tasks (.thread i) = none
    | .thread i => x = getToken ∧ (pool.tasks (.call i) = none
        ∨ (pool.tasks (.call i)).bind Program.command? = some .toThread)
  answers pool who c r w v :=
    match c with
    | .clock => kc.InTime pool.world.now (pool.world.undated who)
        ∧ r = .ok pool.world.now ∧ v = pool.shared ∧ w = pool.world.read who
    | .switch => kc.InTime pool.world.now (pool.world.undated who)
        ∧ r = .ok () ∧ v = pool.shared ∧ w = pool.world
    | .acquire => w = pool.world
        ∧ (r = .error .cancelled ∧ v = pool.shared
          ∨ r = .ok () ∧ pool.shared.locked = false ∧ v = { pool.shared with locked := true })
    | .toThread => v = pool.shared
        ∧ (r = .error .cancelled ∧ w = pool.world
          ∨ ∃ i s, who = .call i ∧ pool.tasks (.thread i) = some (.done r s)
            ∧ w = pool.world.join i)
    | .request => r ≠ .error .cancelled ∧ v = pool.shared
        ∧ (∀ data, r = .ok data → kc.Answers pool.world.now data)
        ∧ w = pool.world.give who (broughtToken r)
  idles w w' := ∃ now, w.now ≤ now ∧ w' = { w with now := now }
  notes w _ _ := w

/-! ## The invariant -/

section Invariant

variable {ι : Type} (kc : Issuer) (life : ℚ)

/-- The token lives on for long enough after the time that was read. -/
def Alive (checked : ℚ) (token : Option String) : Prop :=
  ∃ t, token = some t ∧ checked + (min 30 life - 2 * kc.delay) ≤ kc.expiry t

/-- Where a task is, and what it knows.  A thread that has stored its token knows that the token of
the manager, its own or one that was stored later, was not issued long before its own. -/
inductive TokenPoint (v : ServiceTokenManager) (w : TokenClock ι) (who : Who ι) :
    Program tokenSig (Option String) → Prop
  | failed (e : Raised) (v' : ServiceTokenManager) : TokenPoint v w who (.done (.error e) v')
  | returned (token : Option String) (v' : ServiceTokenManager)
      (halive : Alive kc life (w.checked who) token) : TokenPoint v w who (.done (.ok token) v')
  | testing (v' : ServiceTokenManager) (hsome : v.token.isSome = true) :
      TokenPoint v w who (.await .clock v' tested)
  | testingLocked (v' : ServiceTokenManager) (hsome : v.token.isSome = true) :
      TokenPoint v w who (.await .clock v' testedLocked)
  | testingThread (v' : ServiceTokenManager) (hsome : v.token.isSome = true) :
      TokenPoint v w who (.await .clock v' testedThread)
  | returning (v' : ServiceTokenManager) (halive : Alive kc life (w.checked who) v.token)
      (hchecked : w.checked who ≤ w.now) : TokenPoint v w who (.await .switch v' returns)
  | returningLocked (v' : ServiceTokenManager) (halive : Alive kc life (w.checked who) v.token)
      (hchecked : w.checked who ≤ w.now) : TokenPoint v w who (.await .switch v' returnsLocked)
  | acquiring (v' : ServiceTokenManager) : TokenPoint v w who (.await .acquire v' acquired)
  | joining (v' : ServiceTokenManager) : TokenPoint v w who (.await .toThread v' joins)
  | requesting (v' : ServiceTokenManager) : TokenPoint v w who (.await .request v' requested)
  | answered (token : String) (data : TokenData) (v' : ServiceTokenManager)
      (hundated : w.undated who = some token) (hissued : kc.issued token ≤ w.now)
      (hlife : ∀ expiresIn, data.expiresIn = some expiresIn → expiresIn = life) :
      TokenPoint v w who (.await .switch v' (stores token data))
  | stored (token : String) (data : TokenData) (v' : ServiceTokenManager)
      (hundated : w.undated who = some token) (hissued : kc.issued token ≤ w.now)
      (hlife : ∀ expiresIn, data.expiresIn = some expiresIn → expiresIn = life)
      (hstored : ∃ t, v.token = some t ∧ kc.issued token ≤ kc.issued t + kc.delay) :
      TokenPoint v w who (.await .clock v' (expires data))

/-- **The invariant**: the time that the manager has is at most `2 * delay` too late for the token
that it has. -/
structure LifeValid (pool : LifePool ι) : Prop where
  bound : pool.shared.expiresAt ≤ pool.world.now + life
  held : ∀ token, pool.shared.token = some token →
    pool.shared.expiresAt ≤ kc.expiry token + 2 * kc.delay
  points : ∀ who p, pool.tasks who = some p → TokenPoint kc life pool.shared pool.world who p

end Invariant

/-! ## Steps -/

section Steps

variable {ι : Type} {kc : Issuer} {life : ℚ} {v v' : ServiceTokenManager} {w w' : TokenClock ι}
  {who : Who ι} {p : Program tokenSig (Option String)}

/-- The token stays, or another one is stored in time. -/
def Replaces (kc : Issuer) (now : ℚ) (v v' : ServiceTokenManager) : Prop :=
  v'.token = v.token
    ∨ ∃ token, v'.token = some token ∧ kc.issued token ≤ now ∧ now ≤ kc.issued token + kc.delay

lemma Replaces.isSome {now : ℚ} (h : Replaces kc now v v') (hsome : v.token.isSome = true) :
    v'.token.isSome = true := by
  rcases h with heq | ⟨token, heq, -⟩
  · rw [heq]
    exact hsome
  · rw [heq]
    rfl

/-- A token that was just stored is alive. -/
lemma alive_of_inTime {now checked : ℚ} {token : String} (hlife : ∀ token, kc.life token = life)
    (hchecked : checked ≤ now) (hissued : kc.issued token ≤ now)
    (hnow : now ≤ kc.issued token + kc.delay) : Alive kc life checked (some token) := by
  refine ⟨token, rfl, ?_⟩
  have hmin : min 30 life ≤ life := min_le_right 30 life
  rw [Issuer.issued, hlife] at hissued hnow
  linarith

lemma Alive.replaces {now checked : ℚ} (h : Alive kc life checked v.token)
    (hlife : ∀ token, kc.life token = life) (hchecked : checked ≤ now)
    (htoken : Replaces kc now v v') : Alive kc life checked v'.token := by
  rcases htoken with heq | ⟨token, heq, hissued, hnow⟩
  · rw [heq]
    exact h
  · rw [heq]
    exact alive_of_inTime hlife hchecked hissued hnow

/-- Time passes, and other tasks run. -/
lemma TokenPoint.mono (h : TokenPoint kc life v w who p) (hlife : ∀ token, kc.life token = life)
    (hnow : w.now ≤ w'.now) (hchecked : w'.checked who = w.checked who)
    (hundated : w'.undated who = w.undated who) (htoken : Replaces kc w'.now v v') :
    TokenPoint kc life v' w' who p := by
  cases h with
  | failed e s => exact .failed e s
  | returned token s halive => exact .returned token s (by rwa [hchecked])
  | testing s hsome => exact .testing s (htoken.isSome hsome)
  | testingLocked s hsome => exact .testingLocked s (htoken.isSome hsome)
  | testingThread s hsome => exact .testingThread s (htoken.isSome hsome)
  | returning s halive hread =>
      have hread' : w'.checked who ≤ w'.now := by
        rw [hchecked]
        exact hread.trans hnow
      rw [← hchecked] at halive
      exact .returning s (halive.replaces hlife hread' htoken) hread'
  | returningLocked s halive hread =>
      have hread' : w'.checked who ≤ w'.now := by
        rw [hchecked]
        exact hread.trans hnow
      rw [← hchecked] at halive
      exact .returningLocked s (halive.replaces hlife hread' htoken) hread'
  | acquiring s => exact .acquiring s
  | joining s => exact .joining s
  | requesting s => exact .requesting s
  | answered token data s hgiven hissued hdata =>
      exact .answered token data s (hundated.trans hgiven) (hissued.trans hnow) hdata
  | stored token data s hgiven hissued hdata hstored =>
      refine .stored token data s (hundated.trans hgiven) (hissued.trans hnow) hdata ?_
      rcases htoken with heq | ⟨t, heq, -, htime⟩
      · rw [heq]
        exact hstored
      · exact ⟨t, heq, (hissued.trans hnow).trans htime⟩

/-- What a task does to the clock does not concern the others. -/
structure TokenClock.OtherwiseSame (who : Who ι) (w w' : TokenClock ι) : Prop where
  now : w'.now = w.now
  checked : ∀ other, other ≠ who → w'.checked other = w.checked other
  undated : ∀ other, other ≠ who → w'.undated other = w.undated other

section Clock

variable [DecidableEq ι]

lemma TokenClock.read_otherwiseSame : OtherwiseSame who w (w.read who) :=
  ⟨rfl, fun _ h => Function.update_of_ne h .., fun _ h => Function.update_of_ne h ..⟩

lemma TokenClock.give_otherwiseSame {token : Option String} :
    OtherwiseSame who w (w.give who token) :=
  ⟨rfl, fun _ _ => rfl, fun _ h => Function.update_of_ne h ..⟩

lemma TokenClock.join_otherwiseSame {i : ι} : OtherwiseSame (.call i) w (w.join i) :=
  ⟨rfl, fun _ h => Function.update_of_ne h .., fun _ _ => rfl⟩

omit [DecidableEq ι] in
lemma TokenClock.otherwiseSame_self : OtherwiseSame who w w :=
  ⟨rfl, fun _ _ => rfl, fun _ _ => rfl⟩

lemma TokenClock.read_checked : (w.read who).checked who = w.now := Function.update_self ..

lemma TokenClock.read_undated : (w.read who).undated who = none := Function.update_self ..

lemma TokenClock.join_checked {i : ι} : (w.join i).checked (.call i) = w.checked (.thread i) :=
  Function.update_self ..

end Clock

variable {pool : LifePool ι}

/-- A test that was passed: the token is alive. -/
lemma LifeValid.alive (h : LifeValid kc life pool) (hsome : pool.shared.token.isSome = true)
    (hfresh : pool.world.now < pool.shared.expiresAt - 30) :
    Alive kc life pool.world.now pool.shared.token := by
  obtain ⟨token, htoken⟩ := Option.isSome_iff_exists.mp hsome
  refine ⟨token, htoken, ?_⟩
  have hheld := h.held token htoken
  have hmin : min 30 life ≤ 30 := min_le_left 30 life
  linarith

variable [DecidableEq ι]

/-- A task runs. -/
lemma LifeValid.run (h : LifeValid kc life pool) (hlife : ∀ token, kc.life token = life)
    (hw : TokenClock.OtherwiseSame who pool.world w)
    (htoken : Replaces kc pool.world.now pool.shared (p.state?.getD v))
    (hbound : (p.state?.getD v).expiresAt ≤ pool.world.now + life)
    (hheld : ∀ token, (p.state?.getD v).token = some token →
      (p.state?.getD v).expiresAt ≤ kc.expiry token + 2 * kc.delay)
    (hpoint : TokenPoint kc life (p.state?.getD v) w who p) :
    LifeValid kc life (pool.run (lifePool kc) who w v p) := by
  refine ⟨?_, hheld, fun other q hq => ?_⟩
  · show (p.state?.getD v).expiresAt ≤ w.now + life
    rw [hw.now]
    exact hbound
  · rcases Pool.run_tasks hq with ⟨rfl, rfl⟩ | ⟨hne, hq⟩
    · exact hpoint
    · refine (h.points other q hq).mono hlife hw.now.ge (hw.checked other hne)
        (hw.undated other hne) ?_
      show Replaces kc w.now _ _
      rw [hw.now]
      exact htoken

/-- A task runs and leaves the token and its time as they are. -/
lemma LifeValid.runSame (h : LifeValid kc life pool) (hlife : ∀ token, kc.life token = life)
    (hw : TokenClock.OtherwiseSame who pool.world w)
    (htoken : (p.state?.getD v).token = pool.shared.token)
    (hexpires : (p.state?.getD v).expiresAt = pool.shared.expiresAt)
    (hpoint : TokenPoint kc life (p.state?.getD v) w who p) :
    LifeValid kc life (pool.run (lifePool kc) who w v p) := by
  refine h.run hlife hw (.inl htoken) ?_ (fun token heq => ?_) hpoint
  · rw [hexpires]
    exact h.bound
  · rw [hexpires]
    exact h.held token (htoken.symm.trans heq)

/-- What a test that was passed tells the task. -/
lemma LifeValid.alive_read (h : LifeValid kc life pool) (hsome : pool.shared.token.isSome = true)
    (hfresh : pool.world.now < pool.shared.expiresAt - 30) :
    Alive kc life ((pool.world.read who).checked who) pool.shared.token
      ∧ (pool.world.read who).checked who ≤ (pool.world.read who).now := by
  rw [TokenClock.read_checked]
  exact ⟨h.alive hsome hfresh, le_refl pool.world.now⟩

/-- A task begins. -/
lemma LifeValid.start (h : LifeValid kc life pool) (hlife : ∀ token, kc.life token = life)
    {x : Tokens (Option String)} (hx : (lifePool kc).starts pool who x) :
    LifeValid kc life (pool.run (lifePool kc) who pool.world pool.shared (x pool.shared)) := by
  have hsame : TokenClock.OtherwiseSame who pool.world pool.world := TokenClock.otherwiseSame_self
  cases who with
  | call i =>
      obtain ⟨rfl, -⟩ := hx
      rw [agetToken_eq]
      split
      · next htoken =>
          exact h.runSame hlife hsame rfl rfl (.testing _ (ServiceTokenManager.isSome_of_hasToken htoken))
      · exact h.runSame hlife hsame rfl rfl (.acquiring _)
  | thread i =>
      obtain ⟨rfl, -⟩ := hx
      rw [getToken_eq]
      split
      · next htoken =>
          exact h.runSame hlife hsame rfl rfl (.testingThread _ (ServiceTokenManager.isSome_of_hasToken htoken))
      · exact h.runSame hlife hsame rfl rfl (.requesting _)

/-- A thread stores its token. -/
lemma LifeValid.stores (h : LifeValid kc life pool) (hlife : ∀ token, kc.life token = life)
    {token : String} (hgiven : pool.world.undated who = some token)
    (htime : kc.InTime pool.world.now (pool.world.undated who))
    (hissued : kc.issued token ≤ pool.world.now) {data : TokenData}
    (hdata : ∀ expiresIn, data.expiresIn = some expiresIn → expiresIn = life) :
    LifeValid kc life (pool.run (lifePool kc) who pool.world pool.shared
      (stores token data (.ok ()) pool.shared)) := by
  have htime := htime token hgiven
  have hdelay : 0 ≤ kc.delay := by linarith
  refine h.run hlife TokenClock.otherwiseSame_self (.inr ⟨token, rfl, hissued, htime⟩) h.bound ?_ ?_
  · rintro _ ⟨⟩
    have hbound := h.bound
    show pool.shared.expiresAt ≤ _
    rw [Issuer.issued, hlife] at htime
    linarith
  · exact .stored token data _ hgiven hissued hdata ⟨token, rfl, by linarith⟩

/-- A thread dates the token of the manager, its own or one that was stored later. -/
lemma LifeValid.dates (h : LifeValid kc life pool) (hlife : ∀ token, kc.life token = life)
    {token : String} (hgiven : pool.world.undated who = some token)
    (htime : kc.InTime pool.world.now (pool.world.undated who)) {data : TokenData}
    (hdata : ∀ expiresIn, data.expiresIn = some expiresIn → expiresIn = life)
    (hstored : ∃ t, pool.shared.token = some t ∧ kc.issued token ≤ kc.issued t + kc.delay) :
    LifeValid kc life (pool.run (lifePool kc) who (pool.world.read who) pool.shared
      (expires data (.ok pool.world.now) pool.shared)) := by
  obtain ⟨t, htoken, hstored⟩ := hstored
  have htime := htime token hgiven
  have hlate : pool.world.now + life ≤ kc.expiry t + 2 * kc.delay := by
    rw [Issuer.issued, Issuer.issued, hlife, hlife] at hstored
    rw [Issuer.issued, hlife] at htime
    linarith
  obtain ⟨accessToken, expiresIn⟩ := data
  cases expiresIn with
  | none => exact h.runSame hlife TokenClock.read_otherwiseSame rfl rfl (.failed _ _)
  | some expiresIn =>
      obtain rfl := hdata expiresIn rfl
      refine h.run hlife TokenClock.read_otherwiseSame (.inl rfl) (le_refl _) ?_ ?_
      · rintro t' ht'
        obtain rfl := Option.some.inj (htoken.symm.trans ht')
        exact hlate
      · refine .returning _ ⟨t, htoken, ?_⟩ ?_
        · rw [TokenClock.read_checked]
          have hmin : min 30 expiresIn ≤ expiresIn := min_le_right 30 expiresIn
          linarith
        · rw [TokenClock.read_checked]
          exact le_refl _

/-- What was awaited is there: the time, a turn, the lock, the thread, or the answer of Keycloak. -/
lemma LifeValid.resume (h : LifeValid kc life pool) (hlife : ∀ token, kc.life token = life)
    {c : TokenCommand} {s : ServiceTokenManager} {r : Except Raised c.Answer}
    {k : Except Raised c.Answer → ServiceTokenManager → Program tokenSig (Option String)}
    (htask : pool.tasks who = some (.await c s k))
    (hanswer : (lifePool kc).answers pool who c r w v) :
    LifeValid kc life (pool.run (lifePool kc) who w v (k r v)) := by
  cases h.points who _ htask with
  | testing _ hsome =>
      obtain ⟨-, rfl, rfl, rfl⟩ := hanswer
      rw [tested]
      split
      · next hfresh =>
          obtain ⟨halive, hread⟩ := h.alive_read hsome hfresh
          exact h.runSame hlife TokenClock.read_otherwiseSame rfl rfl (.returning _ halive hread)
      · exact h.runSame hlife TokenClock.read_otherwiseSame rfl rfl (.acquiring _)
  | testingLocked _ hsome =>
      obtain ⟨-, rfl, rfl, rfl⟩ := hanswer
      rw [testedLocked]
      split
      · next hfresh =>
          obtain ⟨halive, hread⟩ := h.alive_read hsome hfresh
          exact h.runSame hlife TokenClock.read_otherwiseSame rfl rfl
            (.returningLocked _ halive hread)
      · exact h.runSame hlife TokenClock.read_otherwiseSame rfl rfl (.joining _)
  | testingThread _ hsome =>
      obtain ⟨-, rfl, rfl, rfl⟩ := hanswer
      rw [testedThread]
      split
      · next hfresh =>
          obtain ⟨halive, hread⟩ := h.alive_read hsome hfresh
          exact h.runSame hlife TokenClock.read_otherwiseSame rfl rfl (.returning _ halive hread)
      · exact h.runSame hlife TokenClock.read_otherwiseSame rfl rfl (.requesting _)
  | returning _ halive hread =>
      obtain ⟨-, rfl, rfl, rfl⟩ := hanswer
      exact h.runSame hlife TokenClock.otherwiseSame_self rfl rfl (.returned _ _ halive)
  | returningLocked _ halive hread =>
      obtain ⟨-, rfl, rfl, rfl⟩ := hanswer
      exact h.runSame hlife TokenClock.otherwiseSame_self rfl rfl (.returned _ _ halive)
  | acquiring =>
      obtain ⟨rfl, ⟨rfl, rfl⟩ | ⟨rfl, -, rfl⟩⟩ := hanswer
      · exact h.runSame hlife TokenClock.otherwiseSame_self rfl rfl (.failed _ _)
      · rw [acquired]
        split
        · next htoken =>
            exact h.runSame hlife TokenClock.otherwiseSame_self rfl rfl
              (.testingLocked _ (ServiceTokenManager.isSome_of_hasToken htoken))
        · exact h.runSame hlife TokenClock.otherwiseSame_self rfl rfl (.joining _)
  | joining =>
      obtain ⟨rfl, ⟨rfl, rfl⟩ | ⟨i, s', rfl, hthread, rfl⟩⟩ := hanswer
      · exact h.runSame hlife TokenClock.otherwiseSame_self rfl rfl (.failed _ _)
      · cases h.points (.thread i) _ hthread with
        | failed e =>
            exact h.runSame hlife TokenClock.join_otherwiseSame rfl rfl (.failed _ _)
        | returned token _ halive =>
            refine h.runSame hlife TokenClock.join_otherwiseSame rfl rfl (.returned _ _ ?_)
            rwa [TokenClock.join_checked]
  | requesting =>
      obtain ⟨-, rfl, hdata, rfl⟩ := hanswer
      cases r with
      | error e => exact h.runSame hlife TokenClock.give_otherwiseSame rfl rfl (.failed _ _)
      | ok data =>
          obtain ⟨accessToken, expiresIn⟩ := data
          cases accessToken with
          | none => exact h.runSame hlife TokenClock.give_otherwiseSame rfl rfl (.failed _ _)
          | some token =>
              obtain ⟨hissued, hexpires⟩ := hdata _ rfl token rfl
              refine h.runSame hlife TokenClock.give_otherwiseSame rfl rfl
                (.answered token _ _ (Function.update_self ..) hissued fun e he => ?_)
              exact (hexpires e he).trans (hlife token)
  | answered token data _ hgiven hissued hdata =>
      obtain ⟨htime, rfl, rfl, rfl⟩ := hanswer
      exact h.stores hlife hgiven htime hissued hdata
  | stored token data _ hgiven hissued hdata hstored =>
      obtain ⟨htime, rfl, rfl, rfl⟩ := hanswer
      exact h.dates hlife hgiven htime hdata hstored

/-- The invariant holds in every pool that is reached. -/
lemma lifeValid_of_reachable {w₀ : TokenClock ι} (hstart : 0 ≤ w₀.now + life)
    (hlife : ∀ token, kc.life token = life) (h : (lifePool kc).Reachable w₀ .init pool) :
    LifeValid kc life pool := by
  induction h with
  | init => exact ⟨hstart, nofun, nofun⟩
  | step _ hstep ih =>
      cases hstep with
      | start who x _ hx => exact ih.start hlife hx
      | resume who c s k r w v htask hanswer => exact ih.resume hlife htask hanswer
      | idle w hw =>
          obtain ⟨now, hnow, rfl⟩ := hw
          refine ⟨ih.bound.trans (by linarith), ih.held, fun who p hp => ?_⟩
          exact (ih.points who p hp).mono hlife hnow rfl rfl (.inl rfl)

/-- **A returned token lives.**  Calls of `aget_token` that are cancelled at any await, their
threads, and other threads that call `get_token` run in any interleaving, with any failures.  If all
tokens live for `life` seconds and every thread has dated its token within `delay` seconds of its
issue, then the time that the manager has is never more than `2 * delay` later than the expiry of
the token that it has; and a token that is returned has, at the reading of the clock that its task
relied on, at least `min 30 life - 2 * delay` seconds left. -/
theorem returned_alive {w₀ : TokenClock ι} (hstart : 0 ≤ w₀.now + life)
    (hlife : ∀ token, kc.life token = life) (h : (lifePool kc).Reachable w₀ .init pool) :
    (∀ token, pool.shared.token = some token →
        pool.shared.expiresAt ≤ kc.expiry token + 2 * kc.delay)
      ∧ ∀ who token v, pool.tasks who = some (.done (.ok token) v) →
          ∃ t, token = some t
            ∧ pool.world.checked who + (min 30 life - 2 * kc.delay) ≤ kc.expiry t := by
  have hvalid := lifeValid_of_reachable hstart hlife h
  refine ⟨hvalid.held, fun who token v htask => ?_⟩
  cases hvalid.points who _ htask with
  | returned _ _ halive => exact halive

end Steps

/-! ## Two refreshes that cross -/

/-- Two tokens that were issued at time 0. -/
def twoTokens (first second : ℚ) : Issuer :=
  let life := fun token => if token = "token-1" then first else second
  ⟨life, life, 1⟩

/-- The time at which they were issued. -/
def timeOfIssue : TokenClock ℕ := ⟨0, fun _ => 0, fun _ => none⟩

section Runs

variable {ι : Type} [DecidableEq ι] {kc : Issuer} {w₀ : TokenClock ι} {pool : LifePool ι}

/-- A thread of synchronous code begins. -/
lemma lifePool_thread (h : (lifePool kc).Reachable w₀ .init pool) (i : ι)
    (hnew : pool.tasks (.thread i) = none) (hcall : pool.tasks (.call i) = none) :
    (lifePool kc).Reachable w₀ .init
      (pool.run (lifePool kc) (.thread i) pool.world pool.shared (getToken pool.shared)) :=
  h.step (.start pool (.thread i) getToken hnew ⟨rfl, .inl hcall⟩)

/-- A call begins. -/
lemma lifePool_call (h : (lifePool kc).Reachable w₀ .init pool) (i : ι)
    (hnew : pool.tasks (.call i) = none) (hthread : pool.tasks (.thread i) = none) :
    (lifePool kc).Reachable w₀ .init
      (pool.run (lifePool kc) (.call i) pool.world pool.shared (agetToken pool.shared)) :=
  h.step (.start pool (.call i) agetToken hnew ⟨rfl, hthread⟩)

/-- What was awaited is there. -/
lemma lifePool_goesOn (h : (lifePool kc).Reachable w₀ .init pool) (who : Who ι) (c : TokenCommand)
    (r : Except Raised c.Answer) (w : TokenClock ι) (v : ServiceTokenManager)
    {s : ServiceTokenManager}
    {k : Except Raised c.Answer → ServiceTokenManager → Program tokenSig (Option String)}
    (htask : pool.tasks who = some (.await c s k))
    (hanswer : (lifePool kc).answers pool who c r w v) :
    (lifePool kc).Reachable w₀ .init (pool.run (lifePool kc) who w v (k r v)) :=
  h.step (.resume pool who c s k r w v htask hanswer)

end Runs

lemma twoTokens_inTime (first second : ℚ) (token : String) :
    (twoTokens first second).InTime 0 (some token) := by
  rintro _ ⟨⟩
  simp [twoTokens, Issuer.issued]

lemma twoTokens_answers (first second : ℚ) (token : String) (data : TokenData)
    (hdata : data = ⟨some token, some ((twoTokens first second).life token)⟩) :
    (twoTokens first second).Answers 0 data := by
  subst hdata
  rintro _ ⟨⟩
  refine ⟨by simp [twoTokens, Issuer.issued], ?_⟩
  rintro _ ⟨⟩
  rfl

/-- Two threads and a call. -/
def crossing (w : TokenClock ℕ) (v : ServiceTokenManager)
    (first second call : Option (Program tokenSig (Option String))) : LifePool ℕ where
  world := w
  shared := v
  tasks who := if who = .thread 0 then first else if who = .thread 1 then second
    else if who = .call 2 then call else none

section Crossing

variable {kc : Issuer} {w w₀ w' : TokenClock ℕ} {v v' : ServiceTokenManager}
  {a b c : Option (Program tokenSig (Option String))} {p : Program tokenSig (Option String)}

lemma crossing_first : (crossing w v a b c).run (lifePool kc) (.thread 0) w' v' p
    = crossing w' (p.state?.getD v') (some p) b c := by
  rw [Pool.run, crossing, crossing]
  congr 1
  funext who
  by_cases hwho : who = .thread 0 <;> simp [hwho]

lemma crossing_second : (crossing w v a b c).run (lifePool kc) (.thread 1) w' v' p
    = crossing w' (p.state?.getD v') a (some p) c := by
  rw [Pool.run, crossing, crossing]
  congr 1
  funext who
  by_cases hwho : who = .thread 1 <;> simp [hwho]

lemma crossing_call : (crossing w v a b c).run (lifePool kc) (.call 2) w' v' p
    = crossing w' (p.state?.getD v') a b (some p) := by
  rw [Pool.run, crossing, crossing]
  congr 1
  funext who
  by_cases hwho : who = .call 2 <;> simp [hwho]

end Crossing

/-- Two threads are given a token each.  The second one stores its token before the first one, and
its time after it. -/
lemma refreshes_cross (first second : ℚ) :
    ∃ (w : TokenClock ℕ) (a b : Option (Program tokenSig (Option String))),
      w.now = 0 ∧ w.undated (.call 2) = none
        ∧ (lifePool (twoTokens first second)).Reachable timeOfIssue .init
          (crossing w ⟨some "token-1", 0 + second, false⟩ a b none) := by
  have hin := twoTokens_inTime first second
  have h0 : (lifePool (twoTokens first second)).Reachable timeOfIssue .init
      (crossing timeOfIssue .init none none none) := by
    have hinit : crossing timeOfIssue .init none none none
        = ⟨timeOfIssue, .init, fun _ => none⟩ := by simp [crossing]
    rw [hinit]
    exact .init
  -- the requests
  have h1 := lifePool_thread h0 0 rfl rfl
  rw [getToken_eq, if_neg nofun, crossing_first] at h1
  have h2 := lifePool_thread h1 1 rfl rfl
  rw [getToken_eq, if_neg nofun, crossing_second] at h2
  have h3 := lifePool_goesOn h2 (.thread 0) .request (.ok ⟨some "token-1", some first⟩) _ _ rfl
    ⟨nofun, rfl, fun _ h => by cases h; exact twoTokens_answers _ _ "token-1" _ rfl, rfl⟩
  rw [crossing_first] at h3
  have h4 := lifePool_goesOn h3 (.thread 1) .request (.ok ⟨some "token-2", some second⟩) _ _ rfl
    ⟨nofun, rfl, fun _ h => by cases h; exact twoTokens_answers _ _ "token-2" _ rfl, rfl⟩
  rw [crossing_second] at h4
  -- the second token, then the first; the first time, then the second
  have h5 := lifePool_goesOn h4 (.thread 1) .switch (.ok ()) _ _ rfl ⟨hin "token-2", rfl, rfl, rfl⟩
  rw [crossing_second] at h5
  have h6 := lifePool_goesOn h5 (.thread 0) .switch (.ok ()) _ _ rfl ⟨hin "token-1", rfl, rfl, rfl⟩
  rw [crossing_first] at h6
  have h7 := lifePool_goesOn h6 (.thread 0) .clock (.ok 0) _ _ rfl ⟨hin "token-1", rfl, rfl, rfl⟩
  rw [crossing_first] at h7
  have h8 := lifePool_goesOn h7 (.thread 1) .clock (.ok 0) _ _ rfl ⟨hin "token-2", rfl, rfl, rfl⟩
  rw [crossing_second] at h8
  exact ⟨_, _, _, rfl, rfl, h8⟩

/-- A call then finds the first token with the second time. -/
lemma crossing_returned (first second time : ℚ) (htime : 0 ≤ time) (hfresh : time < second - 30) :
    ∃ (pool : LifePool ℕ) (v : ServiceTokenManager),
      (lifePool (twoTokens first second)).Reachable timeOfIssue .init pool
        ∧ pool.tasks (.call 2) = some (.done (.ok (some "token-1")) v)
        ∧ pool.world.checked (.call 2) = time := by
  obtain ⟨w, a, b, hnow, hnone, h⟩ := refreshes_cross first second
  have h1 : (lifePool (twoTokens first second)).Reachable timeOfIssue .init
      (crossing { w with now := time } ⟨some "token-1", 0 + second, false⟩ a b none) :=
    h.step (.idle _ _ ⟨time, hnow.trans_le htime, rfl⟩)
  have hin : (twoTokens first second).InTime time (w.undated (.call 2)) := by
    rw [hnone]
    exact nofun
  let w' : TokenClock ℕ := { w with now := time }
  let v : ServiceTokenManager := ⟨some "token-1", 0 + second, false⟩
  have h2 : (lifePool (twoTokens first second)).Reachable timeOfIssue .init
      (crossing w' v a b (some (.await .clock v tested))) := by
    have h := lifePool_call h1 2 rfl rfl
    rw [agetToken_eq, crossing_call] at h
    exact h
  have h3 : (lifePool (twoTokens first second)).Reachable timeOfIssue .init
      (crossing (w'.read (.call 2)) v a b (some (.await .switch v returns))) := by
    have htested : tested (.ok time) v = .await .switch v returns :=
      if_pos (show time < 0 + second - 30 by rwa [zero_add])
    have h := lifePool_goesOn h2 (.call 2) .clock (.ok time) (w'.read (.call 2)) v rfl
      ⟨hin, rfl, rfl, rfl⟩
    rw [htested, crossing_call] at h
    exact h
  have hread : (twoTokens first second).InTime time ((w'.read (.call 2)).undated (.call 2)) := by
    rw [TokenClock.read_undated]
    exact nofun
  have h4 := lifePool_goesOn h3 (.call 2) .switch (.ok ()) _ _ rfl ⟨hread, rfl, rfl, rfl⟩
  rw [crossing_call] at h4
  exact ⟨_, _, h4, rfl, TokenClock.read_checked⟩

/-- Both tokens live for 300 seconds: at time 200, the first one is alive. -/
theorem returned_alive_crossing : ∃ (pool : LifePool ℕ) (v : ServiceTokenManager),
    (lifePool (twoTokens 300 300)).Reachable timeOfIssue .init pool
      ∧ pool.tasks (.call 2) = some (.done (.ok (some "token-1")) v)
      ∧ pool.world.checked (.call 2) = 200
      ∧ pool.world.checked (.call 2) + (min 30 300 - 2 * 1)
          ≤ (twoTokens 300 300).expiry "token-1" := by
  obtain ⟨pool, v, h, htask, htime⟩ := crossing_returned 300 300 200 (by norm_num) (by norm_num)
  have hstart : 0 ≤ timeOfIssue.now + 300 := by norm_num [timeOfIssue]
  have hlife : ∀ token, (twoTokens 300 300).life token = 300 := by simp [twoTokens]
  obtain ⟨t, heq, halive⟩ := (returned_alive hstart hlife h).2 (.call 2) _ v htask
  obtain rfl := Option.some.inj heq
  exact ⟨pool, v, h, htask, htime, halive⟩

/-- **A token that outlives itself.**  The first token lives for 60 seconds and the second one for
an hour: at time 1000 a call still returns the first one. -/
theorem returned_expired : ∃ (pool : LifePool ℕ) (v : ServiceTokenManager),
    (lifePool (twoTokens 60 3600)).Reachable timeOfIssue .init pool
      ∧ pool.tasks (.call 2) = some (.done (.ok (some "token-1")) v)
      ∧ (twoTokens 60 3600).expiry "token-1" < pool.world.checked (.call 2) := by
  obtain ⟨pool, v, h, htask, htime⟩ := crossing_returned 60 3600 1000 (by norm_num) (by norm_num)
  refine ⟨pool, v, h, htask, ?_⟩
  rw [htime]
  norm_num [twoTokens]

end Atsig
