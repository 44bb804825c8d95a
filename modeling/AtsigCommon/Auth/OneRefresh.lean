import AtsigCommon.Auth.ServiceToken

/-!
# One refresh at a time

The call that holds the lock has found the token stale, and nobody but its thread changes the token
until the call gives the lock back; so the token is stale until the thread stores a new one, and no
other call can be served meanwhile.  A call that is cancelled gives the lock back before its thread
is done.

* `agetToken_eq`, `getToken_eq` — the points at which a call and a thread can wait.
* `Refresh` — who holds the lock, and how far its refresh is.
* `Valid` — the invariant of the pool.
* `token_single_flight` — one request at a time, and every token that is returned is the newest.
-/

namespace Atsig

open Coroutine Python

/-! ## Where a task can wait -/

section Points

/-- After its turn, a task returns the token, with the lock or without it. -/
def returns : Except Raised Unit → ServiceTokenManager → Program tokenSig (Option String)
  | .ok (), v => .done (.ok v.token) v
  | .error e, v => .done (.error e) v

def returnsLocked : Except Raised Unit → ServiceTokenManager → Program tokenSig (Option String)
  | .ok (), v => .done (.ok v.token) { v with locked := false }
  | .error e, v => .done (.error e) { v with locked := false }

/-- The thread of a call has ended. -/
def joins (r : Except Raised (Option String)) (v : ServiceTokenManager) :
    Program tokenSig (Option String) :=
  .done r { v with locked := false }

/-- The token that a call with the lock has found is tested. -/
def testedLocked : Except Raised ℚ → ServiceTokenManager → Program tokenSig (Option String)
  | .ok now, v =>
      if now < v.expiresAt - 30 then .await .switch v returnsLocked else .await .toThread v joins
  | .error e, v => .done (.error e) { v with locked := false }

/-- A call has the lock. -/
def acquired : Except Raised Unit → ServiceTokenManager → Program tokenSig (Option String)
  | .ok (), v =>
      if v.hasToken then .await .clock v testedLocked else .await .toThread v joins
  | .error e, v => .done (.error e) v

/-- The token that a call has found is tested. -/
def tested : Except Raised ℚ → ServiceTokenManager → Program tokenSig (Option String)
  | .ok now, v =>
      if now < v.expiresAt - 30 then .await .switch v returns else .await .acquire v acquired
  | .error e, v => .done (.error e) v

/-- A thread that has stored the token stores the time at which it expires. -/
def expires (data : TokenData) : Except Raised ℚ → ServiceTokenManager →
    Program tokenSig (Option String)
  | .ok now, v =>
      match data.expiresIn with
      | none => .done (.error (missingKey "expires_in")) v
      | some expiresIn => .await .switch { v with expiresAt := now + expiresIn } returns
  | .error e, v => .done (.error e) v

/-- A thread stores the token. -/
def stores (token : String) (data : TokenData) : Except Raised Unit → ServiceTokenManager →
    Program tokenSig (Option String)
  | .ok (), v => .await .clock { v with token := some token } (expires data)
  | .error e, v => .done (.error e) v

/-- Keycloak has answered. -/
def requested : Except Raised TokenData → ServiceTokenManager → Program tokenSig (Option String)
  | .ok data, v =>
      match data.accessToken with
      | none => .done (.error (missingKey "access_token")) v
      | some token => .await .switch v (stores token data)
  | .error e, v => .done (.error e) v

/-- The token that a thread has found is tested. -/
def testedThread : Except Raised ℚ → ServiceTokenManager → Program tokenSig (Option String)
  | .ok now, v =>
      if now < v.expiresAt - 30 then .await .switch v returns else .await .request v requested
  | .error e, v => .done (.error e) v

lemma returnToken_eq (v : ServiceTokenManager) : returnToken v = .await .switch v returns := by
  show Program.await _ _ _ = Program.await _ _ _
  congr 1
  funext r v
  cases r <;> rfl

/-- `if self._is_fresh(): … else: …` -/
lemma isFresh_bind {α : Type} (x y : Tokens α) (v : ServiceTokenManager) :
    (do if ← isFresh then x else y : Tokens α) v
      = if v.hasToken then .await .clock v fun r v => match r with
          | .ok now => if now < v.expiresAt - 30 then x v else y v
          | .error e => .done (.error e) v
        else y v := by
  have hfresh : (isFresh : Tokens Bool) v =
      if v.hasToken then .await .clock v fun r v => match r with
      | .ok now => .done (.ok (decide (now < v.expiresAt - 30))) v
      | .error e => .done (.error e) v
      else .done (.ok false) v := by
    show (ite (v.hasToken = true) _ _ : Tokens Bool) v = _
    split
    · show Program.await _ _ _ = Program.await _ _ _
      congr 1
      funext r v
      cases r <;> rfl
    · rfl
  show ((isFresh : Tokens Bool) v).andThen _ = _
  rw [hfresh]
  split
  · show Program.await _ _ _ = Program.await _ _ _
    congr 1
    funext r v
    cases r with
    | error e => rfl
    | ok now =>
        show (ite (decide (now < v.expiresAt - 30) = true) x y : Tokens α) v = _
        simp only [decide_eq_true_eq]
        split <;> rfl
  · rfl

/-- A token is requested and stored. -/
lemma requestToken_eq (v : ServiceTokenManager) :
    requestToken v = .await .request v requested := by
  show Program.await _ _ _ = Program.await _ _ _
  congr 1
  funext r v
  cases r with
  | error e => rfl
  | ok data =>
      obtain ⟨accessToken, expiresIn⟩ := data
      cases accessToken with
      | none => rfl
      | some token =>
          show Program.await _ _ _ = Program.await _ _ _
          congr 1
          funext r v
          cases r with
          | error e => rfl
          | ok _ =>
              show Program.await _ _ _ = Program.await _ _ _
              congr 1
              funext r v
              cases r with
              | error e => rfl
              | ok now =>
                  cases expiresIn with
                  | none => rfl
                  | some expiresIn => exact returnToken_eq _

/-- `get_token`, from its beginning. -/
lemma getToken_eq (v : ServiceTokenManager) :
    getToken v =
      if v.hasToken then .await .clock v testedThread else .await .request v requested := by
  rw [getToken, isFresh_bind, requestToken_eq]
  congr 2
  funext r v
  cases r with
  | error e => rfl
  | ok now => simp only [testedThread, returnToken_eq, requestToken_eq]

/-- What a call does with the lock. -/
lemma withRefreshLock_eq (v : ServiceTokenManager) :
    withRefreshLock (do if ← isFresh then returnToken else need .toThread) v
      = .await .acquire v acquired := by
  show Program.await _ _ _ = Program.await _ _ _
  congr 1
  funext r v
  cases r with
  | error e => rfl
  | ok _ =>
      show ((do if ← isFresh then returnToken else need .toThread :
        Tokens (Option String)) v).andThen _ = _
      rw [isFresh_bind, acquired]
      split
      · show Program.await _ _ _ = Program.await _ _ _
        congr 1
        funext r v
        cases r with
        | error e => rfl
        | ok now =>
            show (ite (now < v.expiresAt - 30) _ _ : Program tokenSig (Option String)).andThen _ = _
            rw [testedLocked]
            split
            · rw [returnToken_eq]
              show Program.await _ _ _ = Program.await _ _ _
              congr 1
              funext r v
              cases r <;> rfl
            · show Program.await _ _ _ = Program.await _ _ _
              congr 1
      · show Program.await _ _ _ = Program.await _ _ _
        congr 1

/-- `aget_token`, from its beginning. -/
lemma agetToken_eq (v : ServiceTokenManager) :
    agetToken v = if v.hasToken then .await .clock v tested else .await .acquire v acquired := by
  rw [agetToken, isFresh_bind, withRefreshLock_eq]
  congr 2
  funext r v
  cases r with
  | error e => rfl
  | ok now => simp only [tested, returnToken_eq, withRefreshLock_eq]

end Points

/-! ## How far the refresh is -/

/-- How far the thread of a call is: it has not begun; it tests the token; it waits for Keycloak; it
has the answer; it has stored the token; it has stored the time; it has ended. -/
inductive Stage
  | pending
  | testing
  | requesting
  | answered (token : String)
  | stored
  | finishing
  | finished (r : Except Raised (Option String))

/-- The thread is at this stage. -/
inductive Stage.Runs : Stage → Option (Program tokenSig (Option String)) → Prop
  | pending : Runs .pending none
  | testing (v : ServiceTokenManager) : Runs .testing (some (.await .clock v testedThread))
  | requesting (v : ServiceTokenManager) : Runs .requesting (some (.await .request v requested))
  | answered (token : String) (data : TokenData) (v : ServiceTokenManager) :
      Runs (.answered token) (some (.await .switch v (stores token data)))
  | stored (data : TokenData) (v : ServiceTokenManager) :
      Runs .stored (some (.await .clock v (expires data)))
  | finishing (v : ServiceTokenManager) : Runs .finishing (some (.await .switch v returns))
  | finished (r : Except Raised (Option String)) (v : ServiceTokenManager) :
      Runs (.finished r) (some (.done r v))

/-- The thread has not stored its token yet. -/
def Stage.unstored : Stage → Bool
  | .pending | .testing | .requesting | .answered _ => true
  | _ => false

/-- Who has the lock: nobody, a call that tests the token again, or one that refreshes it. -/
inductive Refresh (ι : Type)
  | free
  | testing (i : ι)
  | refreshing (i : ι) (stage : Stage)

namespace Refresh

variable {ι : Type}

def isHeld : Refresh ι → Bool
  | .free => false
  | _ => true

/-- A refresh is going on, and the old token is still there. -/
def unstored : Refresh ι → Bool
  | .refreshing _ stage => stage.unstored
  | _ => false

/-- The refresh of call `i`. -/
def IsOf (refresh : Refresh ι) (i : ι) : Prop := ∃ stage, refresh = .refreshing i stage

end Refresh

/-- The token is not fresh. -/
def ServiceTokenManager.Stale (self : ServiceTokenManager) (now : ℚ) : Prop :=
  self.hasToken = true → self.expiresAt - 30 ≤ now

section Invariant

variable {ι : Type}

/-- Where a call is, and what it knows. -/
inductive CallAt (refresh : Refresh ι) (v : ServiceTokenManager) (i : ι) :
    Program tokenSig (Option String) → Prop
  | ended (r : Except Raised (Option String)) (v' : ServiceTokenManager) :
      CallAt refresh v i (.done r v')
  | reading (v' : ServiceTokenManager) (hsome : v.token.isSome = true)
      (htoken : refresh.unstored = true → v.hasToken = true) :
      CallAt refresh v i (.await .clock v' tested)
  | returning (v' : ServiceTokenManager) (hsome : v.token.isSome = true)
      (hstored : refresh.unstored = false) : CallAt refresh v i (.await .switch v' returns)
  | waiting (v' : ServiceTokenManager) : CallAt refresh v i (.await .acquire v' acquired)
  | testing (v' : ServiceTokenManager) (h : refresh = .testing i) (htoken : v.hasToken = true) :
      CallAt refresh v i (.await .clock v' testedLocked)
  | sure (v' : ServiceTokenManager) (h : refresh = .testing i) (hsome : v.token.isSome = true) :
      CallAt refresh v i (.await .switch v' returnsLocked)
  | joining (v' : ServiceTokenManager) (h : refresh.IsOf i) :
      CallAt refresh v i (.await .toThread v' joins)

/-- What is known of the token at a stage: before it is stored the old one is stale, and after that
it is the newest one. -/
def Stage.Knows (v : ServiceTokenManager) (w : Refreshes) : Stage → Prop
  | .pending | .requesting => v.token = w.latest ∧ v.Stale w.now
  | .testing => v.token = w.latest ∧ v.Stale w.now ∧ v.hasToken = true
  | .answered token => w.latest = some token ∧ v.Stale w.now
  | .stored | .finishing => v.token = w.latest ∧ v.token.isSome = true
  | .finished r => v.token = w.latest ∧ ∀ token, r = .ok token → token = v.token
      ∧ token.isSome = true

/-- What is known of the token. -/
def Refresh.Knows (v : ServiceTokenManager) (w : Refreshes) : Refresh ι → Prop
  | .refreshing _ stage => stage.Knows v w
  | _ => v.token = w.latest

/-- **The invariant.** -/
structure Valid (pool : TokenPool ι) (refresh : Refresh ι) : Prop where
  locked : pool.shared.locked = refresh.isHeld
  knows : refresh.Knows pool.shared pool.world
  calls : ∀ i p, pool.tasks (.call i) = some p → CallAt refresh pool.shared i p
  thread : ∀ i stage, refresh = .refreshing i stage → stage.Runs (pool.tasks (.thread i))
  past : ∀ i p, pool.tasks (.thread i) = some p → ¬ refresh.IsOf i →
    (∃ r v, p = .done r v) ∧ ∃ r v, pool.tasks (.call i) = some (.done r v)
  alone : ∀ i j p q, pool.tasks (.call i) = some p → pool.tasks (.call j) = some q → Busy p →
    Busy q → i = j
  returned : ∀ x ∈ pool.world.returned, x.1 = x.2 ∧ x.1.isSome = true

end Invariant

/-! ## Steps -/

section Steps

variable {ι : Type} {refresh refresh' : Refresh ι} {v v' : ServiceTokenManager} {i j : ι}
  {p : Program tokenSig (Option String)}

/-- Away from the middle of its code, a call knows only whether the refresh is its own. -/
lemma CallAt.idle (h : CallAt refresh v j p) (hidle : ¬ Busy p)
    (hrefresh : refresh.IsOf j → refresh'.IsOf j) : CallAt refresh' v' j p := by
  cases h with
  | ended r v'' => exact .ended r v''
  | waiting v'' => exact .waiting v''
  | joining v'' h => exact .joining v'' (hrefresh h)
  | reading v'' hsome htoken => exact absurd (.inl rfl) hidle
  | testing v'' h htoken => exact absurd (.inl rfl) hidle
  | returning v'' hsome hstored => exact absurd (.inr rfl) hidle
  | sure v'' h hsome => exact absurd (.inr rfl) hidle

/-- The thread of call `i` goes on. -/
lemma CallAt.threadRuns {stage stage' : Stage} (h : CallAt (.refreshing i stage) v j p)
    (htoken : stage'.unstored = true → stage.unstored = true ∧ v'.token = v.token)
    (hsome : v.token.isSome = true → v'.token.isSome = true) :
    CallAt (.refreshing i stage') v' j p := by
  cases h with
  | ended r v'' => exact .ended r v''
  | waiting v'' => exact .waiting v''
  | joining v'' h =>
      obtain ⟨_, h⟩ := h
      cases h
      exact .joining v'' ⟨_, rfl⟩
  | reading v'' hs ht =>
      refine .reading v'' (hsome hs) fun hun => ?_
      obtain ⟨hun', heq⟩ := htoken hun
      rw [ServiceTokenManager.hasToken, heq]
      exact ht hun'
  | testing v'' h ht => cases h
  | returning v'' hs hstored =>
      refine .returning v'' (hsome hs) ?_
      by_contra hun
      have hun' := (htoken (by simpa [Refresh.unstored] using hun)).1
      rw [Refresh.unstored] at hstored
      rw [hstored] at hun'
      cases hun'
  | sure v'' h hs => cases h

lemma ServiceTokenManager.Stale.mono {now now' : ℚ} (h : v.Stale now) (hnow : now ≤ now') :
    v.Stale now' := fun htoken => (h htoken).trans hnow

variable (allowed : TokenPool ι → Who ι → (c : TokenCommand) → Except Raised c.Answer → Prop)
  {pool : TokenPool ι} {w : Refreshes}

/-- The token that is returned is the newest one. -/
lemma notes_returned (who : Who ι) (h : ∀ x ∈ w.returned, x.1 = x.2 ∧ x.1.isSome = true)
    (hp : ∀ token v', p = .done (.ok token) v' → token = w.latest ∧ token.isSome = true) :
    ∀ x ∈ ((tokenPool allowed).notes w who p).returned, x.1 = x.2 ∧ x.1.isSome = true := by
  cases p with
  | spent => exact h
  | await c v' k => exact h
  | done r v' =>
      cases r with
      | error e => exact h
      | ok token =>
          intro x hx
          rcases List.mem_cons.mp hx with rfl | hx
          · exact hp token v' rfl
          · exact h x hx

/-- What a task returns changes neither the time nor the newest token. -/
lemma notes_knows (who : Who ι) : ∀ {p : Program tokenSig (Option String)},
    refresh.Knows v ((tokenPool allowed).notes w who p) ↔ refresh.Knows v w := by
  intro p
  have hsame : ((tokenPool allowed).notes w who p).now = w.now
      ∧ ((tokenPool allowed).notes w who p).latest = w.latest := by
    cases p with
    | spent => exact ⟨rfl, rfl⟩
    | await c v' k => exact ⟨rfl, rfl⟩
    | done r v' => cases r <;> exact ⟨rfl, rfl⟩
  cases refresh with
  | free => simp only [Refresh.Knows, hsame]
  | testing i => simp only [Refresh.Knows, hsame]
  | refreshing i stage => cases stage <;> simp only [Refresh.Knows, Stage.Knows, hsame]

variable [DecidableEq ι] {allowed}

/-- A call runs. -/
lemma Valid.runCall (h : Valid pool refresh) (hnot : ∀ r v, pool.tasks (.call i) ≠ some (.done r v))
    (hlocked : (p.state?.getD v).locked = refresh'.isHeld)
    (hknows : refresh'.Knows (p.state?.getD v) w) (hcall : CallAt refresh' (p.state?.getD v) i p)
    (hothers : ∀ j q, j ≠ i → pool.tasks (.call j) = some q → CallAt refresh' (p.state?.getD v) j q)
    (halone : Busy p → ∀ j q, j ≠ i → pool.tasks (.call j) = some q → ¬ Busy q)
    (hthread : ∀ j stage, refresh' = .refreshing j stage → stage.Runs (pool.tasks (.thread j)))
    (hpast : ∀ j q, pool.tasks (.thread j) = some q → refresh.IsOf j → ¬ refresh'.IsOf j →
      (∃ r v, q = .done r v) ∧ j = i ∧ ∃ r v, p = .done r v)
    (hreturned : ∀ x ∈ w.returned, x.1 = x.2 ∧ x.1.isSome = true)
    (hreturns : ∀ token v', p = .done (.ok token) v' → token = w.latest ∧ token.isSome = true) :
    Valid (pool.run (tokenPool allowed) (.call i) w v p) refresh' := by
  refine ⟨hlocked, (notes_knows allowed (.call i)).mpr hknows, fun j q hq => ?_,
    fun j stage hj => ?_,
    fun j q hq hj => ?_, fun j k q q' hq hq' hbusy hbusy' => ?_,
    notes_returned allowed (.call i) hreturned hreturns⟩
  · rcases Pool.run_tasks hq with ⟨hj, rfl⟩ | ⟨hj, hq⟩
    · cases hj
      exact hcall
    · exact hothers j q (fun heq => hj (by rw [heq])) hq
  · rw [Pool.run_of_ne (by simp)]
    exact hthread j stage hj
  · have hq' : pool.tasks (.thread j) = some q := by
      rcases Pool.run_tasks hq with ⟨hj, -⟩ | ⟨-, hq⟩
      · cases hj
      · exact hq
    by_cases hof : refresh.IsOf j
    · obtain ⟨hdone, rfl, r, v', rfl⟩ := hpast j q hq' hof hj
      exact ⟨hdone, r, v', Pool.run_self⟩
    · obtain ⟨hdone, r, v', hended⟩ := h.past j q hq' hof
      refine ⟨hdone, r, v', ?_⟩
      have hne : j ≠ i := by
        rintro rfl
        exact hnot r v' hended
      rw [Pool.run_of_ne (by simpa using hne)]
      exact hended
  · rcases Pool.run_tasks hq with ⟨hj, hp⟩ | ⟨hj, hq⟩
    · rcases Pool.run_tasks hq' with ⟨hk, hp'⟩ | ⟨hk, hq'⟩
      · cases hj
        cases hk
        rfl
      · cases hj
        rw [hp] at hbusy
        exact absurd hbusy' (halone hbusy k q' (fun heq => hk (by rw [heq])) hq')
    · rcases Pool.run_tasks hq' with ⟨hk, hp'⟩ | ⟨hk, hq'⟩
      · cases hk
        rw [hp'] at hbusy'
        exact absurd hbusy (halone hbusy' j q (fun heq => hj (by rw [heq])) hq)
      · exact h.alone j k q q' hq hq' hbusy hbusy'

/-- A call runs and leaves the manager and the refresh as they are. -/
lemma Valid.callStays (h : Valid pool refresh)
    (hnot : ∀ r v, pool.tasks (.call i) ≠ some (.done r v))
    (hsame : p.state?.getD v = pool.shared) (hcall : CallAt refresh pool.shared i p)
    (halone : Busy p → ∀ j q, j ≠ i → pool.tasks (.call j) = some q → ¬ Busy q)
    (hreturns : ∀ token v', p = .done (.ok token) v' →
      token = pool.world.latest ∧ token.isSome = true) :
    Valid (pool.run (tokenPool allowed) (.call i) pool.world v p) refresh := by
  refine h.runCall hnot ?_ ?_ ?_ ?_ halone h.thread (fun j q _ hof hnot => absurd hof hnot)
    h.returned hreturns
  · rw [hsame]
    exact h.locked
  · rw [hsame]
    exact h.knows
  · rw [hsame]
    exact hcall
  · intro j q _ hq
    rw [hsame]
    exact h.calls j q hq

/-- A call runs that has the lock, or gets it, while no other call is in the middle of its code. -/
lemma Valid.callLocks (h : Valid pool refresh)
    (hnot : ∀ r v, pool.tasks (.call i) ≠ some (.done r v))
    (hloop : ∀ j q, j ≠ i → pool.tasks (.call j) = some q → ¬ Busy q)
    (hnone : ∀ j, ¬ refresh.IsOf j) (htoken : (p.state?.getD v).token = pool.shared.token)
    (hlocked : (p.state?.getD v).locked = refresh'.isHeld)
    (hrefresh : refresh' = .free ∨ refresh' = .testing i
      ∨ refresh' = .refreshing i .pending ∧ pool.shared.Stale pool.world.now)
    (hexpires : (p.state?.getD v).expiresAt = pool.shared.expiresAt)
    (hcall : CallAt refresh' (p.state?.getD v) i p)
    (hreturns : ∀ token v', p = .done (.ok token) v' →
      token = pool.world.latest ∧ token.isSome = true) :
    Valid (pool.run (tokenPool allowed) (.call i) pool.world v p) refresh' := by
  have hlatest : pool.shared.token = pool.world.latest := by
    have hknows := h.knows
    cases refresh with
    | free => exact hknows
    | testing j => exact hknows
    | refreshing j stage => exact absurd ⟨stage, rfl⟩ (hnone j)
  have hthread : pool.tasks (.thread i) = none := by
    cases hthread : pool.tasks (.thread i) with
    | none => rfl
    | some q =>
        obtain ⟨-, r, v', hdone⟩ := h.past i q hthread (hnone i)
        exact absurd hdone (hnot r v')
  refine h.runCall hnot hlocked ?_ hcall (fun j q hj hq => ?_) (fun _ => hloop) ?_
    (fun j q _ hof _ => absurd hof (hnone j)) h.returned hreturns
  · rcases hrefresh with rfl | rfl | ⟨rfl, hstale⟩
    · exact htoken.trans hlatest
    · exact htoken.trans hlatest
    · refine ⟨htoken.trans hlatest, fun hhas => ?_⟩
      rw [hexpires]
      refine hstale ?_
      rw [ServiceTokenManager.hasToken, ← htoken]
      exact hhas
  · exact (h.calls j q hq).idle (hloop j q hj hq) fun hof => absurd hof (hnone j)
  · rintro j stage rfl
    rcases hrefresh with heq | heq | ⟨heq, -⟩
    · cases heq
    · cases heq
    · cases heq
      rw [hthread]
      exact .pending

/-- The thread of the refresh runs. -/
lemma Valid.runThread {stage stage' : Stage} (h : Valid pool (.refreshing i stage))
    (hlocked : (p.state?.getD v).locked = true) (hknows : stage'.Knows (p.state?.getD v) w)
    (hruns : stage'.Runs (some p))
    (htoken : stage'.unstored = true →
      stage.unstored = true ∧ (p.state?.getD v).token = pool.shared.token)
    (hsome : pool.shared.token.isSome = true → (p.state?.getD v).token.isSome = true)
    (hreturned : ∀ x ∈ w.returned, x.1 = x.2 ∧ x.1.isSome = true)
    (hreturns : ∀ token v', p = .done (.ok token) v' → token = w.latest ∧ token.isSome = true) :
    Valid (pool.run (tokenPool allowed) (.thread i) w v p) (.refreshing i stage') := by
  have hcalls : ∀ j, (pool.run (tokenPool allowed) (.thread i) w v p).tasks (.call j)
      = pool.tasks (.call j) := fun j => Pool.run_of_ne (by simp)
  refine ⟨hlocked, (notes_knows allowed (.thread i)).mpr hknows, fun j q hq => ?_,
    fun j stage'' hj => ?_,
    fun j q hq hj => ?_, fun j k q q' hq hq' hbusy hbusy' => ?_,
    notes_returned allowed (.thread i) hreturned hreturns⟩
  · rw [hcalls] at hq
    exact (h.calls j q hq).threadRuns htoken hsome
  · cases hj
    rw [Pool.run_self]
    exact hruns
  · have hne : j ≠ i := by
      rintro rfl
      exact hj ⟨stage', rfl⟩
    rw [Pool.run_of_ne (by simpa using hne)] at hq
    rw [hcalls]
    refine h.past j q hq ?_
    rintro ⟨_, heq⟩
    cases heq
    exact hne rfl
  · rw [hcalls] at hq hq'
    exact h.alone j k q q' hq hq' hbusy hbusy'

omit [DecidableEq ι] in
/-- Before the new token is stored, the old one is stale. -/
lemma Valid.stale (h : Valid pool refresh) (hun : refresh.unstored = true) :
    pool.shared.Stale pool.world.now := by
  have hknows := h.knows
  cases refresh with
  | free => cases hun
  | testing j => cases hun
  | refreshing j stage =>
      cases stage with
      | pending => exact hknows.2
      | testing => exact hknows.2.1
      | requesting => exact hknows.2
      | answered token => exact hknows.2
      | stored => cases hun
      | finishing => cases hun
      | finished r => cases hun

omit [DecidableEq ι] in
/-- While no refresh is going on, or after it has stored its token, the token is the newest one. -/
lemma Valid.latest (h : Valid pool refresh) (hun : refresh.unstored = false) :
    pool.shared.token = pool.world.latest := by
  have hknows := h.knows
  cases refresh with
  | free => exact hknows
  | testing j => exact hknows
  | refreshing j stage =>
      cases stage with
      | stored => exact hknows.1
      | finishing => exact hknows.1
      | finished r => exact hknows.1
      | _ => cases hun

omit [DecidableEq ι] in
/-- While one call is busy, no other one is. -/
lemma Valid.not_busy (h : Valid pool refresh) {p : Program tokenSig (Option String)}
    (htask : pool.tasks (.call i) = some p) (hbusy : Busy p) (j : ι)
    (q : Program tokenSig (Option String)) (hj : j ≠ i) (hq : pool.tasks (.call j) = some q) :
    ¬ Busy q :=
  fun hbusy' => hj (h.alone j i q p hq htask hbusy' hbusy)

omit [DecidableEq ι] in
lemma Refresh.not_isOf_testing {j : ι} : ¬ (Refresh.testing i).IsOf j := by
  rintro ⟨_, heq⟩
  cases heq

/-- A call begins. -/
lemma Valid.callStart (h : Valid pool refresh) (hnew : pool.tasks (.call i) = none)
    (hloop : LoopFree pool) : Valid (pool.run (tokenPool allowed) (.call i) pool.world pool.shared
      (agetToken pool.shared)) refresh := by
  have hnot : ∀ r v, pool.tasks (.call i) ≠ some (.done r v) := by
    intro r v
    rw [hnew]
    nofun
  rw [agetToken_eq]
  split
  · have htoken : pool.shared.hasToken = true := ‹_›
    exact h.callStays hnot rfl
      (.reading _ (ServiceTokenManager.isSome_of_hasToken htoken) fun _ => htoken)
      (fun _ j q _ hq => hloop j q hq) nofun
  · exact h.callStays hnot rfl (.waiting _) (fun _ j q _ hq => hloop j q hq) nofun

/-- A call that has tested the token without the lock. -/
lemma Valid.callTested (h : Valid pool refresh) {s : ServiceTokenManager}
    (htask : pool.tasks (.call i) = some (.await .clock s tested))
    (hsome : pool.shared.token.isSome = true)
    (htoken : refresh.unstored = true → pool.shared.hasToken = true) :
    Valid (pool.run (tokenPool allowed) (.call i) pool.world pool.shared
      (tested (.ok pool.world.now) pool.shared)) refresh := by
  have hnot := Pool.ne_done_of_await htask
  have halone := h.not_busy htask (.inl rfl)
  simp only [tested]
  split
  · have hfresh : pool.world.now < pool.shared.expiresAt - 30 := ‹_›
    refine h.callStays hnot rfl (.returning _ hsome ?_) (fun _ => halone) nofun
    by_contra hun
    have hun' : refresh.unstored = true := by simpa using hun
    exact absurd hfresh (not_lt.mpr (h.stale hun' (htoken hun')))
  · exact h.callStays hnot rfl (.waiting _) (fun _ => halone) nofun

/-- A call that has tested the token with the lock. -/
lemma Valid.callTestedLocked (h : Valid pool (.testing i)) {s : ServiceTokenManager}
    (htask : pool.tasks (.call i) = some (.await .clock s testedLocked))
    (htoken : pool.shared.hasToken = true) :
    ∃ refresh, Valid (pool.run (tokenPool allowed) (.call i) pool.world pool.shared
      (testedLocked (.ok pool.world.now) pool.shared)) refresh := by
  have hnot := Pool.ne_done_of_await htask
  have halone := h.not_busy htask (.inl rfl)
  have hnone : ∀ j, ¬ (Refresh.testing i).IsOf j := fun _ => Refresh.not_isOf_testing
  simp only [testedLocked]
  split
  · exact ⟨.testing i, h.callLocks hnot halone hnone rfl h.locked (.inr (.inl rfl)) rfl
      (.sure _ rfl (ServiceTokenManager.isSome_of_hasToken htoken)) nofun⟩
  · have hstale : ¬ pool.world.now < pool.shared.expiresAt - 30 := ‹_›
    exact ⟨.refreshing i .pending, h.callLocks hnot halone hnone rfl h.locked
      (.inr (.inr ⟨rfl, fun _ => not_lt.mp hstale⟩)) rfl (.joining _ ⟨_, rfl⟩) nofun⟩

/-- A call that has got the lock. -/
lemma Valid.callAcquired (h : Valid pool refresh) {s : ServiceTokenManager}
    (htask : pool.tasks (.call i) = some (.await .acquire s acquired)) (hloop : LoopFree pool)
    (hfree : pool.shared.locked = false) :
    ∃ refresh, Valid (pool.run (tokenPool allowed) (.call i) pool.world
      { pool.shared with locked := true }
      (acquired (.ok ()) { pool.shared with locked := true })) refresh := by
  have hnot := Pool.ne_done_of_await htask
  have hnone : ∀ j, ¬ refresh.IsOf j := by
    rintro j ⟨stage, rfl⟩
    have hlocked := h.locked
    rw [hfree] at hlocked
    cases hlocked
  have halone : ∀ j q, j ≠ i → pool.tasks (.call j) = some q → ¬ Busy q := fun j q _ hq =>
    hloop j q hq
  simp only [acquired]
  split
  · have htoken : pool.shared.hasToken = true := ‹_›
    exact ⟨.testing i, h.callLocks hnot halone hnone rfl rfl (.inr (.inl rfl)) rfl
      (.testing _ rfl htoken) nofun⟩
  · have htoken : ¬ pool.shared.hasToken = true := ‹_›
    exact ⟨.refreshing i .pending, h.callLocks hnot halone hnone rfl rfl
      (.inr (.inr ⟨rfl, fun hhas => absurd hhas htoken⟩)) rfl (.joining _ ⟨_, rfl⟩) nofun⟩

/-- A call that has found a fresh token with the lock returns it. -/
lemma Valid.callReturns (h : Valid pool (.testing i)) {s : ServiceTokenManager}
    (htask : pool.tasks (.call i) = some (.await .switch s returnsLocked))
    (hsome : pool.shared.token.isSome = true) :
    Valid (pool.run (tokenPool allowed) (.call i) pool.world pool.shared
      (returnsLocked (.ok ()) pool.shared)) .free := by
  have hnot := Pool.ne_done_of_await htask
  have halone := h.not_busy htask (.inr rfl)
  have hnone : ∀ j, ¬ (Refresh.testing i).IsOf j := fun _ => Refresh.not_isOf_testing
  refine h.callLocks hnot halone hnone rfl rfl (.inl rfl) rfl (.ended _ _) ?_
  rintro token v' ⟨⟩
  exact ⟨h.latest rfl, hsome⟩

/-- A call joins its thread, or is cancelled when that has ended. -/
lemma Valid.callJoins (h : Valid pool refresh) {s : ServiceTokenManager}
    (htask : pool.tasks (.call i) = some (.await .toThread s joins)) (hof : refresh.IsOf i)
    (hloop : LoopFree pool) {r : Except Raised (Option String)}
    (hr : r = .error .cancelled ∨ ∃ s', pool.tasks (.thread i) = some (.done r s'))
    (hended : r = .error .cancelled → ∀ p, pool.tasks (.thread i) = some p → ∃ r s, p = .done r s) :
    Valid (pool.run (tokenPool allowed) (.call i) pool.world pool.shared (joins r pool.shared))
      .free := by
  obtain ⟨stage, rfl⟩ := hof
  have hnot := Pool.ne_done_of_await htask
  have hruns := h.thread i stage rfl
  have hthread : ∀ p, pool.tasks (.thread i) = some p → ∃ r s, p = .done r s := by
    rcases hr with rfl | ⟨s', hr⟩
    · exact hended rfl
    · intro p hp
      rw [hr] at hp
      cases hp
      exact ⟨r, s', rfl⟩
  have hstored : pool.shared.token = pool.world.latest
      ∧ ∀ token, r = .ok token → token = pool.world.latest ∧ token.isSome = true := by
    have hknows := h.knows
    generalize hq : pool.tasks (.thread i) = q at hruns hr
    cases hruns with
    | pending =>
        refine ⟨hknows.1, fun token htoken => ?_⟩
        rcases hr with rfl | ⟨s', hr⟩
        · cases htoken
        · cases hr
    | finished r' v' =>
        refine ⟨hknows.1, fun token htoken => ?_⟩
        rcases hr with rfl | ⟨s', hr⟩
        · cases htoken
        · cases hr
          obtain ⟨heq, hsome⟩ := hknows.2 token htoken
          exact ⟨heq.trans hknows.1, hsome⟩
    | _ =>
        obtain ⟨_, _, heq⟩ := hthread _ hq
        cases heq
  refine h.runCall hnot rfl hstored.1 (.ended _ _) (fun j q hj hq => ?_) (fun hbusy => ?_) nofun
    (fun j q hq hofj _ => ?_) h.returned ?_
  · refine (h.calls j q hq).idle (hloop j q hq) ?_
    rintro ⟨_, heq⟩
    cases heq
    exact absurd rfl hj
  · rcases hbusy with hbusy | hbusy <;> cases hbusy
  · obtain ⟨_, heq⟩ := hofj
    cases heq
    exact ⟨hthread q hq, rfl, _, _, rfl⟩
  · rintro token v' ⟨⟩
    exact hstored.2 token rfl

/-! ### Threads -/

/-- A thread begins. -/
lemma Valid.threadStart (h : Valid pool refresh) (hnew : pool.tasks (.thread i) = none)
    (hcall : (pool.tasks (.call i)).bind Program.command? = some .toThread) :
    ∃ refresh, Valid (pool.run (tokenPool allowed) (.thread i) pool.world pool.shared
      (getToken pool.shared)) refresh := by
  obtain ⟨q, hq, hc⟩ := Option.bind_eq_some_iff.mp hcall
  have hof : refresh.IsOf i := by
    cases h.calls i q hq with
    | joining v' hof => exact hof
    | _ => cases hc
  obtain ⟨stage, rfl⟩ := hof
  have hruns := h.thread i stage rfl
  rw [hnew] at hruns
  cases hruns with
  | pending =>
      have hknows := h.knows
      rw [getToken_eq]
      split
      · have htoken : pool.shared.hasToken = true := ‹_›
        exact ⟨.refreshing i .testing, h.runThread h.locked ⟨hknows.1, hknows.2, htoken⟩
          (.testing _) (fun _ => ⟨rfl, rfl⟩) id h.returned nofun⟩
      · exact ⟨.refreshing i .requesting, h.runThread h.locked hknows (.requesting _)
          (fun _ => ⟨rfl, rfl⟩) id h.returned nofun⟩

/-- A thread goes on. -/
lemma Valid.threadResume (h : Valid pool refresh) {c : TokenCommand} {s : ServiceTokenManager}
    {k : Except Raised c.Answer → ServiceTokenManager → Program tokenSig (Option String)}
    {r : Except Raised c.Answer} (htask : pool.tasks (.thread i) = some (.await c s k))
    (hanswer : (tokenPool allowed).answers pool (.thread i) c r w v) :
    ∃ refresh, Valid (pool.run (tokenPool allowed) (.thread i) w v (k r v)) refresh := by
  have hof : refresh.IsOf i := by
    by_contra hof
    obtain ⟨⟨r', s', hdone⟩, -⟩ := h.past i _ htask hof
    cases hdone
  obtain ⟨stage, rfl⟩ := hof
  have hruns := h.thread i stage rfl
  have hknows := h.knows
  rw [htask] at hruns
  cases hruns with
  | testing =>
      obtain ⟨-, rfl, rfl, rfl⟩ := hanswer
      obtain ⟨hlatest, hstale, htoken⟩ := hknows
      simp only [testedThread, if_neg (not_lt.mpr (hstale htoken))]
      exact ⟨.refreshing i .requesting, h.runThread h.locked ⟨hlatest, hstale⟩ (.requesting _)
        (fun _ => ⟨rfl, rfl⟩) id h.returned nofun⟩
  | requesting =>
      obtain ⟨-, -, rfl, rfl⟩ := hanswer
      cases r with
      | error e =>
          exact ⟨.refreshing i (.finished (.error e)), h.runThread h.locked ⟨hknows.1, nofun⟩
            (.finished _ _) nofun id h.returned nofun⟩
      | ok data =>
          obtain ⟨accessToken, expiresIn⟩ := data
          cases accessToken with
          | none =>
              exact ⟨.refreshing i (.finished (.error (missingKey "access_token"))),
                h.runThread h.locked ⟨hknows.1, nofun⟩ (.finished _ _) nofun id h.returned nofun⟩
          | some token =>
              exact ⟨.refreshing i (.answered token), h.runThread h.locked ⟨rfl, hknows.2⟩
                (.answered token _ _) (fun _ => ⟨rfl, rfl⟩) id h.returned nofun⟩
  | answered token data =>
      obtain ⟨-, rfl, rfl, rfl⟩ := hanswer
      exact ⟨.refreshing i .stored, h.runThread h.locked ⟨hknows.1.symm, rfl⟩ (.stored data _) nofun
        (fun _ => rfl) h.returned nofun⟩
  | stored data =>
      obtain ⟨-, rfl, rfl, rfl⟩ := hanswer
      obtain ⟨accessToken, expiresIn⟩ := data
      cases expiresIn with
      | none =>
          exact ⟨.refreshing i (.finished (.error (missingKey "expires_in"))),
            h.runThread h.locked ⟨hknows.1, nofun⟩ (.finished _ _) nofun id h.returned nofun⟩
      | some expiresIn =>
          exact ⟨.refreshing i .finishing, h.runThread h.locked hknows (.finishing _) nofun id
            h.returned nofun⟩
  | finishing =>
      obtain ⟨-, rfl, rfl, rfl⟩ := hanswer
      refine ⟨.refreshing i (.finished (.ok pool.shared.token)), h.runThread h.locked
        ⟨hknows.1, ?_⟩ (.finished _ _) nofun id h.returned ?_⟩
      · rintro token ⟨⟩
        exact ⟨rfl, hknows.2⟩
      · rintro token v' ⟨⟩
        exact hknows

/-- A call goes on. -/
lemma Valid.callResume (h : Valid pool refresh) {c : TokenCommand} {s : ServiceTokenManager}
    {k : Except Raised c.Answer → ServiceTokenManager → Program tokenSig (Option String)}
    {r : Except Raised c.Answer} (htask : pool.tasks (.call i) = some (.await c s k))
    (hanswer : (tokenPool JoinsThread).answers pool (.call i) c r w v) :
    ∃ refresh, Valid (pool.run (tokenPool JoinsThread) (.call i) w v (k r v)) refresh := by
  have hnot := Pool.ne_done_of_await htask
  cases h.calls i _ htask with
  | reading _ hsome htoken =>
      obtain ⟨-, rfl, rfl, rfl⟩ := hanswer
      exact ⟨refresh, h.callTested htask hsome htoken⟩
  | returning _ hsome hstored =>
      obtain ⟨-, rfl, rfl, rfl⟩ := hanswer
      refine ⟨refresh, h.callStays hnot rfl (.ended _ _) (fun hbusy => ?_) ?_⟩
      · rcases hbusy with hbusy | hbusy <;> cases hbusy
      · rintro token v' ⟨⟩
        exact ⟨h.latest hstored, hsome⟩
  | waiting =>
      obtain ⟨-, hloop, rfl, ⟨rfl, rfl⟩ | ⟨rfl, hfree, rfl⟩⟩ := hanswer
      · refine ⟨refresh, h.callStays hnot rfl (.ended _ _) (fun hbusy => ?_) nofun⟩
        rcases hbusy with hbusy | hbusy <;> cases hbusy
      · exact h.callAcquired htask hloop hfree
  | testing _ hrefresh htoken =>
      obtain ⟨-, rfl, rfl, rfl⟩ := hanswer
      subst hrefresh
      exact h.callTestedLocked htask htoken
  | sure _ hrefresh hsome =>
      obtain ⟨-, rfl, rfl, rfl⟩ := hanswer
      subst hrefresh
      exact ⟨.free, h.callReturns htask hsome⟩
  | joining _ hof =>
      obtain ⟨hjoins, hloop, rfl, rfl, hr⟩ := hanswer
      refine ⟨.free, h.callJoins htask hof hloop ?_ ?_⟩
      · rcases hr with rfl | ⟨j, s', hwho, hdone⟩
        · exact .inl rfl
        · cases hwho
          exact .inr ⟨s', hdone⟩
      · rintro rfl
        exact hjoins

/-- **A step keeps the invariant.** -/
lemma Valid.step {pool' : TokenPool ι} (h : Valid pool refresh)
    (hstep : (tokenPool JoinsThread).Step pool pool') : ∃ refresh, Valid pool' refresh := by
  cases hstep with
  | start who x hnew hx =>
      cases who with
      | call i =>
          obtain ⟨rfl, hloop⟩ := hx
          exact ⟨refresh, h.callStart hnew hloop⟩
      | thread i =>
          obtain ⟨rfl, hcall⟩ := hx
          exact h.threadStart hnew hcall
  | resume who c s k r w v' htask hanswer =>
      cases who with
      | call i => exact h.callResume htask hanswer
      | thread i => exact h.threadResume htask hanswer
  | idle w hw =>
      obtain ⟨now, hnow, rfl⟩ := hw
      refine ⟨refresh, h.locked, ?_, h.calls, h.thread, h.past, h.alone, h.returned⟩
      have hknows := h.knows
      cases refresh with
      | free => exact hknows
      | testing j => exact hknows
      | refreshing j stage =>
          cases stage with
          | pending => exact ⟨hknows.1, hknows.2.mono hnow⟩
          | testing => exact ⟨hknows.1, hknows.2.1.mono hnow, hknows.2.2⟩
          | requesting => exact ⟨hknows.1, hknows.2.mono hnow⟩
          | answered token => exact ⟨hknows.1, hknows.2.mono hnow⟩
          | stored => exact hknows
          | finishing => exact hknows
          | finished r => exact hknows

/-- The invariant holds in every reachable pool. -/
theorem valid_of_reachable {now : ℚ}
    (h : (tokenPool JoinsThread).Reachable ⟨now, none, []⟩ .init pool) :
    ∃ refresh, Valid pool refresh := by
  induction h with
  | init =>
      refine ⟨.free, rfl, rfl, nofun, nofun, nofun, nofun, ?_⟩
      intro x hx
      cases hx
  | step _ hstep ih =>
      obtain ⟨refresh, h⟩ := ih
      exact h.step hstep

omit [DecidableEq ι] in
/-- Who waits for Keycloak is the thread of the refresh. -/
lemma Valid.requests (h : Valid pool refresh) {who : Who ι} {p : Program tokenSig (Option String)}
    (htask : pool.tasks who = some p) (hp : p.command? = some .request) :
    ∃ i, who = .thread i ∧ refresh.IsOf i := by
  cases who with
  | call i => cases h.calls i p htask <;> cases hp
  | thread i =>
      refine ⟨i, rfl, ?_⟩
      by_contra hof
      obtain ⟨⟨r, v, rfl⟩, -⟩ := h.past i p htask hof
      cases hp

/-- **One refresh at a time.**  As long as no call is cancelled while its thread is running, at most
one request to Keycloak is in flight, and every token that is returned is the one of the newest
request that succeeded. -/
theorem token_single_flight {now : ℚ}
    (h : (tokenPool JoinsThread).Reachable ⟨now, none, []⟩ .init pool) :
    (∀ who who' p q, pool.tasks who = some p → pool.tasks who' = some q →
        p.command? = some .request → q.command? = some .request → who = who')
      ∧ ∀ x ∈ pool.world.returned, x.1 = x.2 ∧ x.1.isSome = true := by
  obtain ⟨refresh, hvalid⟩ := valid_of_reachable h
  refine ⟨fun who who' p q hp hq hrequest hrequest' => ?_, hvalid.returned⟩
  obtain ⟨i, rfl, stage, rfl⟩ := hvalid.requests hp hrequest
  obtain ⟨j, rfl, stage', heq⟩ := hvalid.requests hq hrequest'
  cases heq
  rfl

end Steps

/-! ## Two calls -/

section Runs

variable {ι : Type} [DecidableEq ι]
  {allowed : TokenPool ι → Who ι → (c : TokenCommand) → Except Raised c.Answer → Prop}
  {pool : TokenPool ι} {i : ι} {w w₀ : Refreshes} {v v₀ : ServiceTokenManager}
  {p : Program tokenSig (Option String)}

lemma LoopFree.runCall (h : LoopFree pool) (hp : ¬ Busy p) :
    LoopFree (pool.run (tokenPool allowed) (.call i) w v p) := by
  intro j q hq
  rcases Pool.run_tasks hq with ⟨-, rfl⟩ | ⟨-, hq⟩
  · exact hp
  · exact h j q hq

lemma LoopFree.runThread (h : LoopFree pool) :
    LoopFree (pool.run (tokenPool allowed) (.thread i) w v p) := by
  intro j q hq
  rcases Pool.run_tasks hq with ⟨heq, -⟩ | ⟨-, hq⟩
  · cases heq
  · exact h j q hq

lemma reachable_goesOn (h : (tokenPool allowed).Reachable w₀ v₀ pool) (who : Who ι)
    (c : TokenCommand) (r : Except Raised c.Answer) (w : Refreshes) (v : ServiceTokenManager)
    {s : ServiceTokenManager}
    {k : Except Raised c.Answer → ServiceTokenManager → Program tokenSig (Option String)}
    (htask : pool.tasks who = some (.await c s k))
    (hanswer : (tokenPool allowed).answers pool who c r w v) :
    (tokenPool allowed).Reachable w₀ v₀ (pool.run (tokenPool allowed) who w v (k r v)) :=
  h.step (.resume pool who c s k r w v htask hanswer)

/-- A new call, without a token and with the lock free, comes to the request of its thread. -/
lemma refresh_begins (h : (tokenPool allowed).Reachable w₀ v₀ pool) (hloop : LoopFree pool)
    (hcall : pool.tasks (.call i) = none) (hthread : pool.tasks (.thread i) = none)
    (htoken : pool.shared.hasToken = false) (hfree : pool.shared.locked = false)
    (hallowed : ∀ pool, allowed pool (.call i) .acquire (.ok ())) :
    ∃ pool', (tokenPool allowed).Reachable w₀ v₀ pool' ∧ LoopFree pool'
      ∧ pool'.shared = { pool.shared with locked := true } ∧ pool'.world = pool.world
      ∧ (∃ s, pool'.tasks (.call i) = some (.await .toThread s joins))
      ∧ (∃ s, pool'.tasks (.thread i) = some (.await .request s requested))
      ∧ ∀ j, j ≠ i → pool'.tasks (.call j) = pool.tasks (.call j)
        ∧ pool'.tasks (.thread j) = pool.tasks (.thread j) := by
  have hnot : ¬ pool.shared.hasToken = true := by simp [htoken]
  let locked : ServiceTokenManager := { pool.shared with locked := true }
  have hnot' : ¬ locked.hasToken = true := hnot
  have hne : Who.thread i ≠ Who.call i := by simp
  -- the call begins
  let pool₁ := pool.run (tokenPool allowed) (.call i) pool.world pool.shared
    (.await .acquire pool.shared acquired)
  have h₁ : (tokenPool allowed).Reachable w₀ v₀ pool₁ := by
    have hstart := h.step (.start pool (.call i) agetToken hcall ⟨rfl, hloop⟩)
    rw [agetToken_eq, if_neg hnot] at hstart
    exact hstart
  have hloop₁ : LoopFree pool₁ := hloop.runCall (by rintro (hbusy | hbusy) <;> cases hbusy)
  -- it gets the lock
  let pool₂ := pool₁.run (tokenPool allowed) (.call i) pool.world locked
    (.await .toThread locked joins)
  have h₂ : (tokenPool allowed).Reachable w₀ v₀ pool₂ := by
    have hlock := reachable_goesOn h₁ (.call i) .acquire (.ok ()) pool.world locked Pool.run_self
      ⟨hallowed _, hloop₁, rfl, .inr ⟨rfl, hfree, rfl⟩⟩
    rw [show acquired (.ok ()) locked = .await .toThread locked joins from if_neg hnot'] at hlock
    exact hlock
  have hloop₂ : LoopFree pool₂ := hloop₁.runCall (by rintro (hbusy | hbusy) <;> cases hbusy)
  -- its thread begins
  let pool₃ := pool₂.run (tokenPool allowed) (.thread i) pool.world locked
    (.await .request locked requested)
  have hnone : pool₂.tasks (.thread i) = none := by
    rw [Pool.run_of_ne hne, Pool.run_of_ne hne]
    exact hthread
  have h₃ : (tokenPool allowed).Reachable w₀ v₀ pool₃ := by
    have hstart := h₂.step (.start pool₂ (.thread i) getToken hnone
      (show _ ∧ _ from ⟨rfl, by rw [Pool.run_self]; rfl⟩))
    rw [show getToken pool₂.shared = .await .request locked requested from
      (getToken_eq locked).trans (if_neg hnot')] at hstart
    exact hstart
  refine ⟨pool₃, h₃, hloop₂.runThread, rfl, rfl, ⟨locked, ?_⟩, ⟨locked, Pool.run_self⟩,
    fun j hj => ⟨?_, ?_⟩⟩
  · rw [Pool.run_of_ne hne.symm]
    exact Pool.run_self
  · rw [Pool.run_of_ne (by simp), Pool.run_of_ne (by simpa using hj),
      Pool.run_of_ne (by simpa using hj)]
  · rw [Pool.run_of_ne (by simpa using hj), Pool.run_of_ne (by simp), Pool.run_of_ne (by simp)]

end Runs

/-- An answer of Keycloak. -/
def tokenAnswer : TokenData := ⟨some "token-1", some 300⟩

/-- A pool without tasks. -/
def noCalls : TokenPool Bool := ⟨⟨0, none, []⟩, .init, fun _ => none⟩

/-- A refresh that succeeds: the thread returns its token, and the call after it. -/
theorem token_single_flight_refresh : ∃ pool : TokenPool Bool,
    (tokenPool JoinsThread).Reachable ⟨0, none, []⟩ .init pool
      ∧ pool.world.returned = List.replicate 2 (some "token-1", some "token-1")
      ∧ ∀ x ∈ pool.world.returned, x.1 = x.2 ∧ x.1.isSome = true := by
  have h₀ : (tokenPool JoinsThread).Reachable ⟨0, none, []⟩ .init noCalls := .init
  obtain ⟨pool, h, hloop, hshared, hworld, ⟨s, hcall⟩, ⟨s', hthread⟩, -⟩ :=
    refresh_begins h₀ nofun (i := false) rfl rfl rfl rfl fun _ => trivial
  have h₁ := reachable_goesOn h (.thread false) .request (.ok tokenAnswer)
    ⟨0, some "token-1", []⟩ ⟨none, 0, true⟩ hthread
    ⟨trivial, nofun, hshared.symm, by rw [hworld]; rfl⟩
  have h₂ := reachable_goesOn h₁ (.thread false) .switch (.ok ()) ⟨0, some "token-1", []⟩
    ⟨none, 0, true⟩ Pool.run_self ⟨trivial, rfl, rfl, rfl⟩
  have h₃ := reachable_goesOn h₂ (.thread false) .clock (.ok 0) ⟨0, some "token-1", []⟩
    ⟨some "token-1", 0, true⟩ Pool.run_self ⟨trivial, rfl, rfl, rfl⟩
  have h₄ := reachable_goesOn h₃ (.thread false) .switch (.ok ()) ⟨0, some "token-1", []⟩
    ⟨some "token-1", 0 + 300, true⟩ Pool.run_self ⟨trivial, rfl, rfl, rfl⟩
  have hne : Who.call false ≠ Who.thread false := by simp
  have h₅ := reachable_goesOn h₄ (.call false) .toThread (.ok (some "token-1"))
    ⟨0, some "token-1", [(some "token-1", some "token-1")]⟩ ⟨some "token-1", 0 + 300, true⟩
    (by rw [Pool.run_of_ne hne, Pool.run_of_ne hne, Pool.run_of_ne hne, Pool.run_of_ne hne]
        exact hcall)
    ⟨trivial, hloop.runThread.runThread.runThread.runThread, rfl, rfl,
      .inr ⟨false, _, rfl, Pool.run_self⟩⟩
  exact ⟨_, h₅, rfl, (token_single_flight h₅).2⟩

/-- **A call is cancelled while its thread is running**: it gives the lock back, and the next call
sends a second request. -/
theorem two_requests : ∃ pool : TokenPool Bool,
    (tokenPool fun _ _ _ _ => True).Reachable ⟨0, none, []⟩ .init pool
      ∧ ∃ p q, pool.tasks (.thread false) = some p ∧ pool.tasks (.thread true) = some q
        ∧ p.command? = some .request ∧ q.command? = some .request := by
  have h₀ : (tokenPool fun _ _ _ _ => True).Reachable ⟨0, none, []⟩ .init noCalls := .init
  obtain ⟨pool, h, hloop, hshared, hworld, ⟨s, hcall⟩, ⟨s', hthread⟩, hothers⟩ :=
    refresh_begins h₀ nofun (i := false) rfl rfl rfl rfl fun _ => trivial
  have hcancelled := reachable_goesOn h (.call false) .toThread (.error .cancelled) pool.world
    pool.shared hcall ⟨trivial, hloop, rfl, rfl, .inl rfl⟩
  have hloop' : LoopFree (pool.run (tokenPool fun _ _ _ _ => True) (.call false) pool.world
      pool.shared (joins (.error .cancelled) pool.shared)) :=
    hloop.runCall (by rintro (hbusy | hbusy) <;> cases hbusy)
  obtain ⟨hcall', hthread'⟩ := hothers true (by decide)
  obtain ⟨pool', h', -, -, -, -, ⟨s'', hthread''⟩, hothers'⟩ :=
    refresh_begins hcancelled hloop' (i := true)
      (by rw [Pool.run_of_ne (by decide), hcall']; rfl)
      (by rw [Pool.run_of_ne (by decide), hthread']; rfl)
      (by rw [Pool.run]; simp [joins, hshared]; rfl) rfl fun _ => trivial
  refine ⟨pool', h', .await .request s' requested, .await .request s'' requested, ?_, hthread'',
    rfl, rfl⟩
  rw [(hothers' false (by decide)).2, Pool.run_of_ne (by decide)]
  exact hthread

end Atsig
