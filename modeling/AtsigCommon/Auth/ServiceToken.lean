import AtsigCommon.Auth.SingleFlight

/-!
# `ServiceTokenManager`

One token for all calls of a service.  `aget_token` runs on the event loop and gives the refresh to
a worker thread, which runs `get_token`; a call that is cancelled while it waits for its thread
leaves the lock at once, and the thread goes on.

* `agetToken`, `getToken` — the two entry points.  `switch` stands where the interpreter may run
  another thread between two accesses to the shared attributes.
* `tokenPool` — calls and threads over one manager.  The calls share the thread of the event loop:
  while one of them is between two of its awaits, only worker threads run.
-/

namespace Atsig

open Coroutine Python

/-! ## The manager -/

/-- The attributes that change. -/
structure ServiceTokenManager where
  token : Option String
  expiresAt : ℚ
  locked : Bool

/-- The object after `__init__`. -/
def ServiceTokenManager.init : ServiceTokenManager := ⟨none, 0, false⟩

/-- `bool(self._token)` -/
def ServiceTokenManager.hasToken (self : ServiceTokenManager) : Bool :=
  self.token.any fun token => token ≠ ""

lemma ServiceTokenManager.isSome_of_hasToken {v : ServiceTokenManager} (h : v.hasToken = true) :
    v.token.isSome = true := by
  rw [ServiceTokenManager.hasToken] at h
  cases htoken : v.token with
  | none =>
      rw [htoken] at h
      cases h
  | some token => rfl

/-- What Keycloak answers, as far as it is read; a key can be missing. -/
structure TokenData where
  accessToken : Option String
  expiresIn : Option ℚ

/-- What a task waits for: the time, its turn among the threads, the lock, its worker thread, and the
answer of Keycloak. -/
inductive TokenCommand
  | clock
  | switch
  | acquire
  | toThread
  | request

/-- What each command answers. -/
@[reducible] def TokenCommand.Answer : TokenCommand → Type
  | .clock => ℚ
  | .switch | .acquire => Unit
  | .toThread => Option String
  | .request => TokenData

abbrev tokenSig : Signature := ⟨ServiceTokenManager, TokenCommand, TokenCommand.Answer, Raised⟩

/-- Code of the manager. -/
abbrev Tokens (α : Type) := Co tokenSig α

/-- `token_data[key]`, when the key is missing. -/
def missingKey (key : String) : Raised := .exception ⟨.other, "KeyError", "'" ++ key ++ "'"⟩

/-- The next thread, the time, and the answers of the others. -/
def need (c : TokenCommand) : Tokens c.Answer := Co.call (S := tokenSig) c

/-- `async with self._refresh_lock` -/
def withRefreshLock {α : Type} (body : Tokens α) : Tokens α := do
  need .acquire
  body.finally_ fun self => { self with locked := false }

/-- `_is_fresh` -/
def isFresh : Tokens Bool := do
  if (← Co.get).hasToken then
    let now ← need .clock
    return now < (← Co.get).expiresAt - 30
  else return false

/-- `return self._token` -/
def returnToken : Tokens (Option String) := do
  need .switch
  return (← Co.get).token

/-- What `get_token` does when the token is not fresh. -/
def requestToken : Tokens (Option String) := do
  let tokenData ← need .request
  match tokenData.accessToken with
  | none => .raise (missingKey "access_token")
  | some accessToken => do
      need .switch
      .modify fun self => { self with token := some accessToken }
      let now ← need .clock
      match tokenData.expiresIn with
      | none => .raise (missingKey "expires_in")
      | some expiresIn => do
          .modify fun self => { self with expiresAt := now + expiresIn }
          returnToken

/-- `get_token` -/
def getToken : Tokens (Option String) := do
  if ← isFresh then returnToken else requestToken

/-- `aget_token` -/
def agetToken : Tokens (Option String) := do
  if ← isFresh then returnToken
  else
    withRefreshLock do
      if ← isFresh then returnToken else need .toThread

/-! ## Calls and threads -/

/-- The time, the token of the newest request that succeeded, and what was returned so far, each
time with that token. -/
structure Refreshes where
  now : ℚ
  latest : Option String
  returned : List (Option String × Option String)

/-- Calls of `aget_token` and their threads over one manager. -/
abbrev TokenPool (ι : Type) := Pool tokenSig Refreshes (Who ι) (Option String)

/-- The task is in the middle of its code: nothing but another thread can run now. -/
def Busy (p : Program tokenSig (Option String)) : Prop :=
  p.command? = some .clock ∨ p.command? = some .switch

/-- The thread of the event loop is between two calls. -/
def LoopFree {ι : Type} (pool : TokenPool ι) : Prop :=
  ∀ i p, pool.tasks (.call i) = some p → ¬ Busy p

/-- The token that a request has brought. -/
def broughtToken : Except Raised TokenData → Option String
  | .ok data => data.accessToken
  | .error _ => none

section Schedule

variable {ι : Type} [DecidableEq ι]

/-- The calls and the threads.  A call is cancelled at an await only; a thread that has not begun
when its call is cancelled never begins; the clock does not go back. -/
def tokenPool (allowed : TokenPool ι → Who ι → (c : TokenCommand) → Except Raised c.Answer → Prop) :
    Scheduler tokenSig Refreshes (Who ι) (Option String) where
  starts pool who x :=
    match who with
    | .call _ => x = agetToken ∧ LoopFree pool
    | .thread i => x = getToken
        ∧ (pool.tasks (.call i)).bind Program.command? = some .toThread
  answers pool who c r w v :=
    allowed pool who c r ∧
      match c with
      | .clock => r = .ok pool.world.now ∧ v = pool.shared ∧ w = pool.world
      | .switch => r = .ok () ∧ v = pool.shared ∧ w = pool.world
      | .acquire => LoopFree pool ∧ w = pool.world
          ∧ (r = .error .cancelled ∧ v = pool.shared
            ∨ r = .ok () ∧ pool.shared.locked = false ∧ v = { pool.shared with locked := true })
      | .toThread => LoopFree pool ∧ w = pool.world ∧ v = pool.shared
          ∧ (r = .error .cancelled
            ∨ ∃ i s, who = .call i ∧ pool.tasks (.thread i) = some (.done r s))
      | .request => r ≠ .error .cancelled ∧ v = pool.shared
          ∧ w = { pool.world with latest := (broughtToken r).or pool.world.latest }
  idles w w' := ∃ now, w.now ≤ now ∧ w' = { w with now := now }
  notes w _ p :=
    match p with
    | .done (.ok token) _ => { w with returned := (token, w.latest) :: w.returned }
    | _ => w

/-- **The condition**: a call is not cancelled while its thread is running. -/
def JoinsThread (pool : TokenPool ι) : (who : Who ι) → (c : TokenCommand) → Except Raised c.Answer →
    Prop
  | .call i, .toThread, .error .cancelled =>
      ∀ p, pool.tasks (.thread i) = some p → ∃ r s, p = .done r s
  | _, _, _ => True

end Schedule

end Atsig
