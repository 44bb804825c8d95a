import AtsigCommon.Coroutine.Contract
import AtsigCommon.Logger.Context
import AtsigCommon.Python.Values
import Mathlib.Algebra.Order.Field.Rat

/-!
# `TokenVerifier`

The functions of `atsig_common.auth.decode`, as the source writes them.  They are coroutines over
what they wait for, or what others may come in between of: the readings of the clock, the lock,
the request for the keys (`certs`), the verification of a token, and `asyncio.to_thread`.  The
fields of the verifier are the shared state.

`jwcrypto` is the class `Jose`: how it reads the header of a token, builds a key set and looks a
key up.  Whether a token is valid also depends on the time, so its verification is a command.
-/

namespace Atsig

open Coroutine Python

/-! ## Data -/

/-- What the code uses of `jwcrypto`, and what Keycloak's `certs()` returns. -/
class Jose where
  Token : Type
  Certs : Type
  KeySet : Type
  Key : Type
  /-- `jwt.JWT(jwt=token).token.jose_header.get("kid")` -/
  kidOf : Token → Except PyException Json
  /-- `jwk.JWKSet.from_json(json.dumps(certs))` -/
  fromJson : Certs → Except PyException KeySet
  /-- `keys.get_key(kid)`, which fails when two keys have the id -/
  getKey : KeySet → Json → Except PyException (Option Key)

/-- `ALLOWED_ALGORITHMS` -/
def allowedAlgorithms : List String :=
  ["RS256", "RS384", "RS512", "PS256", "PS384", "PS512", "ES256", "ES384", "ES512"]

/-- The arguments of `TokenVerifier`, with their defaults, and whether the Keycloak client has a
`certs` method. -/
structure VerifierConfig where
  ttl : ℚ := 600
  minRefreshInterval : ℚ := 30
  leeway : ℤ := 60
  issuer : Option String := none
  audience : Option String := none
  hasCerts : Bool := true

/-- The exceptions of the module, and those of the libraries. -/
inductive AuthError
  | httpException (statusCode : ℕ) (detail : String) (headers : List (String × String))
  | serviceUnavailableError (message : String)
  | other (e : PyException)

/-- `type(e).__name__` -/
def AuthError.typeName : AuthError → String
  | .httpException .. => "HTTPException"
  | .serviceUnavailableError _ => "ServiceUnavailableError"
  | .other e => e.typeName

/-- What can be raised: a cancellation is no `Exception`. -/
inductive AuthRaised
  | cancelled
  | exception (e : AuthError)

/-- `_invalid()` -/
def invalid : AuthRaised :=
  .exception (.httpException 401 "Invalid authentication credentials"
    [("WWW-Authenticate", "Bearer")])

/-- The keys of the realm can not be fetched, and there are none to fall back on. -/
def unavailable : AuthRaised :=
  .exception (.serviceUnavailableError "The authentication service is not available.")

/-- Who fetches the keys. -/
inductive Fetcher
  | refresh
  | keysFor
  deriving DecidableEq

/-- Where the clock is read. -/
inductive Reading
  | needsRefresh
  | keysFor
  | fetch (fetcher : Fetcher)
  deriving DecidableEq

section Model

variable [Jose]

/-- What a task waits for. -/
inductive AuthCommand
  | clock (reading : Reading)
  | acquire
  | certs
  | validate (keys : Option Jose.KeySet) (token : Jose.Token) (algs : List String) (leeway : ℤ)
  | clientDecode (token : Jose.Token)
  | toThread

/-- What each command answers; `validate` and `decode_token` of a client answer the claims. -/
@[reducible] def AuthCommand.Answer : AuthCommand → Type
  | .clock _ => ℚ
  | .certs => Jose.Certs
  | .validate .. | .clientDecode _ => Json
  | .acquire | .toThread => Unit

/-- The fields of a verifier.  `lastAttempt` is `-inf` before the first attempt. -/
structure Verifier where
  keys : Option Jose.KeySet
  fetchedAt : ℚ
  lastAttempt : Option ℚ
  locked : Bool
  log : List (Level × String)

/-- A verifier after `__init__`. -/
def Verifier.init : Verifier := ⟨none, 0, none, false, []⟩

/-- The signature of the functions of the module. -/
abbrev authSig : Signature := ⟨Verifier, AuthCommand, AuthCommand.Answer, AuthRaised⟩

/-- A function of the module. -/
abbrev Auth (α : Type) := Co authSig α

/-! ## Calls -/

/-- Wait for a command of the module. -/
def ask (c : AuthCommand) : Auth c.Answer := Co.call (S := authSig) c

def readClock (reading : Reading) : Auth ℚ := ask (.clock reading)

/-- `self.keycloak_client.certs()` -/
def certs : Auth Jose.Certs := ask .certs

/-- `asyncio.to_thread(_refresh_if_needed, verifier)` -/
def toThread : Auth Unit := ask .toThread

/-- `except Exception as e` -/
def exceptError {α : Type} (x : Auth α) (handler : AuthError → Auth α) : Auth α :=
  x.protect fun
    | .exception e => handler e
    | .cancelled => .raise .cancelled

/-- `with self._lock` -/
def withLock {α : Type} (body : Auth α) : Auth α := do
  ask .acquire
  body.finally_ fun v => { v with locked := false }

/-- `logger.<level>(text)` -/
def writeAuthLog (level : Level) (text : String) : Auth Unit :=
  .modify fun v => { v with log := v.log ++ [(level, text)] }

/-! ## The keys -/

variable (cfg : VerifierConfig)

/-- `needs_refresh` -/
def needsRefresh : Auth Bool := do
  match (← Co.get).keys with
  | none => return true
  | some _ =>
      let now ← readClock .needsRefresh
      return decide (now - (← Co.get).fetchedAt > cfg.ttl)

/-- `_fetch_locked`, called by `fetcher`. -/
def fetchLocked (fetcher : Fetcher) : Auth Unit := do
  let now ← readClock (.fetch fetcher)
  .modify fun v => { v with lastAttempt := some now }
  exceptError
    (do
      match Jose.fromJson (← certs) with
      | .ok keys => .modify fun v => { v with keys := some keys, fetchedAt := now }
      | .error e => .raise (.exception (.other e)))
    fun e => do
      match (← Co.get).keys with
      | none =>
          writeAuthLog .error ("[Auth] The signing keys could not be fetched: " ++ e.typeName)
          .raise unavailable
      | some _ =>
          .modify fun v => { v with fetchedAt := now - cfg.ttl + cfg.minRefreshInterval }
          writeAuthLog .warning
            ("[Auth] Refreshing the signing keys failed (" ++ e.typeName
              ++ "), the cached keys stay in use.")

/-- `refresh` -/
def refresh : Auth Unit := withLock (fetchLocked cfg .refresh)

/-- `is_stale` -/
def Verifier.isStale (v : Verifier) (now : ℚ) : Bool :=
  v.keys.isNone || decide (now - v.fetchedAt > cfg.ttl)

/-- `is_unknown_key`; the key is looked up when `kid` is not empty and there are keys. -/
def Verifier.isUnknownKey (v : Verifier) (kid : Json) (now : ℚ) : Except PyException Bool :=
  match v.keys with
  | none => .ok false
  | some keys =>
      if kid.truthy then
        match Jose.getKey keys kid with
        | .error e => .error e
        | .ok (some _) => .ok false
        | .ok none => .ok (v.lastAttempt.all fun last => decide (now - last ≥ cfg.minRefreshInterval))
      else .ok false

/-- What an unknown key id is. -/
lemma Verifier.isUnknownKey_true {cfg : VerifierConfig} {v : Verifier} {kid : Json} {now : ℚ}
    (h : v.isUnknownKey cfg kid now = .ok true) :
    ∃ keys, v.keys = some keys ∧ kid.truthy ∧ Jose.getKey keys kid = .ok none ∧
      ∀ last, v.lastAttempt = some last → now - last ≥ cfg.minRefreshInterval := by
  cases hkeys : v.keys with
  | none =>
      rw [Verifier.isUnknownKey, hkeys] at h
      cases h
  | some keys =>
      simp only [Verifier.isUnknownKey, hkeys] at h
      split at h
      · rename_i hkid
        cases hkey : Jose.getKey keys kid with
        | error e =>
            rw [hkey] at h
            cases h
        | ok key =>
            cases key with
            | some key =>
                rw [hkey] at h
                cases h
            | none =>
                rw [hkey] at h
                refine ⟨keys, rfl, hkid, hkey, fun last hlast => ?_⟩
                rw [hlast] at h
                simpa using h
      · cases h

/-- `if is_stale or is_unknown_key: self._fetch_locked()` -/
def fetchIf (needed : Bool) : Auth Unit :=
  if needed then fetchLocked cfg .keysFor else return ()

/-- `_keys_for` -/
def keysFor (kid : Json) : Auth (Option Jose.KeySet) := withLock do
  let now ← readClock .keysFor
  let v ← Co.get
  match v.isUnknownKey cfg kid now with
  | .error e => .raise (.exception (.other e))
  | .ok isUnknownKey => do
      fetchIf cfg (v.isStale cfg now || isUnknownKey)
      return (← Co.get).keys

/-! ## Proof rules -/

section Rules

variable {G α : Type} {C : Contract authSig G} {φ : α → G → Verifier → Prop}
  {ψ : AuthRaised → G → Verifier → Prop}

/-- The rule of the await. -/
lemma ask_wp {c : AuthCommand} {φ : c.Answer → G → Verifier → Prop} {g : G} {v : Verifier}
    (hmay : C.may g v c) (hok : ∀ a g' v', C.env g v c (.ok a) g' v' → φ a g' v')
    (herr : ∀ e g' v', C.env g v c (.error e) g' v' → ψ e g' v') :
    (ask c).wp C φ ψ g v := by
  rw [ask, Co.wp_call]
  exact ⟨hmay, hok, herr⟩

@[simp] lemma wp_exceptError (x : Auth α) (handler : AuthError → Auth α) :
    (exceptError x handler).wp C φ ψ
      = x.wp C φ fun e g v => match e with
          | .exception e => (handler e).wp C φ ψ g v
          | .cancelled => ψ .cancelled g v := by
  rw [exceptError, Co.wp_protect]
  congr
  funext e g v
  cases e <;> rfl

@[simp] lemma wp_writeAuthLog {φ : Unit → G → Verifier → Prop} (level : Level) (text : String) :
    (writeAuthLog level text).wp C φ ψ = fun g v =>
      φ () g { v with log := v.log ++ [(level, text)] } := rfl

/-- The lock: taken by an await, given back whatever happens. -/
lemma withLock_wp {body : Auth α} {g : G} {v : Verifier} (hmay : C.may g v AuthCommand.acquire)
    (hok : ∀ a g' v', C.env g v AuthCommand.acquire (.ok a) g' v' →
      body.wp C (fun a g v => φ a g { v with locked := false })
        (fun e g v => ψ e g { v with locked := false }) g' v')
    (herr : ∀ e g' v', C.env g v AuthCommand.acquire (.error e) g' v' → ψ e g' v') :
    (withLock body).wp C φ ψ g v := by
  rw [withLock, Co.wp_bind]
  refine ask_wp hmay (fun a g' v' henv => ?_) herr
  rw [Co.wp_finally]
  exact hok a g' v' henv

/-- What the request for the keys has come to. -/
def fetchedKeys : Except AuthRaised Jose.Certs → Option Jose.KeySet
  | .ok certs => (Jose.fromJson certs).toOption
  | .error _ => none

/-- What is to hold after an attempt at the time `now`, by what has come back and what was there: the
keys are the new ones; or the old ones are kept for a while; or there are none. -/
def FetchPost (φ : Unit → G → Verifier → Prop) (ψ : AuthRaised → G → Verifier → Prop) (now : ℚ)
    (g : G) (v : Verifier) : Option Jose.KeySet → Option Jose.KeySet → Prop
  | some keys, _ => φ () g { v with keys := some keys, fetchedAt := now }
  | none, some _ => ∀ log,
      φ () g { v with fetchedAt := now - cfg.ttl + cfg.minRefreshInterval, log := log }
  | none, none => ∀ log, ψ unavailable g { v with log := log }

/-- **A fetch.**  After the attempt at the time `now` the keys are the new ones; or the request has
failed and the old ones are kept for a while; or there are none and the fetch fails. -/
lemma fetchLocked_wp {φ : Unit → G → Verifier → Prop} {fetcher : Fetcher} {g : G} {v : Verifier}
    (hclock : C.may g v (.clock (.fetch fetcher)))
    (herr : ∀ e g' v', C.env g v (.clock (.fetch fetcher)) (.error e) g' v' → ψ e g' v')
    (hcerts : ∀ now g' v', C.env g v (.clock (.fetch fetcher)) (.ok now) g' v' →
      C.may g' { v' with lastAttempt := some now } .certs)
    (hnocancel : ∀ now g₁ v₁ g₂ v₂, C.env g v (.clock (.fetch fetcher)) (.ok now) g₁ v₁ →
      ¬ C.env g₁ { v₁ with lastAttempt := some now } .certs (.error .cancelled) g₂ v₂)
    (hok : ∀ now g₁ v₁ r g₂ v₂, C.env g v (.clock (.fetch fetcher)) (.ok now) g₁ v₁ →
      C.env g₁ { v₁ with lastAttempt := some now } .certs r g₂ v₂ →
      FetchPost cfg φ ψ now g₂ v₂ (fetchedKeys r) v₂.keys) :
    (fetchLocked cfg fetcher).wp C φ ψ g v := by
  rw [fetchLocked, Co.wp_bind]
  refine ask_wp hclock (fun now g₁ v₁ henv₁ => ?_) herr
  have hfailed : ∀ r g₂ v₂, C.env g₁ { v₁ with lastAttempt := some now } .certs r g₂ v₂ →
      fetchedKeys r = none → ∀ e : AuthError,
      (do
        match (← Co.get).keys with
        | none =>
            writeAuthLog .error ("[Auth] The signing keys could not be fetched: " ++ e.typeName)
            .raise unavailable
        | some _ =>
            .modify fun v => { v with fetchedAt := now - cfg.ttl + cfg.minRefreshInterval }
            writeAuthLog .warning
              ("[Auth] Refreshing the signing keys failed (" ++ e.typeName
                ++ "), the cached keys stay in use.") : Auth Unit).wp C φ ψ g₂ v₂ := by
    intro r g₂ v₂ henv₂ hr e
    have h := hok now g₁ v₁ r g₂ v₂ henv₁ henv₂
    rw [hr] at h
    rw [Co.wp_bind, Co.wp_get]
    obtain ⟨keys, fetchedAt, lastAttempt, locked, log⟩ := v₂
    cases keys with
    | none => exact h _
    | some keys => exact h _
  simp only [Co.wp_bind, Co.wp_modify, wp_exceptError]
  refine ask_wp (hcerts now g₁ v₁ henv₁) (fun c g₂ v₂ henv₂ => ?_) (fun e g₂ v₂ henv₂ => ?_)
  · cases hkeys : Jose.fromJson c with
    | ok keys =>
        have h := hok now g₁ v₁ (.ok c) g₂ v₂ henv₁ henv₂
        have hr : fetchedKeys (.ok c) = some keys := by
          rw [fetchedKeys, hkeys]
          rfl
        rw [hr] at h
        exact h
    | error e =>
        refine hfailed (.ok c) g₂ v₂ henv₂ ?_ _
        rw [fetchedKeys, hkeys]
        rfl
  · cases e with
    | cancelled => exact absurd henv₂ (hnocancel _ _ _ _ _ henv₁)
    | exception e => exact hfailed _ g₂ v₂ henv₂ rfl e

/-- **`needs_refresh`**: true when there are no keys, else what the clock says. -/
lemma needsRefresh_wp {φ : Bool → G → Verifier → Prop} {g : G} {v : Verifier}
    (hnone : v.keys = none → φ true g v)
    (hmay : v.keys.isSome → C.may g v (.clock .needsRefresh))
    (hok : ∀ now g' v', v.keys.isSome → C.env g v (.clock .needsRefresh) (.ok now) g' v' →
      φ (decide (now - v'.fetchedAt > cfg.ttl)) g' v')
    (herr : ∀ e g' v', C.env g v (.clock .needsRefresh) (.error e) g' v' → ψ e g' v') :
    (needsRefresh cfg).wp C φ ψ g v := by
  rw [needsRefresh, Co.wp_bind, Co.wp_get]
  dsimp only
  cases hkeys : v.keys with
  | none => exact hnone hkeys
  | some keys =>
      have hsome : v.keys.isSome := by rw [hkeys]; rfl
      rw [Co.wp_bind]
      exact ask_wp (hmay hsome) (fun now g' v' henv => hok now g' v' hsome henv) herr

/-- What is to hold of `_keys_for` at the time `now`, by what the look-up of the key says. -/
def LookUpPre (φ : Option Jose.KeySet → G → Verifier → Prop) (C : Contract authSig G)
    (ψ : AuthRaised → G → Verifier → Prop) (now : ℚ) (g : G) (v : Verifier) :
    Except PyException Bool → Prop
  | .error e => ψ (.exception (.other e)) g { v with locked := false }
  | .ok unknown =>
      (v.isStale cfg now = false → unknown = false → φ v.keys g { v with locked := false })
      ∧ ((v.isStale cfg now || unknown) = true →
        (fetchLocked cfg .keysFor).wp C (fun _ g v => φ v.keys g { v with locked := false })
          (fun e g v => ψ e g { v with locked := false }) g v)

/-- **`_keys_for`**, under the lock: the look-up of the key may fail; the keys are fetched when
they are stale or the key id is unknown. -/
lemma keysFor_wp {φ : Option Jose.KeySet → G → Verifier → Prop} {kid : Json} {g : G}
    {v : Verifier} (hacquire : C.may g v AuthCommand.acquire)
    (herr : ∀ e g' v', C.env g v AuthCommand.acquire (.error e) g' v' → ψ e g' v')
    (hclock : ∀ a g' v', C.env g v AuthCommand.acquire (.ok a) g' v' →
      C.may g' v' (.clock .keysFor) ∧ ∀ e g'' v'',
        C.env g' v' (.clock .keysFor) (.error e) g'' v'' → ψ e g'' { v'' with locked := false })
    (hok : ∀ a g₁ v₁ now g' v', C.env g v AuthCommand.acquire (.ok a) g₁ v₁ →
      C.env g₁ v₁ (.clock .keysFor) (.ok now) g' v' →
      LookUpPre cfg φ C ψ now g' v' (v'.isUnknownKey cfg kid now)) :
    (keysFor cfg kid).wp C φ ψ g v := by
  refine withLock_wp hacquire (fun a g₁ v₁ henv => ?_) herr
  obtain ⟨hmay, hfail⟩ := hclock a g₁ v₁ henv
  rw [Co.wp_bind]
  refine ask_wp hmay (fun now g' v' henv' => ?_) (fun e g' v' henv' => hfail e g' v' henv')
  have h := hok a g₁ v₁ now g' v' henv henv'
  rw [Co.wp_bind, Co.wp_get]
  dsimp only
  cases hunknown : v'.isUnknownKey cfg kid now with
  | error e =>
      rw [hunknown] at h
      exact h
  | ok unknown =>
      rw [hunknown] at h
      dsimp only
      rw [Co.wp_bind, fetchIf]
      cases hfetch : v'.isStale cfg now || unknown with
      | true => exact h.2 hfetch
      | false =>
          obtain ⟨hstale, hknown⟩ := Bool.or_eq_false_iff.mp hfetch
          exact h.1 hstale hknown

end Rules

/-! ## Tokens -/

/-- `claims.get(name)` -/
def claim (claims : Json) (name : String) : Except PyException Json :=
  match claims with
  | .obj items => .ok ((items.lookup name).getD .null)
  | _ => .error ⟨.other, "AttributeError", "object has no attribute 'get'"⟩

/-- `value == text` -/
def Json.isText (text : String) : Json → Bool
  | .str s => decide (s = text)
  | _ => false

/-- `audience == self.audience or (isinstance(audience, list) and self.audience in audience)` -/
def Json.accepts (audience : String) : Json → Bool
  | .arr items => items.any (Json.isText audience)
  | value => Json.isText audience value

/-- An option that is set. -/
def isSet (option : Option String) : Bool := option.any fun s => decide (s ≠ "")

/-- The check of one claim at the end of `decode`, when an option asks for it. -/
def checkClaim (option : Option String) (name : String) (accepts : String → Json → Bool)
    (claims : Json) : Except AuthRaised Unit :=
  if isSet option then
    match claim claims name with
    | .error e => .error (.exception (.other e))
    | .ok value => if option.any fun s => accepts s value then .ok () else .error invalid
  else .ok ()

/-- The checks of `iss` and `aud`. -/
def checkClaims (claims : Json) : Except AuthRaised Json := do
  checkClaim cfg.issuer "iss" Json.isText claims
  checkClaim cfg.audience "aud" Json.accepts claims
  return claims

/-- `TokenVerifier.decode` -/
def decodeWith (token : Jose.Token) : Auth Json :=
  match Jose.kidOf token with
  | .error _ => .raise invalid
  | .ok kid => do
      let keys ← keysFor cfg kid
      let claims ← exceptError (ask (.validate keys token allowedAlgorithms cfg.leeway))
        fun _ => .raise invalid
      Co.ofExcept (S := authSig) (checkClaims cfg claims)

/-- `decode_token` -/
def decodeToken (token : Jose.Token) : Auth Json :=
  if cfg.hasCerts then decodeWith cfg token
  else exceptError (ask (.clientDecode token)) fun _ => .raise invalid

/-- `_refresh_if_needed` -/
def refreshIfNeeded : Auth Unit := do
  if ← needsRefresh cfg then refresh cfg else return ()

/-- The first step of `adecode_token`: the keys are fetched in a thread. -/
def refreshInThread : Auth Unit :=
  if cfg.hasCerts then do
    if ← needsRefresh cfg then toThread else return ()
  else return ()

/-- `adecode_token` -/
def adecodeToken (token : Jose.Token) : Auth Json := do
  refreshInThread cfg
  decodeToken cfg token

end Model

/-- Tokens that are their key id, and key sets that are the ids of their keys. -/
@[reducible] def kidJose : Jose where
  Token := Json
  Certs := List String
  KeySet := List String
  Key := String
  kidOf := .ok
  fromJson := .ok
  getKey keys kid := .ok (keys.find? fun key => Json.isText key kid)

end Atsig
