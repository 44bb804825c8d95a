import AtsigCommon.Auth.Verifier
import AtsigCommon.Coroutine.Pool

/-!
# What is accepted

Any number of calls of `decode_token` and `adecode_token` on one verifier, with the threads of the
latter, in any interleaving: while one call verifies its token, others fetch keys or fail to.

* `Realm` — what Keycloak serves, and which tokens `jwcrypto` finds valid.
* `Validated`, `Accepted` — where claims come from that a call may return.
* `Refused` — what a call may raise.
* `claims_verified` — every call that has ended returned such claims or raised such an exception.
-/

namespace Atsig

open Coroutine Python

section Model

variable [Jose]

/-! ## Tokens that are accepted -/

/-- What Keycloak has answered to `certs()`, and what `validate` accepts: a token, with keys, the
algorithms and the leeway in its times, and the claims it has. -/
structure Realm where
  certs : Jose.Certs → Prop
  valid : Jose.KeySet → Jose.Token → List String → ℤ → Json → Prop

variable (realm : Realm) (cfg : VerifierConfig)

/-- The keys are some that Keycloak has answered. -/
def Realm.Serves (keys : Jose.KeySet) : Prop :=
  ∃ certs, realm.certs certs ∧ Jose.fromJson certs = .ok keys

/-- The token is valid: with keys of the realm, and signed by an asymmetric algorithm. -/
def Validated (token : Jose.Token) (claims : Json) : Prop :=
  ∃ keys, realm.Serves keys ∧ realm.valid keys token allowedAlgorithms cfg.leeway claims

/-- The token is valid, and for this service. -/
structure Accepted (token : Jose.Token) (claims : Json) : Prop where
  verified : Validated realm cfg token claims
  issuer : ∀ issuer, cfg.issuer = some issuer → issuer ≠ "" →
    claim claims "iss" = .ok (.str issuer)
  audience : ∀ audience, cfg.audience = some audience → audience ≠ "" →
    ∃ value, claim claims "aud" = .ok value ∧ Json.accepts audience value

/-- The exceptions of the libraries that get out: two keys of the realm have the id that the token
names, or its claims are no object and one of them is asked for. -/
inductive Unforeseen (token : Jose.Token) (e : PyException) : Prop
  | ambiguous (kid : Json) (keys : Jose.KeySet) (hkid : Jose.kidOf token = .ok kid)
      (hserves : realm.Serves keys) (hkey : Jose.getKey keys kid = .error e)
  | noObject (claims : Json) (name : String) (hverified : Validated realm cfg token claims)
      (hclaim : claim claims name = .error e)

/-- What a call raises.  That the service is not available it says only if there were no keys
before. -/
inductive Refused (hadKeys : Prop) (token : Jose.Token) : AuthRaised → Prop
  | cancelled : Refused hadKeys token .cancelled
  | invalid : Refused hadKeys token invalid
  | unavailable (h : ¬ hadKeys) : Refused hadKeys token unavailable
  | unforeseen (e : PyException) (h : Unforeseen realm cfg token e) :
      Refused hadKeys token (.exception (.other e))

/-! ## Calls and threads -/

/-- A call, or the thread that it starts. -/
inductive Caller (ι : Type)
  | call (i : ι)
  | thread (i : ι)
  deriving DecidableEq

/-- Calls and threads over one verifier. -/
abbrev DecodePool (ι : Type) := Pool authSig Unit (Caller ι) (Option Json)

/-- A call with its claims. -/
def claimsOf (call : Auth Json) : Auth (Option Json) := do return some (← call)

/-- `_refresh_if_needed`, which has no claims. -/
def refreshThread : Auth (Option Json) := do
  refreshIfNeeded cfg
  return none

/-- Calls of both functions, one for each token.  The lock is granted while it is free; Keycloak
answers with its certificates or fails; `validate` is right, or raises; the await of a thread ends
as the thread has, or by a cancellation. -/
def decodePool {ι : Type} (tokens : ι → Jose.Token) :
    Scheduler authSig Unit (Caller ι) (Option Json) where
  starts pool who x :=
    match who with
    | .call i => x = claimsOf (adecodeToken cfg (tokens i))
        ∨ x = claimsOf (decodeToken cfg (tokens i))
    | .thread i => x = refreshThread cfg
        ∧ (pool.tasks (.call i)).bind Program.command? = some .toThread
  answers pool who c r _ v :=
    match c with
    | .clock _ => (∃ now, r = .ok now) ∧ v = pool.shared
    | .acquire => r = .ok () ∧ pool.shared.locked = false
        ∧ v = { pool.shared with locked := true }
    | .certs => (∀ certs, r = .ok certs → realm.certs certs) ∧ r ≠ .error .cancelled
        ∧ v = pool.shared
    | .validate (some keys) token algs leeway =>
        (∀ claims, r = .ok claims → realm.valid keys token algs leeway claims)
          ∧ r ≠ .error .cancelled ∧ v = pool.shared
    | .validate none .. | .clientDecode _ => v = pool.shared
    | .toThread => v = pool.shared ∧ (r = .error .cancelled
        ∨ ∃ i r' s, who = .call i ∧ pool.tasks (.thread i) = some (.done r' s)
          ∧ r = r'.map fun _ => ())
  idles _ _ := False
  notes w _ _ := w

/-! ## The contract of a call -/

variable {realm cfg}

/-- The keys that are there are keys of the realm; once there are some, there always are. -/
structure Founded (realm : Realm) (hadKeys : Prop) (v : Verifier) : Prop where
  serves : ∀ keys, v.keys = some keys → realm.Serves keys
  kept : hadKeys → v.keys.isSome

/-- **The contract.**  A token is verified with keys of the realm, as the verifier was told to.
Whoever else runs leaves a sound verifier behind, and a thread raises only that there are no
keys. -/
def accepting (realm : Realm) (cfg : VerifierConfig) (hadKeys : Prop) :
    Contract authSig (Option Jose.Token) where
  may token v c := Founded realm hadKeys v ∧ match c with
    | .validate keys token' algs leeway => (∃ keys', keys = some keys' ∧ realm.Serves keys')
        ∧ token = some token' ∧ algs = allowedAlgorithms ∧ leeway = cfg.leeway
    | .clientDecode _ => False
    | _ => True
  env token _ c r token' v' := token' = token ∧ Founded realm hadKeys v' ∧ match c with
    | .clock _ | .acquire => ∃ a, r = .ok a
    | .certs => (∀ certs, r = .ok certs → realm.certs certs) ∧ r ≠ .error .cancelled
    | .validate (some keys) token algs leeway =>
        (∀ claims, r = .ok claims → realm.valid keys token algs leeway claims)
          ∧ r ≠ .error .cancelled
    | .toThread => ∀ e, r = .error e → e = .cancelled ∨ e = unavailable ∧ ¬ hadKeys
    | _ => True
  cut _ := False

/-- What a task returns. -/
def Returns (realm : Realm) (cfg : VerifierConfig) (hadKeys : Prop) (claims : Option Json)
    (token : Option Jose.Token) (v : Verifier) : Prop :=
  Founded realm hadKeys v ∧ match token with
    | some token => ∃ accepted, claims = some accepted ∧ Accepted realm cfg token accepted
    | none => claims = none

/-- What a task raises. -/
def Raises (realm : Realm) (cfg : VerifierConfig) (hadKeys : Prop) (e : AuthRaised)
    (token : Option Jose.Token) (v : Verifier) : Prop :=
  Founded realm hadKeys v ∧ match token with
    | some token => Refused realm cfg hadKeys token e
    | none => e = unavailable ∧ ¬ hadKeys

variable {hadKeys : Prop} {token : Option Jose.Token} {v v' : Verifier}

/-- What else there is in a verifier does not matter. -/
lemma Founded.of_keys (h : Founded realm hadKeys v) (hkeys : v'.keys = v.keys) :
    Founded realm hadKeys v' where
  serves := by rw [hkeys]; exact h.serves
  kept := by rw [hkeys]; exact h.kept

lemma Founded.store {keys : Jose.KeySet} (hserves : realm.Serves keys)
    (hkeys : v'.keys = some keys) : Founded realm hadKeys v' where
  serves keys' h := by
    obtain rfl := Option.some.inj (hkeys.symm.trans h)
    exact hserves
  kept _ := by rw [hkeys]; rfl

/-- **A fetch** stores keys of the realm or leaves those that there are; it fails only when there
are none. -/
lemma fetchLocked_accepting (fetcher : Fetcher) (h : Founded realm hadKeys v)
    {φ : Unit → Option Jose.Token → Verifier → Prop}
    {ψ : AuthRaised → Option Jose.Token → Verifier → Prop}
    (hφ : ∀ v, Founded realm hadKeys v → v.keys.isSome → φ () token v)
    (hψ : ∀ v, Founded realm hadKeys v → ¬ hadKeys → ψ unavailable token v) :
    (fetchLocked cfg fetcher).wp (accepting realm cfg hadKeys) φ ψ token v := by
  refine fetchLocked_wp cfg ⟨h, trivial⟩ (fun e g' v' henv => ?_) (fun now g' v' henv => ?_)
    (fun now g₁ v₁ g₂ v₂ henv henv' => ?_) (fun now g₁ v₁ r g₂ v₂ henv henv' => ?_)
  · obtain ⟨-, -, _, hok⟩ := henv
    cases hok
  · exact ⟨henv.2.1.of_keys rfl, trivial⟩
  · exact henv'.2.2.2 rfl
  · obtain ⟨rfl, -⟩ := henv
    obtain ⟨rfl, hfounded, hcerts, -⟩ := henv'
    cases hkeys : fetchedKeys r with
    | some keys =>
        refine hφ _ (.store ?_ rfl) rfl
        cases r with
        | error e => cases hkeys
        | ok certs =>
            refine ⟨certs, hcerts certs rfl, ?_⟩
            rw [fetchedKeys] at hkeys
            cases hjson : Jose.fromJson certs with
            | error e =>
                rw [hjson] at hkeys
                cases hkeys
            | ok keys' =>
                rw [hjson] at hkeys
                rw [Option.some.inj hkeys]
    | none =>
        cases hold : v₂.keys with
        | some keys =>
            intro log
            refine hφ _ (hfounded.of_keys rfl) ?_
            exact hold ▸ rfl
        | none =>
            intro log
            refine hψ _ (hfounded.of_keys rfl) fun hhad => ?_
            have hsome := hfounded.kept hhad
            rw [hold] at hsome
            cases hsome

/-- **`_keys_for`** answers with keys of the realm. -/
lemma keysFor_accepting {token : Jose.Token} {kid : Json} (hkid : Jose.kidOf token = .ok kid)
    (h : Founded realm hadKeys v) :
    (keysFor cfg kid).wp (accepting realm cfg hadKeys)
      (fun keys token' v => token' = some token ∧ Founded realm hadKeys v
        ∧ ∃ keys', keys = some keys' ∧ realm.Serves keys')
      (Raises realm cfg hadKeys) (some token) v := by
  have hkeys : ∀ v : Verifier, Founded realm hadKeys v → v.keys.isSome →
      ∃ keys', v.keys = some keys' ∧ realm.Serves keys' := by
    intro v hfounded hsome
    obtain ⟨keys, hkeys⟩ := Option.isSome_iff_exists.mp hsome
    exact ⟨keys, hkeys, hfounded.serves keys hkeys⟩
  refine keysFor_wp cfg ⟨h, trivial⟩ (fun e g' v' henv => ?_) (fun a g' v' henv => ?_)
    (fun a g₁ v₁ now g' v' henv henv' => ?_)
  · obtain ⟨-, -, _, hok⟩ := henv
    cases hok
  · obtain ⟨-, hfounded, -⟩ := henv
    refine ⟨⟨hfounded, trivial⟩, fun e g'' v'' henv' => ?_⟩
    obtain ⟨-, -, _, hok⟩ := henv'
    cases hok
  · obtain ⟨rfl, -⟩ := henv
    obtain ⟨rfl, hfounded, -⟩ := henv'
    cases hunknown : v'.isUnknownKey cfg kid now with
    | error e =>
        refine ⟨hfounded.of_keys rfl, .unforeseen e ?_⟩
        cases hold : v'.keys with
        | none =>
            rw [Verifier.isUnknownKey, hold] at hunknown
            cases hunknown
        | some keys =>
            refine .ambiguous kid keys hkid (hfounded.serves keys hold) ?_
            simp only [Verifier.isUnknownKey, hold] at hunknown
            split at hunknown
            · cases hkey : Jose.getKey keys kid with
              | error e' =>
                  rw [hkey] at hunknown
                  rw [Except.error.inj hunknown]
              | ok key =>
                  rw [hkey] at hunknown
                  cases key <;> cases hunknown
            · cases hunknown
    | ok unknown =>
        constructor
        · intro hfresh _
          have hsome : v'.keys.isSome := by
            rw [Verifier.isStale, Bool.or_eq_false_iff] at hfresh
            cases hold : v'.keys with
            | none =>
                rw [hold] at hfresh
                cases hfresh.1
            | some keys => rfl
          exact ⟨rfl, hfounded.of_keys rfl, hkeys v' hfounded hsome⟩
        · intro _
          refine fetchLocked_accepting .keysFor hfounded (fun v hfounded hsome => ?_)
            (fun v hfounded hnone => ?_)
          · exact ⟨rfl, hfounded.of_keys rfl, hkeys v hfounded hsome⟩
          · exact ⟨hfounded.of_keys rfl, .unavailable hnone⟩

/-! ## The claims -/

omit [Jose] in
lemma checkClaim_cases {option : Option String} {name : String} {accepts : String → Json → Bool}
    {claims : Json} {r : Except AuthRaised Unit}
    (h : checkClaim option name accepts claims = r) :
    (r = .ok () ∧ ∀ text, option = some text → text ≠ "" →
        ∃ value, claim claims name = .ok value ∧ accepts text value)
      ∨ r = .error invalid
      ∨ ∃ e, r = .error (.exception (.other e)) ∧ claim claims name = .error e := by
  subst h
  rw [checkClaim]
  split_ifs with hset
  · cases hclaim : claim claims name with
    | error e => exact Or.inr (Or.inr ⟨e, rfl, rfl⟩)
    | ok value =>
        dsimp only
        split_ifs with haccepts
        · refine Or.inl ⟨rfl, ?_⟩
          rintro text rfl -
          exact ⟨value, rfl, haccepts⟩
        · exact Or.inr (Or.inl rfl)
  · refine Or.inl ⟨rfl, ?_⟩
    rintro text rfl hne
    simp [isSet, hne] at hset

omit [Jose] in
lemma isText_iff {text : String} {value : Json} : Json.isText text value ↔ value = .str text := by
  cases value <;> simp [Json.isText]

/-- What becomes of claims that `validate` has accepted. -/
lemma checkClaims_accepting {token : Jose.Token} {claims : Json}
    (hvalidated : Validated realm cfg token claims) :
    (checkClaims cfg claims = .ok claims ∧ Accepted realm cfg token claims)
      ∨ ∃ e, checkClaims cfg claims = .error e ∧ Refused realm cfg hadKeys token e := by
  have hiss := checkClaim_cases (rfl : checkClaim cfg.issuer "iss" Json.isText claims = _)
  have haud := checkClaim_cases (rfl : checkClaim cfg.audience "aud" Json.accepts claims = _)
  rw [checkClaims]
  rcases hiss with ⟨hiss, hissuer⟩ | hiss | ⟨e, hiss, hclaim⟩
  · rw [hiss]
    rcases haud with ⟨haud, haudience⟩ | haud | ⟨e, haud, hclaim⟩
    · rw [haud]
      refine Or.inl ⟨rfl, hvalidated, fun issuer hset hne => ?_, haudience⟩
      obtain ⟨value, hclaim, htext⟩ := hissuer issuer hset hne
      rw [hclaim, isText_iff.mp htext]
    · rw [haud]
      exact Or.inr ⟨_, rfl, .invalid⟩
    · rw [haud]
      exact Or.inr ⟨_, rfl, .unforeseen e (.noObject claims "aud" hvalidated hclaim)⟩
  · rw [hiss]
    exact Or.inr ⟨_, rfl, .invalid⟩
  · rw [hiss]
    exact Or.inr ⟨_, rfl, .unforeseen e (.noObject claims "iss" hvalidated hclaim)⟩

/-! ## Calls -/

/-- **`decode_token`** keeps the contract. -/
lemma decodeToken_accepting (hcerts : cfg.hasCerts = true) (token : Jose.Token)
    (h : Founded realm hadKeys v) :
    (decodeToken cfg token).wp (accepting realm cfg hadKeys)
      (fun claims => Returns realm cfg hadKeys (some claims)) (Raises realm cfg hadKeys)
      (some token) v := by
  rw [decodeToken, if_pos hcerts, decodeWith]
  cases hkid : Jose.kidOf token with
  | error e => exact ⟨h, .invalid⟩
  | ok kid =>
      rw [Co.wp_bind]
      refine Co.wp_mono (keysFor_accepting hkid h) ?_ (fun _ _ _ h => h)
      rintro _ _ v' ⟨rfl, hfounded, keys, rfl, hserves⟩
      rw [Co.wp_bind, wp_exceptError]
      refine ask_wp ⟨hfounded, ⟨keys, rfl, hserves⟩, rfl, rfl, rfl⟩ (fun claims g' v' henv => ?_)
        (fun e g' v' henv => ?_)
      · obtain ⟨rfl, hfounded, hvalid, -⟩ := henv
        have hvalidated : Validated realm cfg token claims := ⟨keys, hserves, hvalid claims rfl⟩
        have hchecked := @checkClaims_accepting _ realm cfg hadKeys token claims hvalidated
        rcases hchecked with ⟨hok, haccepted⟩ | ⟨e, herror, hrefused⟩
        · rw [hok]
          exact ⟨hfounded, claims, rfl, haccepted⟩
        · rw [herror]
          exact ⟨hfounded, hrefused⟩
      · obtain ⟨rfl, hfounded, -, hne⟩ := henv
        cases e with
        | cancelled => exact absurd rfl hne
        | exception e => exact ⟨hfounded, .invalid⟩

/-- `needs_refresh` changes nothing. -/
lemma needsRefresh_accepting {token : Option Jose.Token} (h : Founded realm hadKeys v) :
    (needsRefresh cfg).wp (accepting realm cfg hadKeys)
      (fun _ token' v => token' = token ∧ Founded realm hadKeys v) (fun _ _ _ => False)
      token v := by
  refine needsRefresh_wp cfg (fun _ => ⟨rfl, h⟩) (fun _ => ⟨h, trivial⟩)
    (fun now g' v' _ henv => ?_) (fun e g' v' henv => ?_)
  · exact ⟨henv.1, henv.2.1⟩
  · obtain ⟨-, -, _, hok⟩ := henv
    cases hok

/-- **`adecode_token`** keeps the contract. -/
lemma adecodeToken_accepting (hcerts : cfg.hasCerts = true) (token : Jose.Token)
    (h : Founded realm hadKeys v) :
    (adecodeToken cfg token).wp (accepting realm cfg hadKeys)
      (fun claims => Returns realm cfg hadKeys (some claims)) (Raises realm cfg hadKeys)
      (some token) v := by
  rw [adecodeToken, Co.wp_bind, refreshInThread, if_pos hcerts, Co.wp_bind]
  refine Co.wp_mono (needsRefresh_accepting h) ?_ (fun _ _ _ hfalse => hfalse.elim)
  rintro needed _ v' ⟨rfl, hfounded⟩
  cases needed with
  | false => exact decodeToken_accepting hcerts token hfounded
  | true =>
      refine ask_wp ⟨hfounded, trivial⟩ (fun _ g' v'' henv => ?_) (fun e g' v'' henv => ?_)
      · obtain ⟨rfl, hfounded, -⟩ := henv
        exact decodeToken_accepting hcerts token hfounded
      · obtain ⟨rfl, hfounded, hraised⟩ := henv
        rcases hraised e rfl with rfl | ⟨rfl, hnone⟩
        · exact ⟨hfounded, .cancelled⟩
        · exact ⟨hfounded, .unavailable hnone⟩

/-- **A thread** keeps the contract. -/
lemma refreshThread_accepting (h : Founded realm hadKeys v) :
    (refreshThread cfg).wp (accepting realm cfg hadKeys) (Returns realm cfg hadKeys)
      (Raises realm cfg hadKeys) none v := by
  rw [refreshThread, Co.wp_bind, refreshIfNeeded, Co.wp_bind]
  refine Co.wp_mono (needsRefresh_accepting h) ?_ (fun _ _ _ hfalse => hfalse.elim)
  rintro needed _ v' ⟨rfl, hfounded⟩
  cases needed with
  | false => exact ⟨hfounded, rfl⟩
  | true =>
      refine withLock_wp ⟨hfounded, trivial⟩ (fun _ g' v'' henv => ?_) (fun e g' v'' henv => ?_)
      · obtain ⟨rfl, hfounded, -⟩ := henv
        refine fetchLocked_accepting .refresh hfounded (fun v hfounded _ => ?_)
          (fun v hfounded hnone => ?_)
        · exact ⟨hfounded.of_keys rfl, rfl⟩
        · exact ⟨hfounded.of_keys rfl, rfl, hnone⟩
      · obtain ⟨-, -, _, hok⟩ := henv
        cases hok

/-! ## Every interleaving -/

section Pool

variable {ι : Type} [DecidableEq ι] {tokens : ι → Jose.Token} {pool : DecodePool ι}

/-- The token of a task, if it has one. -/
def Caller.token? (tokens : ι → Jose.Token) : Caller ι → Option Jose.Token
  | .call i => some (tokens i)
  | .thread _ => none

/-- The invariant: the verifier is founded, every task knows its token, and a thread that has
raised said that there are no keys. -/
structure PoolFounded (realm : Realm) (hadKeys : Prop) (tokens : ι → Jose.Token)
    (pool : DecodePool ι) (gs : Caller ι → Option Jose.Token) : Prop where
  shared : Founded realm hadKeys pool.shared
  knows : gs = Caller.token? tokens
  raised : ∀ i e s, pool.tasks (.thread i) = some (.done (.error e) s) →
    e = unavailable ∧ ¬ hadKeys

/-- A task has run to its next await. -/
lemma PoolFounded.run {gs : Caller ι → Option Jose.Token}
    (h : PoolFounded realm hadKeys tokens pool gs) {who : Caller ι} {v : Verifier}
    (hv : Founded realm hadKeys v) {p : Program authSig (Option Json)}
    (hp : p.Settled (accepting realm cfg hadKeys) (Returns realm cfg hadKeys)
      (Raises realm cfg hadKeys) (who.token? tokens)) :
    PoolFounded realm hadKeys tokens (pool.run (decodePool realm cfg tokens) who () v p)
      (Function.update gs who (who.token? tokens)) where
  shared := by
    cases p with
    | done r s =>
        cases r with
        | ok a => exact hp.1
        | error e => exact hp.1
    | await c s k => exact hp.1
    | spent => exact hv
  knows := by
    rw [h.knows, Function.update_eq_self]
  raised i e s hq := by
    rcases Pool.run_tasks hq with ⟨rfl, rfl⟩ | ⟨-, hq⟩
    · exact hp.2
    · exact h.raised i e s hq

omit [DecidableEq ι] in
/-- What the pool answers is within the contract. -/
lemma PoolFounded.answers {gs : Caller ι → Option Jose.Token}
    (h : PoolFounded realm hadKeys tokens pool gs) {who : Caller ι} {c : AuthCommand}
    {r : Except AuthRaised c.Answer} {w : Unit} {s v : Verifier}
    (hanswer : (decodePool realm cfg tokens).answers pool who c r w v) :
    (accepting realm cfg hadKeys).env (who.token? tokens) s c r (who.token? tokens) v := by
  have hshared := h.shared
  refine ⟨rfl, ?_⟩
  cases c with
  | clock reading =>
      obtain ⟨hok, rfl⟩ := hanswer
      exact ⟨hshared, hok⟩
  | acquire =>
      obtain ⟨hok, -, rfl⟩ := hanswer
      exact ⟨hshared.of_keys rfl, (), hok⟩
  | certs =>
      obtain ⟨hcerts, hne, rfl⟩ := hanswer
      exact ⟨hshared, hcerts, hne⟩
  | validate keys token algs leeway =>
      cases keys with
      | none =>
          obtain rfl : v = pool.shared := hanswer
          exact ⟨hshared, trivial⟩
      | some keys =>
          obtain ⟨hvalid, hne, rfl⟩ := hanswer
          exact ⟨hshared, hvalid, hne⟩
  | clientDecode token =>
      obtain rfl : v = pool.shared := hanswer
      exact ⟨hshared, trivial⟩
  | toThread =>
      obtain ⟨rfl, hended⟩ := hanswer
      refine ⟨hshared, fun e he => ?_⟩
      rcases hended with hcancelled | ⟨i, r', s', -, hthread, hr⟩
      · exact Or.inl (Except.error.inj (he.symm.trans hcancelled))
      · cases r' with
        | ok a =>
            rw [hr] at he
            cases he
        | error e' =>
            rw [hr] at he
            obtain rfl := Except.error.inj he
            exact Or.inr (h.raised i e' s' hthread)

/-- The invariant holds in every pool that is reached, and every task keeps the contract. -/
lemma poolFounded_of_reachable (hcerts : cfg.hasCerts = true)
    (hv : ∀ keys, v.keys = some keys → realm.Serves keys)
    (h : (decodePool realm cfg tokens).Reachable () v pool) :
    ∃ gs, PoolFounded realm v.keys.isSome tokens pool gs ∧ ∀ who p, pool.tasks who = some p →
      p.wp (accepting realm cfg v.keys.isSome) (Returns realm cfg v.keys.isSome)
        (Raises realm cfg v.keys.isSome) (gs who) := by
  refine h.invariant ?_ ?_ ?_ nofun
  · exact ⟨Caller.token? tokens, ⟨hv, id⟩, rfl, nofun⟩
  · intro pool gs who x hpool hnew hx
    refine ⟨who.token? tokens, ?_, fun p hp => hpool.run hpool.shared hp⟩
    cases who with
    | call i =>
        rcases hx with rfl | rfl
        · rw [claimsOf, Co.wp_bind]
          exact adecodeToken_accepting hcerts (tokens i) hpool.shared
        · rw [claimsOf, Co.wp_bind]
          exact decodeToken_accepting hcerts (tokens i) hpool.shared
    | thread i =>
        obtain ⟨rfl, -⟩ := hx
        exact refreshThread_accepting hpool.shared
  · intro pool gs who c s k r w v' hpool htask hmay hanswer
    have hgs : gs who = who.token? tokens := by rw [hpool.knows]
    have henv := hpool.answers (s := s) hanswer
    refine ⟨who.token? tokens, ?_, fun p hp => hpool.run henv.2.1 hp⟩
    rw [hgs]
    exact henv

/-- **Only verified claims get out.**  Whatever calls and threads there are, and however they take
turns, fail or are cancelled: a call that returns has the claims of its own token, valid with keys
that Keycloak has served and by an asymmetric algorithm, with the issuer and the audience that are
asked for.  A call that raises was cancelled, says 401, or says 503, which it does only if the
verifier had no keys to begin with; or one of the libraries raised where two keys of the realm have
one id, or where valid claims are no object. -/
theorem claims_verified (hcerts : cfg.hasCerts = true)
    (hv : ∀ keys, v.keys = some keys → realm.Serves keys)
    (h : (decodePool realm cfg tokens).Reachable () v pool) {i : ι} {s : Verifier} :
    (∀ claims, pool.tasks (.call i) = some (.done (.ok claims) s) →
        ∃ accepted, claims = some accepted ∧ Accepted realm cfg (tokens i) accepted)
      ∧ ∀ e, pool.tasks (.call i) = some (.done (.error e) s) →
        Refused realm cfg v.keys.isSome (tokens i) e := by
  obtain ⟨gs, hpool, hkeep⟩ := poolFounded_of_reachable hcerts hv h
  rw [hpool.knows] at hkeep
  constructor
  · intro claims hdone
    exact (hkeep (.call i) _ hdone).2
  · intro e hdone
    exact (hkeep (.call i) _ hdone).2

/-! ## Runs -/

/-- A call of `adecode_token` begins. -/
lemma decodePool_call (h : (decodePool realm cfg tokens).Reachable () v pool) (i : ι)
    (hnew : pool.tasks (.call i) = none) :
    (decodePool realm cfg tokens).Reachable () v (pool.run (decodePool realm cfg tokens) (.call i)
      pool.world pool.shared (claimsOf (adecodeToken cfg (tokens i)) pool.shared)) :=
  h.step (.start pool _ _ hnew (Or.inl rfl))

/-- The thread of a call begins. -/
lemma decodePool_thread (h : (decodePool realm cfg tokens).Reachable () v pool) (i : ι)
    (hnew : pool.tasks (.thread i) = none)
    (hcall : (pool.tasks (.call i)).bind Program.command? = some AuthCommand.toThread) :
    (decodePool realm cfg tokens).Reachable () v (pool.run (decodePool realm cfg tokens) (.thread i)
      pool.world pool.shared (refreshThread cfg pool.shared)) :=
  h.step (.start pool _ _ hnew ⟨rfl, hcall⟩)

/-- A task goes on. -/
lemma decodePool_resume (h : (decodePool realm cfg tokens).Reachable () v pool) (who : Caller ι)
    (c : AuthCommand) (r : Except AuthRaised c.Answer) {s v' : Verifier}
    {k : Except AuthRaised c.Answer → Verifier → Program authSig (Option Json)}
    (htask : pool.tasks who = some (.await c s k))
    (hanswer : (decodePool realm cfg tokens).answers pool who c r () v') :
    (decodePool realm cfg tokens).Reachable () v
      (pool.run (decodePool realm cfg tokens) who () v' (k r v')) :=
  h.step (.resume pool who c s k r () v' htask hanswer)

end Pool

end Model

section Example

attribute [local instance] kidJose

/-- A user of the realm `sso`. -/
def ssoClaims : Json := .obj [("iss", .str "sso"), ("sub", .str "u1")]

/-- The realm has the key `k1`; a token is valid that is signed with a key that there is. -/
def ssoRealm : Realm where
  certs certs := certs = ["k1"]
  valid (keys : List String) (token : Json) algs _ claims :=
    algs = allowedAlgorithms ∧ (∃ kid ∈ keys, token = .str kid) ∧ claims = ssoClaims

/-- A token that is signed with `k1`. -/
def ssoToken (_ : Unit) : Json := .str "k1"

/-- A verifier that asks for the issuer. -/
def ssoConfig : VerifierConfig := { issuer := some "sso" }

/-- A call waits for its thread, which fetches the keys, and verifies its token with them. -/
theorem claims_verified_sso : ∃ (pool : DecodePool Unit) (s : Verifier),
    (decodePool ssoRealm ssoConfig ssoToken).Reachable () Verifier.init pool
      ∧ pool.tasks (.call ()) = some (.done (.ok (some ssoClaims)) s)
      ∧ Accepted ssoRealm ssoConfig (ssoToken ()) ssoClaims := by
  have h0 : (decodePool ssoRealm ssoConfig ssoToken).Reachable () Verifier.init _ :=
    .init
  have h1 := decodePool_call h0 () rfl
  have h2 := decodePool_thread h1 () rfl (by with_unfolding_all rfl)
  have h3 := decodePool_resume h2 (.thread ()) .acquire (.ok ()) (by with_unfolding_all rfl)
    ⟨rfl, by with_unfolding_all rfl, rfl⟩
  have h4 := decodePool_resume h3 (.thread ()) (.clock (.fetch .refresh)) (.ok (0 : ℚ))
    (by with_unfolding_all rfl) ⟨⟨0, rfl⟩, rfl⟩
  have h5 := decodePool_resume h4 (.thread ()) .certs (.ok ["k1"])
    (by with_unfolding_all rfl) ⟨fun _ hcerts => (Except.ok.inj hcerts).symm, nofun, rfl⟩
  have h6 := decodePool_resume h5 (.call ()) .toThread (.ok ()) (by with_unfolding_all rfl)
    ⟨rfl, Or.inr ⟨(), .ok none, _, rfl, by with_unfolding_all rfl, rfl⟩⟩
  have h7 := decodePool_resume h6 (.call ()) .acquire (.ok ()) (by with_unfolding_all rfl)
    ⟨rfl, by with_unfolding_all rfl, rfl⟩
  have h8 := decodePool_resume h7 (.call ()) (.clock .keysFor) (.ok (0 : ℚ))
    (by with_unfolding_all rfl) ⟨⟨0, rfl⟩, rfl⟩
  have h9 := decodePool_resume h8 (.call ())
    (.validate (some ["k1"]) (Json.str "k1") allowedAlgorithms 60) (.ok ssoClaims)
    (by with_unfolding_all rfl) ⟨fun _ hclaims =>
      ⟨rfl, ⟨"k1", List.mem_singleton_self _, rfl⟩, (Except.ok.inj hclaims).symm⟩, nofun, rfl⟩
  have hnokeys : ∀ keys, Verifier.init.keys = some keys → ssoRealm.Serves keys := by
    intro keys hkeys
    cases hkeys
  obtain ⟨accepted, hclaims, haccepted⟩ := (claims_verified (i := ()) rfl hnokeys h9).1
    (some ssoClaims) (by with_unfolding_all rfl)
  rw [← Option.some.inj hclaims] at haccepted
  exact ⟨_, _, h9, by with_unfolding_all rfl, haccepted⟩

end Example

end Atsig
