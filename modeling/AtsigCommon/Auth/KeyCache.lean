import AtsigCommon.Auth.Verifier
import Mathlib.Tactic.Linarith

/-!
# The cache of the keys

`_fetched_at` is not always the time of a fetch: a failed refresh moves it to where the keys
become stale after `min_refresh_interval`.  What it means depends on how the latest attempt ended,
and that is the invariant (`Cached`) of a verifier that answers one call of `decode` after the
other.

* `Watched` — what an observer sees: the readings of the clock and the attempts to fetch the keys.
* `decodeWith_wp` — one call keeps the invariant and the contract `keyCache`.
* `key_cache_discipline` — every sequence of calls.
-/

namespace Atsig

open Coroutine Python

section Cache

variable [Jose]

/-! ## What an observer sees -/

/-- An attempt to fetch the keys: when it was made, and the keys it gave. -/
structure Attempt where
  time : ℚ
  keys : Option Jose.KeySet

/-- The last reading of the clock, the last one of `_keys_for`, and the attempts, the newest
first. -/
structure Watched where
  now : ℚ
  asked : Option ℚ
  attempts : List Attempt

/-- One more await. -/
def Watched.next (g : Watched) : (c : AuthCommand) → Except AuthRaised c.Answer → Watched
  | .clock .keysFor, .ok now => ⟨now, some now, g.attempts⟩
  | .clock _, .ok now => ⟨now, g.asked, g.attempts⟩
  | .certs, r => ⟨g.now, g.asked, ⟨g.now, fetchedKeys r⟩ :: g.attempts⟩
  | _, _ => g

/-- An attempt has succeeded. -/
def Fetched (attempts : List Attempt) : Prop := ∃ a ∈ attempts, a.keys.isSome

/-- The latest attempt that succeeded. -/
def latestFetch (attempts : List Attempt) : Option Attempt := attempts.find? fun a => a.keys.isSome

lemma latestFetch_some {attempts : List Attempt} {a : Attempt}
    (h : latestFetch attempts = some a) : a ∈ attempts ∧ a.keys.isSome :=
  ⟨List.mem_of_find?_eq_some h, List.find?_some (p := fun a : Attempt => a.keys.isSome) h⟩

@[simp] lemma latestFetch_cons_some (t : ℚ) (keys : Jose.KeySet) (older : List Attempt) :
    latestFetch (⟨t, some keys⟩ :: older) = some ⟨t, some keys⟩ := rfl

@[simp] lemma latestFetch_cons_none (t : ℚ) (older : List Attempt) :
    latestFetch (⟨t, none⟩ :: older) = latestFetch older := rfl

lemma fetched_iff {attempts : List Attempt} :
    Fetched attempts ↔ ((latestFetch attempts).bind Attempt.keys).isSome := by
  constructor
  · rintro ⟨a, ha, hkeys⟩
    have hsome : (latestFetch attempts).isSome := List.find?_isSome.mpr ⟨a, ha, hkeys⟩
    obtain ⟨b, hb⟩ := Option.isSome_iff_exists.mp hsome
    rw [hb]
    exact (latestFetch_some hb).2
  · intro h
    cases hb : latestFetch attempts with
    | none => simp [hb] at h
    | some b => exact ⟨b, latestFetch_some hb⟩

/-- No two keys have one id, so `get_key` does not fail. -/
def Distinct (keys : Jose.KeySet) : Prop := ∀ kid, ∃ key, Jose.getKey keys kid = .ok key

/-- How an await ends when nobody else uses the verifier: the clock does not go back, the lock is
granted, and `certs` gives keys with distinct ids or fails. -/
def Watched.Answers (g : Watched) : (c : AuthCommand) → Except AuthRaised c.Answer → Prop
  | .clock _, r => ∃ now, r = .ok now ∧ g.now ≤ now
  | .acquire, r => r = .ok ()
  | .certs, r => r ≠ .error .cancelled ∧ ∀ keys, fetchedKeys r = some keys → Distinct keys
  | _, _ => True

/-- The verifier after an await, when nobody else uses it. -/
def Verifier.await (v : Verifier) : AuthCommand → Verifier
  | .acquire => { v with locked := true }
  | _ => v

section Discipline

variable (cfg : VerifierConfig)

/-- From the first successful fetch on, attempts are `min_refresh_interval` apart. -/
def Spaced : List Attempt → Prop
  | [] => True
  | a :: older => Spaced older ∧
      (Fetched older → ∀ b, older.head? = some b → b.time + cfg.minRefreshInterval ≤ a.time)

/-- These keys may be used now: they are those of the latest successful fetch, and either that was
at most `ttl` ago, or the latest attempt failed and was at most `min_refresh_interval` ago. -/
def Watched.Current (g : Watched) (keys : Option Jose.KeySet) : Prop :=
  ∃ a, latestFetch g.attempts = some a ∧ a.keys = keys ∧
    (g.now - a.time ≤ cfg.ttl ∨
      ∃ b, g.attempts.head? = some b ∧ b.keys = none ∧ g.now - b.time ≤ cfg.minRefreshInterval)

/-- What holds at every await: once there are keys they stay, and attempts keep their distance. -/
def Watched.Kept (g : Watched) (v : Verifier) : Prop :=
  (Fetched g.attempts → v.keys.isSome) ∧ Spaced cfg g.attempts

/-- **The contract of `decode`**: an attempt keeps its distance from the one before, a token is
verified with current keys, and the lock is free when it is asked for. -/
def keyCache : Contract authSig Watched where
  may g v c := g.Kept cfg v ∧
    match c with
    | .certs => Fetched g.attempts → ∀ b, g.attempts.head? = some b →
        b.time + cfg.minRefreshInterval ≤ g.now
    | .validate keys .. => g.Current cfg keys
    | .acquire => v.locked = false
    | _ => True
  env g v c r g' v' := g.Answers c r ∧ g' = g.next c r ∧ v' = v.await c

/-- **The invariant.**  `fetchedAt` is the time of the latest attempt when that succeeded;
otherwise it is such that the keys become stale `min_refresh_interval` after it. -/
structure Cached (g : Watched) (v : Verifier) : Prop where
  keys : v.keys = (latestFetch g.attempts).bind Attempt.keys
  lastAttempt : v.lastAttempt = g.attempts.head?.map Attempt.time
  past : ∀ b, g.attempts.head? = some b → b.time ≤ g.now
  fetchedAt : ∀ b, g.attempts.head? = some b → v.keys.isSome → v.fetchedAt =
    if b.keys.isSome then b.time else b.time - cfg.ttl + cfg.minRefreshInterval
  distinct : ∀ keys, v.keys = some keys → Distinct keys
  spaced : Spaced cfg g.attempts

variable {cfg} {g : Watched} {v : Verifier}

lemma Cached.fetched_iff (h : Cached cfg g v) : Fetched g.attempts ↔ v.keys.isSome := by
  rw [h.keys]
  exact Atsig.fetched_iff

lemma Cached.kept (h : Cached cfg g v) : g.Kept cfg v := ⟨h.fetched_iff.mp, h.spaced⟩

/-- There is a latest attempt when there are keys. -/
lemma Cached.exists_head (h : Cached cfg g v) (hkeys : v.keys.isSome) :
    ∃ b, g.attempts.head? = some b := by
  obtain ⟨a, ha, -⟩ := h.fetched_iff.mpr hkeys
  cases hat : g.attempts with
  | nil => rw [hat] at ha; cases ha
  | cons b older => exact ⟨b, rfl⟩

/-- The invariant does not depend on the lock, the log and the readings that follow. -/
lemma Cached.later (h : Cached cfg g v) {now : ℚ} (hnow : g.now ≤ now) (asked : Option ℚ)
    (locked : Bool) (log : List (Level × String)) :
    Cached cfg ⟨now, asked, g.attempts⟩ { v with locked := locked, log := log } :=
  ⟨h.keys, h.lastAttempt, fun b hb => (h.past b hb).trans hnow, h.fetchedAt, h.distinct, h.spaced⟩

/-- **When the keys are fetched the latest attempt is long enough ago.** -/
lemma Cached.gap (h : Cached cfg g v) (hle : cfg.minRefreshInterval ≤ cfg.ttl) {kid : Json}
    {now : ℚ} {unknown : Bool} (hunknown : v.isUnknownKey cfg kid now = .ok unknown)
    (hfetch : (v.isStale cfg now || unknown) = true) (hkeys : v.keys.isSome) {b : Attempt}
    (hb : g.attempts.head? = some b) : b.time + cfg.minRefreshInterval ≤ now := by
  obtain ⟨keys, hsome⟩ := Option.isSome_iff_exists.mp hkeys
  rcases Bool.or_eq_true_iff.mp hfetch with hstale | rfl
  · have hlate : cfg.ttl < now - v.fetchedAt := by
      simpa [Verifier.isStale, hsome] using hstale
    rw [h.fetchedAt b hb hkeys] at hlate
    split at hlate
    · linarith
    · linarith
  · have hlast : v.lastAttempt = some b.time := by rw [h.lastAttempt, hb]; rfl
    obtain ⟨-, -, -, -, hlong⟩ := Verifier.isUnknownKey_true hunknown
    linarith [hlong b.time hlast]

/-- The look-up of a key does not fail. -/
lemma Cached.exists_isUnknownKey (h : Cached cfg g v) (kid : Json) (now : ℚ) :
    ∃ unknown, v.isUnknownKey cfg kid now = .ok unknown := by
  cases hkeys : v.keys with
  | none => exact ⟨false, by rw [Verifier.isUnknownKey, hkeys]⟩
  | some keys =>
      obtain ⟨key, hkey⟩ := h.distinct keys hkeys kid
      simp only [Verifier.isUnknownKey, hkeys, hkey]
      cases kid.truthy with
      | false => exact ⟨false, rfl⟩
      | true =>
          cases key with
          | none => exact ⟨_, rfl⟩
          | some key => exact ⟨false, rfl⟩

/-- An unknown key id is noticed when the latest attempt is long enough ago. -/
lemma Cached.isUnknownKey (h : Cached cfg g v) {kid : Json} {keys : Jose.KeySet} {now : ℚ}
    (hkid : kid.truthy) (hkeys : v.keys = some keys) (hnone : Jose.getKey keys kid = .ok none)
    (hgap : ∀ b, g.attempts.head? = some b → b.time + cfg.minRefreshInterval ≤ now) :
    v.isUnknownKey cfg kid now = .ok true := by
  simp only [Verifier.isUnknownKey, hkeys, hkid, hnone, h.lastAttempt, if_true]
  cases hb : g.attempts.head? with
  | none => rfl
  | some b =>
      have hlong : now - b.time ≥ cfg.minRefreshInterval := by linarith [hgap b hb]
      simpa using hlong

/-- There is a latest successful fetch when there are keys. -/
lemma Cached.exists_latest (h : Cached cfg g v) (hkeys : v.keys.isSome) :
    ∃ a, latestFetch g.attempts = some a ∧ a.keys = v.keys := by
  have hbind := h.keys
  cases ha : latestFetch g.attempts with
  | none =>
      rw [hbind, ha] at hkeys
      cases hkeys
  | some a => exact ⟨a, rfl, by rw [hbind, ha]; rfl⟩

/-- Keys that are not stale are current. -/
lemma Cached.current (h : Cached cfg g v) (hfresh : v.isStale cfg g.now = false) :
    g.Current cfg v.keys := by
  obtain ⟨hnone, hdec⟩ := Bool.or_eq_false_iff.mp hfresh
  have hkeys : v.keys.isSome := by simpa using hnone
  have hin : g.now - v.fetchedAt ≤ cfg.ttl := by simpa using hdec
  obtain ⟨b, hb⟩ := h.exists_head hkeys
  have hfetchedAt := h.fetchedAt b hb hkeys
  obtain ⟨a, ha, hak⟩ := h.exists_latest hkeys
  refine ⟨a, ha, hak, ?_⟩
  split at hfetchedAt
  · -- the latest attempt succeeded
    have hab : a = b := by
      obtain ⟨older, hat⟩ : ∃ older, g.attempts = b :: older := List.head?_eq_some_iff.mp hb
      rw [hat, latestFetch, List.find?_cons_of_pos ‹_›] at ha
      exact (Option.some.inj ha).symm
    subst hab
    rw [hfetchedAt] at hin
    exact Or.inl hin
  · refine Or.inr ⟨b, hb, by simpa using ‹¬ b.keys.isSome›, ?_⟩
    rw [hfetchedAt] at hin
    linarith

/-- **One more attempt.** -/
lemma Cached.attempt (h : Cached cfg g v) {now : ℚ} {asked : Option ℚ}
    {keys : Option Jose.KeySet} {v' : Verifier}
    (hgap : Fetched g.attempts → ∀ b, g.attempts.head? = some b →
      b.time + cfg.minRefreshInterval ≤ now)
    (hdistinct : ∀ k, keys = some k → Distinct k)
    (hkeys : v'.keys = keys.or v.keys) (hlast : v'.lastAttempt = some now)
    (hfetchedAt : v'.keys.isSome → v'.fetchedAt =
      if keys.isSome then now else now - cfg.ttl + cfg.minRefreshInterval) :
    Cached cfg ⟨now, asked, ⟨now, keys⟩ :: g.attempts⟩ v' := by
  refine ⟨?_, hlast, ?_, ?_, ?_, h.spaced, hgap⟩
  · rw [hkeys, h.keys]
    cases keys with
    | none => simp
    | some k => simp
  · rintro b hb
    obtain rfl := Option.some.inj hb
    exact le_rfl
  · rintro b hb
    obtain rfl := Option.some.inj hb
    exact hfetchedAt
  · intro k hk
    rw [hkeys] at hk
    cases keys with
    | none => exact h.distinct k hk
    | some k' => exact hdistinct k hk

/-! ## One call -/

/-- A key id that is not among the keys has caused an attempt, when the latest one was long enough
ago at the reading of `_keys_for`. -/
def LooksUp (cfg : VerifierConfig) (kid : Json) (g : Watched) (v : Verifier) (g' : Watched) :
    Prop :=
  ∀ keys t, kid.truthy → v.keys = some keys → Jose.getKey keys kid = .ok none →
    g'.asked = some t →
    (∀ b, g.attempts.head? = some b → b.time + cfg.minRefreshInterval ≤ t) →
    ∃ a, g'.attempts = a :: g.attempts

/-- The fetch of `_keys_for`, once it has decided on it. -/
lemma fetch_wp (hpos : 0 < cfg.minRefreshInterval) (hle : cfg.minRefreshInterval ≤ cfg.ttl)
    (kid : Json) (h : Cached cfg g v) {now : ℚ} {unknown locked : Bool} (asked : Option ℚ)
    (hunknown : v.isUnknownKey cfg kid now = .ok unknown)
    (hfetch : (v.isStale cfg now || unknown) = true) :
    (fetchLocked cfg .keysFor).wp (keyCache cfg)
      (fun _ g' v' => Cached cfg g' v' ∧ (∃ a, g'.attempts = a :: g.attempts)
        ∧ g'.Current cfg v'.keys)
      (fun e g' v' => Cached cfg g' v' ∧ (∃ a, g'.attempts = a :: g.attempts)
        ∧ e = unavailable ∧ ¬ Fetched g'.attempts)
      ⟨now, asked, g.attempts⟩ { v with locked := locked } := by
  have hgap : ∀ t, now ≤ t → Fetched g.attempts → ∀ b, g.attempts.head? = some b →
      b.time + cfg.minRefreshInterval ≤ t := fun t ht hfetched b hb =>
    (h.gap hle hunknown hfetch (h.fetched_iff.mp hfetched) hb).trans ht
  refine fetchLocked_wp cfg ⟨h.kept, trivial⟩ (fun e g' v' henv => ?_)
    (fun t g' v' henv => ?_) (fun _ _ _ _ _ _ henv => henv.1.1 rfl)
    (fun t g₁ v₁ r g₂ v₂ henv₁ henv₂ => ?_)
  · obtain ⟨⟨_, herr, -⟩, -, -⟩ := henv
    cases herr
  · obtain ⟨⟨_, hok, ht⟩, rfl, rfl⟩ := henv
    obtain rfl := Except.ok.inj hok
    exact ⟨h.kept, hgap t ht⟩
  · obtain ⟨⟨_, hok, ht⟩, rfl, rfl⟩ := henv₁
    obtain rfl := Except.ok.inj hok
    obtain ⟨⟨-, hdistinct⟩, rfl, rfl⟩ := henv₂
    have hghost : (Watched.next ⟨now, asked, g.attempts⟩ (.clock (.fetch .keysFor)) (.ok t)).next
        .certs r = ⟨t, asked, ⟨t, fetchedKeys r⟩ :: g.attempts⟩ := rfl
    have hafter : ∀ v', v'.keys = (fetchedKeys r).or v.keys → v'.lastAttempt = some t →
        (v'.keys.isSome → v'.fetchedAt = if (fetchedKeys r).isSome then t
          else t - cfg.ttl + cfg.minRefreshInterval) →
        Cached cfg ⟨t, asked, ⟨t, fetchedKeys r⟩ :: g.attempts⟩ v' :=
      fun v' => h.attempt (hgap t ht) hdistinct
    rw [hghost]
    change FetchPost cfg _ _ _ _ _ (fetchedKeys r) v.keys
    generalize fetchedKeys r = fetched at hafter
    cases fetched with
    | some keys =>
        refine ⟨hafter _ rfl rfl fun _ => rfl, ⟨_, rfl⟩, ⟨t, some keys⟩, rfl, rfl, Or.inl ?_⟩
        change t - t ≤ cfg.ttl
        linarith
    | none =>
        cases hold : v.keys with
        | some keys =>
            intro log
            obtain ⟨a, ha, hak⟩ := h.exists_latest (by rw [hold]; rfl)
            refine ⟨hafter _ hold.symm rfl fun _ => rfl, ⟨_, rfl⟩, a, ha, hak.trans hold,
              Or.inr ⟨⟨t, none⟩, rfl, rfl, ?_⟩⟩
            change t - t ≤ cfg.minRefreshInterval
            linarith
        | none =>
            intro log
            refine ⟨hafter _ hold.symm rfl nofun, ⟨_, rfl⟩, rfl, ?_⟩
            · rintro ⟨a, ha, hkeys⟩
              rcases List.mem_cons.mp ha with rfl | ha
              · cases hkeys
              · have hsome := h.fetched_iff.mp ⟨a, ha, hkeys⟩
                rw [hold] at hsome
                cases hsome

/-- `_keys_for` gives current keys, or fails when there never were any. -/
lemma keysFor_cached (hpos : 0 < cfg.minRefreshInterval) (hle : cfg.minRefreshInterval ≤ cfg.ttl)
    (kid : Json) (h : Cached cfg g v) (hlocked : v.locked = false) :
    (keysFor cfg kid).wp (keyCache cfg)
      (fun keys g' v' => Cached cfg g' v' ∧ v'.locked = false ∧ LooksUp cfg kid g v g'
        ∧ g'.Current cfg keys)
      (fun e g' v' => Cached cfg g' v' ∧ v'.locked = false ∧ LooksUp cfg kid g v g'
        ∧ e = unavailable ∧ ¬ Fetched g'.attempts) g v := by
  refine keysFor_wp cfg ⟨h.kept, hlocked⟩ (fun _ _ _ henv => by cases henv.1)
    (fun _ g' v' henv => ?_) (fun _ g₁ v₁ now g' v' henv₁ henv => ?_)
  · obtain ⟨-, rfl, rfl⟩ := henv
    refine ⟨⟨h.kept, trivial⟩, fun e _ _ henv => ?_⟩
    obtain ⟨⟨_, herr, -⟩, -, -⟩ := henv
    cases herr
  · obtain ⟨-, rfl, rfl⟩ := henv₁
    obtain ⟨⟨_, hok, hnow⟩, rfl, rfl⟩ := henv
    obtain rfl := Except.ok.inj hok
    obtain ⟨unknown, hunknown⟩ := h.exists_isUnknownKey kid now
    change LookUpPre cfg _ _ _ _ _ _ (v.isUnknownKey cfg kid now)
    rw [hunknown]
    refine ⟨fun hfresh hknown => ?_, fun hfetch => ?_⟩
    · have hc : Cached cfg ⟨now, some now, g₁.attempts⟩ v := h.later hnow _ v.locked v.log
      refine ⟨hc.later le_rfl _ _ _, rfl, ?_, hc.current hfresh⟩
      intro keys t hkid hkeys hnone hasked hgap
      obtain rfl := Option.some.inj hasked
      have htrue := h.isUnknownKey hkid hkeys hnone hgap
      rw [hunknown, hknown] at htrue
      cases htrue
    · refine Co.wp_mono (fetch_wp hpos hle kid h (some now) hunknown hfetch)
        (fun _ g' v' ⟨hc, ha, hcurrent⟩ => ?_) (fun e g' v' ⟨hc, ha, he⟩ => ?_)
      · exact ⟨hc.later le_rfl _ _ _, rfl, fun _ _ _ _ _ _ _ => ha, hcurrent⟩
      · exact ⟨hc.later le_rfl _ _ _, rfl, fun _ _ _ _ _ _ _ => ha, he⟩

/-- What a completed call has done: it keeps the invariant, and looks for a key it does not
know. -/
structure Called (cfg : VerifierConfig) (token : Jose.Token) (g : Watched) (v : Verifier)
    (g' : Watched) (v' : Verifier) : Prop where
  cached : Cached cfg g' v'
  unlocked : v'.locked = false
  looked : ∀ kid, Jose.kidOf token = .ok kid → LooksUp cfg kid g v g'

/-- The service is said to be unavailable only when it always was. -/
def Says (g' : Watched) (e : AuthRaised) : Prop :=
  ∀ m, e = .exception (.serviceUnavailableError m) → ¬ Fetched g'.attempts

omit [Jose] in
lemma checkClaim_error {option : Option String} {name : String} {accepts : String → Json → Bool}
    {claims : Json} {e : AuthRaised} (h : checkClaim option name accepts claims = .error e)
    (m : String) : e ≠ .exception (.serviceUnavailableError m) := by
  rw [checkClaim] at h
  split at h
  · split at h
    · obtain rfl := Except.error.inj h
      nofun
    · split at h
      · cases h
      · obtain rfl := Except.error.inj h
        nofun
  · cases h

omit [Jose] in
/-- A claim that is not accepted says nothing about the service. -/
lemma checkClaims_error {claims : Json} {e : AuthRaised}
    (h : checkClaims cfg claims = .error e) (m : String) :
    e ≠ .exception (.serviceUnavailableError m) := by
  rw [checkClaims] at h
  cases hiss : checkClaim cfg.issuer "iss" Json.isText claims with
  | error e' =>
      rw [hiss] at h
      obtain rfl := Except.error.inj h
      exact checkClaim_error hiss m
  | ok _ =>
      rw [hiss] at h
      cases haud : checkClaim cfg.audience "aud" Json.accepts claims with
      | error e' =>
          rw [haud] at h
          obtain rfl := Except.error.inj h
          exact checkClaim_error haud m
      | ok _ =>
          rw [haud] at h
          cases h

/-- `decode` keeps the contract and the invariant. -/
theorem decodeWith_wp (hpos : 0 < cfg.minRefreshInterval)
    (hle : cfg.minRefreshInterval ≤ cfg.ttl) (token : Jose.Token) (h : Cached cfg g v)
    (hlocked : v.locked = false) :
    (decodeWith cfg token).wp (keyCache cfg) (fun _ g' v' => Called cfg token g v g' v')
      (fun e g' v' => Called cfg token g v g' v' ∧ Says g' e) g v := by
  rw [decodeWith]
  cases hkid : Jose.kidOf token with
  | error e =>
      refine ⟨⟨h, hlocked, ?_⟩, nofun⟩
      intro kid hok
      rw [hkid] at hok
      cases hok
  | ok kid =>
      have hcalled : ∀ {g' v'}, Cached cfg g' v' → v'.locked = false → LooksUp cfg kid g v g' →
          Called cfg token g v g' v' := by
        intro g' v' hc hl hlook
        refine ⟨hc, hl, fun kid' hok => ?_⟩
        rw [hkid] at hok
        obtain rfl := Except.ok.inj hok
        exact hlook
      dsimp only
      rw [Co.wp_bind]
      refine Co.wp_mono (keysFor_cached hpos hle kid h hlocked)
        (fun keys g' v' ⟨hc, hl, hlook, hcurrent⟩ => ?_)
        (fun e g' v' ⟨hc, hl, hlook, he, hnever⟩ => ⟨hcalled hc hl hlook, fun _ _ => hnever⟩)
      simp only [Co.wp_bind, wp_exceptError]
      refine ask_wp ⟨hc.kept, hcurrent⟩ (fun claims g₁ v₁ henv => ?_)
        (fun e g₁ v₁ henv => ?_)
      · obtain ⟨-, rfl, rfl⟩ := henv
        cases hclaims : checkClaims cfg claims with
        | ok claims => exact hcalled hc hl hlook
        | error e =>
            exact ⟨hcalled hc hl hlook, fun m he => absurd he (checkClaims_error hclaims m)⟩
      · obtain ⟨-, rfl, rfl⟩ := henv
        cases e with
        | cancelled => exact ⟨hcalled hc hl hlook, nofun⟩
        | exception e => exact ⟨hcalled hc hl hlook, nofun⟩

/-! ## Every sequence of calls -/

variable (cfg)

/-- What calls of `decode`, one after the other, make of a new verifier. -/
inductive Session : Watched → Verifier → Prop
  | init (now : ℚ) : Session ⟨now, none, []⟩ .init
  | call {g g' : Watched} {v v' : Verifier} (h : Session g v) (token : Jose.Token)
      {tr : List (Exchange authSig)} {r : Except AuthRaised Json}
      (hrun : Run (decodeWith cfg token v) tr (.done r v'))
      (hadm : (keyCache cfg).Admits g tr g') : Session g' v'

variable {cfg}

/-- The invariant holds between the calls. -/
theorem Session.cached (hpos : 0 < cfg.minRefreshInterval)
    (hle : cfg.minRefreshInterval ≤ cfg.ttl) (h : Session cfg g v) :
    Cached cfg g v ∧ v.locked = false := by
  induction h with
  | init now => exact ⟨⟨rfl, rfl, nofun, nofun, nofun, trivial⟩, rfl⟩
  | call _ token hrun hadm ih =>
      have hwp := Program.wp_run (decodeWith_wp hpos hle token ih.1 ih.2) hrun hadm
      revert hwp
      rename_i r
      cases r with
      | ok claims => exact fun hwp => ⟨hwp.cached, hwp.unlocked⟩
      | error e => exact fun hwp => ⟨hwp.1.cached, hwp.1.unlocked⟩

/-- **The discipline of the key cache**, in every sequence of calls of `decode`, finished or not,
whatever the key ids are and however the requests for the keys end:

* once there are keys they are never dropped, and `decode` never raises
  `ServiceUnavailableError`;
* from then on two attempts in a row are at least `min_refresh_interval` apart;
* a token is verified with the keys of the latest successful fetch, which is at most `ttl` old, or
  else the latest attempt has failed and is at most `min_refresh_interval` old;
* a key id that is not among the keys causes an attempt when the latest one is at least
  `min_refresh_interval` old. -/
theorem key_cache_discipline (cfg : VerifierConfig) (hpos : 0 < cfg.minRefreshInterval)
    (hle : cfg.minRefreshInterval ≤ cfg.ttl) (g : Watched) (v : Verifier) (h : Session cfg g v)
    (token : Jose.Token) (tr : List (Exchange authSig)) (q : Program authSig Json) (g' : Watched)
    (hrun : Run (decodeWith cfg token v) tr q) (hadm : (keyCache cfg).Admits g tr g') :
    (Fetched g'.attempts →
      (∀ v', q.state? = some v' → v'.keys.isSome)
      ∧ ∀ m v', q ≠ .done (.error (.exception (.serviceUnavailableError m))) v')
    ∧ (∀ v', q.state? = some v' → Spaced cfg g'.attempts)
    ∧ (q.command? = some .certs → Fetched g'.attempts →
        ∀ b, g'.attempts.head? = some b → b.time + cfg.minRefreshInterval ≤ g'.now)
    ∧ (∀ keys token' algs leeway, q.command? = some (.validate keys token' algs leeway) →
        g'.Current cfg keys)
    ∧ ∀ r v' kid keys t, q = .done r v' → Jose.kidOf token = .ok kid → kid.truthy →
        v.keys = some keys → Jose.getKey keys kid = .ok none → g'.asked = some t →
        (∀ b, g.attempts.head? = some b → b.time + cfg.minRefreshInterval ≤ t) →
        ∃ a, g'.attempts = a :: g.attempts := by
  obtain ⟨hcached, hlocked⟩ := h.cached hpos hle
  have hwp := Program.wp_run (decodeWith_wp hpos hle token hcached hlocked) hrun hadm
  cases q with
  | done r v' =>
      have hcalled : Called cfg token g v g' v' := by
        cases r with
        | ok claims => exact hwp
        | error e => exact hwp.1
      have hkept := hcalled.cached.kept
      refine ⟨fun hfetched => ⟨?_, ?_⟩, ?_, nofun, nofun, ?_⟩
      · rintro _ ⟨⟩
        exact hkept.1 hfetched
      · rintro m _ ⟨⟩
        exact hwp.2 m rfl hfetched
      · rintro _ ⟨⟩
        exact hkept.2
      · rintro _ _ kid keys t ⟨⟩ hkid
        exact hcalled.looked kid hkid keys t
  | await c v' k =>
      obtain ⟨hkept, hmay⟩ := hwp.1
      refine ⟨fun hfetched => ⟨?_, nofun⟩, ?_, ?_, ?_, nofun⟩
      · rintro _ ⟨⟩
        exact hkept.1 hfetched
      · rintro _ ⟨⟩
        exact hkept.2
      · rintro ⟨⟩
        exact hmay
      · rintro keys token' algs leeway ⟨⟩
        exact hmay
  | spent => exact ⟨fun _ => ⟨nofun, nofun⟩, nofun, nofun, nofun, nofun⟩

end Discipline

end Cache

section Example

attribute [local instance] kidJose

/-- The awaits of the first call, which fetches the keys. -/
def firstCall : List (Exchange authSig) :=
  [⟨.acquire, .init, .ok (), ⟨none, 0, none, true, []⟩⟩,
    ⟨.clock .keysFor, ⟨none, 0, none, true, []⟩, .ok (7 : ℚ), ⟨none, 0, none, true, []⟩⟩,
    ⟨.clock (.fetch .keysFor), ⟨none, 0, none, true, []⟩, .ok (7 : ℚ),
      ⟨none, 0, none, true, []⟩⟩,
    ⟨.certs, ⟨none, 0, some 7, true, []⟩, .ok ["k1"], ⟨none, 0, some 7, true, []⟩⟩,
    ⟨.validate (some ["k1"]) (.str "k1") allowedAlgorithms 60,
      ⟨some ["k1"], 7, some 7, false, []⟩, .ok (.obj []), ⟨some ["k1"], 7, some 7, false, []⟩⟩]

/-- The first call leaves the verifier with the keys. -/
theorem key_cache_discipline_first : ∃ (v' : Verifier) (g' : Watched),
    Run (decodeWith {} (.str "k1") .init) firstCall (.done (.ok (.obj [])) v')
    ∧ Fetched g'.attempts ∧ v'.keys.isSome := by
  have hrun : Run (decodeWith {} (.str "k1") Verifier.init) firstCall
      (.done (.ok (.obj [])) ⟨some ["k1"], 7, some 7, false, []⟩) :=
    .cons _ _ (.cons _ _ (.cons _ _ (.cons _ _ (.cons _ _ (.nil _)))))
  have hdistinct : ∀ keys : List String, Distinct keys := fun _ _ => ⟨_, rfl⟩
  have hadm : (keyCache {}).Admits ⟨0, none, []⟩ firstCall ⟨7, some 7, [⟨7, some ["k1"]⟩]⟩ := by
    refine .cons ⟨rfl, rfl, rfl⟩ (.cons ⟨⟨7, rfl, by decide⟩, rfl, rfl⟩
      (.cons ⟨⟨7, rfl, le_rfl⟩, rfl, rfl⟩ (.cons ⟨⟨nofun, ?_⟩, rfl, rfl⟩
        (.cons ⟨trivial, rfl, rfl⟩ (.nil _)))))
    exact fun keys _ => hdistinct keys
  have hfetched : Fetched [⟨7, some ["k1"]⟩] := ⟨_, List.mem_cons_self .., rfl⟩
  have hdiscipline := key_cache_discipline {} (by decide) (by decide) _ _ (.init 0) (.str "k1")
    _ _ _ hrun hadm
  exact ⟨_, ⟨7, some 7, [⟨7, some ["k1"]⟩]⟩, hrun, hfetched, (hdiscipline.1 hfetched).1 _ rfl⟩

end Example

end Atsig
