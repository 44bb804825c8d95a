import AtsigCommon.Auth.Verifier
import Mathlib.Tactic.NormNum

/-!
# Where `adecode_token` fetches the keys

`adecode_token` asks twice whether the keys have to be fetched.  `needs_refresh`, before the
thread is started, looks at the age of the keys; `_keys_for`, on the event loop and at a later
reading of the clock, also looks for the key id of the token.  When the answers differ the event
loop fetches the keys itself.

* `Inputs` — what one call meets: the readings of the clock and the outcome of the request.
* `Quiet` — in terms of the verifier, the inputs and the key id: the event loop fetches nothing.
* `no_fetch_on_loop_iff` — that this is exact.
-/

namespace Atsig

open Coroutine Python

section Call

variable [Jose]

/-- What one call of `adecode_token` meets, while nobody else uses the verifier: the readings of
the clock in `needs_refresh` on the event loop, in `needs_refresh` and `_fetch_locked` in the
thread and in `_keys_for`, and how the request of the thread ends. -/
structure Inputs where
  atLoop : ℚ
  atRecheck : ℚ
  atFetch : ℚ
  atKeysFor : ℚ
  certs : Except AuthError Jose.Certs

/-- What `certs` answers in the thread. -/
def Inputs.answer (x : Inputs) : Except AuthRaised Jose.Certs :=
  x.certs.mapError .exception

/-- The keys that the thread gets. -/
def Inputs.fetched (x : Inputs) : Option Jose.KeySet := fetchedKeys x.answer

section Quiet

variable (cfg : VerifierConfig)

/-- With these keys, fetched and attempted at these times, `_keys_for` does not fetch at `now`. -/
def Calm (keys : Jose.KeySet) (fetchedAt : ℚ) (lastAttempt : Option ℚ) (kid : Json) (now : ℚ) :
    Prop :=
  if kid.truthy then
    match Jose.getKey keys kid with
    | .error _ => True
    | .ok (some _) => now - fetchedAt ≤ cfg.ttl
    | .ok none => now - fetchedAt ≤ cfg.ttl
        ∧ ∃ last, lastAttempt = some last ∧ now - last < cfg.minRefreshInterval
  else now - fetchedAt ≤ cfg.ttl

variable {cfg} in
/-- That is what `_keys_for` decides. -/
lemma calm_iff {v : Verifier} {keys : Jose.KeySet} (hkeys : v.keys = some keys) (kid : Json)
    (now : ℚ) : Calm cfg keys v.fetchedAt v.lastAttempt kid now ↔
      match v.isUnknownKey cfg kid now with
      | .error _ => True
      | .ok unknown => v.isStale cfg now = false ∧ unknown = false := by
  have hstale : v.isStale cfg now = false ↔ now - v.fetchedAt ≤ cfg.ttl := by
    simp [Verifier.isStale, hkeys]
  rw [Calm, Verifier.isUnknownKey, hkeys]
  dsimp only
  cases kid.truthy with
  | false => simp [hstale]
  | true =>
      cases Jose.getKey keys kid with
      | error e => simp
      | ok key =>
          cases key with
          | some key => simp [hstale]
          | none => cases v.lastAttempt <;> simp [hstale]

/-- **When the event loop fetches nothing**: the client has no `certs`; the token is malformed;
the first fetch fails in the thread; or what is cached when the thread is done is calm for the key
id. -/
def Quiet (x : Inputs) (token : Jose.Token) (v : Verifier) : Prop :=
  cfg.hasCerts = false ∨
    match Jose.kidOf token, v.keys, x.fetched with
    | .error _, _, _ => True
    | .ok _, none, none => True
    | .ok kid, none, some new => Calm cfg new x.atFetch (some x.atFetch) kid x.atKeysFor
    | .ok kid, some keys, fetched =>
        if x.atLoop - v.fetchedAt > cfg.ttl ∧ x.atRecheck - v.fetchedAt > cfg.ttl then
          match fetched with
          | some new => Calm cfg new x.atFetch (some x.atFetch) kid x.atKeysFor
          | none => Calm cfg keys (x.atFetch - cfg.ttl + cfg.minRefreshInterval) (some x.atFetch)
              kid x.atKeysFor
        else Calm cfg keys v.fetchedAt v.lastAttempt kid x.atKeysFor

end Quiet

/-! ## The thread -/

/-- How an await ends in the thread. -/
def Inputs.thread (x : Inputs) : Contract authSig Unit where
  may _ _ _ := True
  env _ v c r _ v' :=
    match c with
    | .clock .needsRefresh => r = .ok x.atRecheck ∧ v' = v
    | .clock _ => r = .ok x.atFetch ∧ v' = v
    | .certs => r = x.answer ∧ v' = v
    | .acquire => r = .ok () ∧ v' = { v with locked := true }
    | _ => False

variable (cfg : VerifierConfig)

/-- What the thread leaves behind. -/
def Inputs.Threaded (x : Inputs) (v : Verifier) (r : Except AuthRaised Unit) (v' : Verifier) :
    Prop :=
  match v.keys, x.fetched with
  | none, none => r = .error unavailable
  | none, some new => r = .ok () ∧ v'.keys = some new ∧ v'.fetchedAt = x.atFetch
      ∧ v'.lastAttempt = some x.atFetch
  | some keys, fetched =>
      r = .ok () ∧
        if x.atRecheck - v.fetchedAt > cfg.ttl then
          v'.lastAttempt = some x.atFetch ∧
            match fetched with
            | some new => v'.keys = some new ∧ v'.fetchedAt = x.atFetch
            | none => v'.keys = some keys
                ∧ v'.fetchedAt = x.atFetch - cfg.ttl + cfg.minRefreshInterval
        else v' = v

variable {cfg}

lemma Inputs.answer_ne (x : Inputs) : x.answer ≠ .error .cancelled := by
  rw [Inputs.answer]
  cases x.certs with
  | ok certs => nofun
  | error e => nofun

/-- `refresh` in the thread. -/
lemma refresh_threaded (x : Inputs) (v : Verifier) :
    (refresh cfg).wp x.thread
      (fun _ _ v' => v'.lastAttempt = some x.atFetch ∧
        match x.fetched, v.keys with
        | some new, _ => v'.keys = some new ∧ v'.fetchedAt = x.atFetch
        | none, some keys => v'.keys = some keys
            ∧ v'.fetchedAt = x.atFetch - cfg.ttl + cfg.minRefreshInterval
        | none, none => False)
      (fun e _ _ => e = unavailable ∧ x.fetched = none ∧ v.keys = none) () v := by
  rw [refresh]
  refine withLock_wp trivial (fun _ _ v₁ henv => ?_) (fun e _ v₁ henv => by cases henv.1)
  obtain rfl : v₁ = { v with locked := true } := henv.2
  refine fetchLocked_wp cfg trivial (fun e _ v' henv => by cases henv.1) (fun _ _ _ _ => trivial)
    (fun _ _ _ _ _ _ henv => x.answer_ne henv.1.symm) (fun now _ v₂ r _ v₃ henv₂ henv₃ => ?_)
  obtain ⟨hnow, rfl⟩ := henv₂
  obtain rfl := Except.ok.inj hnow
  obtain ⟨rfl, rfl⟩ := henv₃
  change FetchPost cfg _ _ _ _ _ x.fetched v.keys
  cases x.fetched with
  | some new => exact ⟨rfl, rfl, rfl⟩
  | none =>
      cases hkeys : v.keys with
      | some keys => exact fun log => ⟨rfl, rfl, rfl⟩
      | none => exact fun log => ⟨rfl, rfl, rfl⟩

/-- `_refresh_if_needed` leaves behind what the inputs say. -/
lemma refreshIfNeeded_threaded (x : Inputs) (v : Verifier) :
    (refreshIfNeeded cfg).wp x.thread (fun _ _ v' => x.Threaded cfg v (.ok ()) v')
      (fun e _ v' => x.Threaded cfg v (.error e) v') () v := by
  have hrefresh : v.keys = none ∨ x.atRecheck - v.fetchedAt > cfg.ttl →
      (refresh cfg).wp x.thread (fun _ _ v' => x.Threaded cfg v (.ok ()) v')
        (fun e _ v' => x.Threaded cfg v (.error e) v') () v := by
    intro hstale
    refine Co.wp_mono (refresh_threaded x v) (fun _ _ v' h => ?_) (fun e _ v' h => ?_)
    · obtain ⟨hlast, hkeys⟩ := h
      rw [Inputs.Threaded]
      cases hold : v.keys with
      | none =>
          rw [hold] at hkeys
          cases hnew : x.fetched with
          | none => rw [hnew] at hkeys; exact hkeys.elim
          | some new => rw [hnew] at hkeys; exact ⟨rfl, hkeys.1, hkeys.2, hlast⟩
      | some keys =>
          rw [hold] at hkeys hstale
          have hlate : x.atRecheck - v.fetchedAt > cfg.ttl := hstale.resolve_left nofun
          dsimp only
          rw [if_pos hlate]
          cases hnew : x.fetched with
          | none => rw [hnew] at hkeys; exact ⟨rfl, hlast, hkeys⟩
          | some new => rw [hnew] at hkeys; exact ⟨rfl, hlast, hkeys⟩
    · obtain ⟨rfl, hnew, hold⟩ := h
      rw [Inputs.Threaded, hold, hnew]
  rw [refreshIfNeeded, Co.wp_bind]
  refine needsRefresh_wp cfg (fun hnone => hrefresh (Or.inl hnone)) (fun _ => trivial)
    (fun now _ v₁ hsome henv => ?_) (fun e _ v₁ henv => by cases henv.1)
  obtain ⟨hnow, rfl⟩ := henv
  obtain rfl := Except.ok.inj hnow
  by_cases hlate : x.atRecheck - v₁.fetchedAt > cfg.ttl
  · simp only [hlate, decide_true, if_true]
    exact hrefresh (Or.inr hlate)
  · simp only [hlate, decide_false]
    change x.Threaded cfg v₁ (.ok ()) v₁
    obtain ⟨keys, hkeys⟩ := Option.isSome_iff_exists.mp hsome
    rw [Inputs.Threaded, hkeys]
    exact ⟨rfl, by rw [if_neg hlate]⟩

/-! ## The event loop -/

/-- How an await ends on the event loop: `to_thread` when the thread has ended, `certs` and its
clock in any way. -/
def Inputs.Answers (x : Inputs) (cfg : VerifierConfig) (v : Verifier) :
    (c : AuthCommand) → Except AuthRaised c.Answer → Verifier → Prop
  | .clock .needsRefresh, r, v' => r = .ok x.atLoop ∧ v' = v
  | .clock .keysFor, r, v' => r = .ok x.atKeysFor ∧ v' = v
  | .clock (.fetch _), r, v' => (∃ now, r = .ok now) ∧ v' = v
  | .certs, r, v' => r ≠ .error .cancelled ∧ v' = v
  | .acquire, r, v' => r = .ok () ∧ v' = { v with locked := true }
  | .validate .., _, v' => v' = v
  | .clientDecode _, _, v' => v' = v
  | .toThread, r, v' => ∃ tr, Run (refreshIfNeeded cfg v) tr (.done r v')
      ∧ x.thread.Admits () tr ()

/-- The keys were fetched here. -/
@[simp] def AuthCommand.isCerts : AuthCommand → Bool
  | .certs => true
  | _ => false

/-- The contract of the event loop: it fetches the keys only when that is `allowed`.  The ghost
state is whether it has. -/
def Inputs.loop (x : Inputs) (cfg : VerifierConfig) (allowed : Prop) : Contract authSig Bool where
  may _ _ c := c.isCerts → allowed
  env g v c r g' v' := x.Answers cfg v c r v' ∧ g' = (g || c.isCerts)

/-- A thread that has ended has left behind what the inputs say. -/
lemma threaded_of_run {x : Inputs} {v v' : Verifier} {r : Except AuthRaised Unit}
    {tr : List (Exchange authSig)} (hrun : Run (refreshIfNeeded cfg v) tr (.done r v'))
    (hadm : x.thread.Admits () tr ()) : x.Threaded cfg v r v' := by
  have hwp := Program.wp_run (refreshIfNeeded_threaded x v) hrun hadm
  cases r with
  | ok _ => exact hwp
  | error e => exact hwp

/-- `_keys_for` fetches the keys unless they are calm. -/
lemma keysFor_loop (x : Inputs) {allowed : Prop} {kid : Json} {v : Verifier}
    {keys : Jose.KeySet} (hkeys : v.keys = some keys)
    (hallowed : ¬ Calm cfg keys v.fetchedAt v.lastAttempt kid x.atKeysFor → allowed) :
    (keysFor cfg kid).wp (x.loop cfg allowed)
      (fun _ g _ => g = true ↔ ¬ Calm cfg keys v.fetchedAt v.lastAttempt kid x.atKeysFor)
      (fun _ g _ => g = true ↔ ¬ Calm cfg keys v.fetchedAt v.lastAttempt kid x.atKeysFor)
      false v := by
  refine keysFor_wp cfg nofun (fun _ _ _ henv => by cases henv.1.1) (fun _ g' v' henv => ?_)
    (fun _ g₁ v₁ now g' v' henv₁ henv => ?_)
  · exact ⟨nofun, fun _ _ _ henv => by cases henv.1.1⟩
  · obtain ⟨⟨-, rfl⟩, rfl⟩ := henv₁
    obtain ⟨⟨hnow, rfl⟩, rfl⟩ := henv
    obtain rfl := Except.ok.inj hnow
    have hcalm : Calm cfg keys v.fetchedAt v.lastAttempt kid x.atKeysFor ↔ _ :=
      calm_iff hkeys kid x.atKeysFor
    change LookUpPre cfg _ _ _ _ _ _ (v.isUnknownKey cfg kid x.atKeysFor)
    cases hunknown : v.isUnknownKey cfg kid x.atKeysFor with
    | error e =>
        rw [hunknown] at hcalm
        simp [LookUpPre, hcalm]
    | ok unknown =>
        rw [hunknown] at hcalm
        refine ⟨fun hfresh hknown => ?_, fun hfetch => ?_⟩
        · simp [hcalm.mpr ⟨hfresh, hknown⟩]
        · have hnot : ¬ Calm cfg keys v.fetchedAt v.lastAttempt kid x.atKeysFor := by
            rw [hcalm]
            rintro ⟨hfresh, hknown⟩
            change (v.isStale cfg x.atKeysFor || unknown) = true at hfetch
            rw [hfresh, hknown] at hfetch
            cases hfetch
          refine fetchLocked_wp cfg nofun (fun _ _ _ henv => ?_) (fun _ _ _ _ _ => hallowed hnot)
            (fun _ _ _ _ _ _ henv => henv.1.1 rfl) (fun now _ v₂ r _ v₃ henv₂ henv₃ => ?_)
          · obtain ⟨now, hnow⟩ := henv.1.1
            cases hnow
          · obtain ⟨⟨-, rfl⟩, rfl⟩ := henv₃
            cases fetchedKeys r with
            | some new => simp [FetchPost, hnot]
            | none => cases v₂.keys <;> simp [FetchPost, hnot]

/-! What is quiet, by how the call goes on. -/

section Cases

variable {x : Inputs} {token : Jose.Token} {v v' : Verifier} {keys : Jose.KeySet} {kid : Json}

lemma quiet_of_malformed {e : PyException} (htoken : Jose.kidOf token = .error e) :
    Quiet cfg x token v := by
  rw [Quiet, htoken]
  exact Or.inr trivial

lemma quiet_of_fresh (hcerts : cfg.hasCerts = true) (hkeys : v.keys = some keys)
    (hfresh : ¬ (x.atLoop - v.fetchedAt > cfg.ttl ∧ x.atRecheck - v.fetchedAt > cfg.ttl))
    (hkid : Jose.kidOf token = .ok kid) : Quiet cfg x token v
      ↔ Calm cfg keys v.fetchedAt v.lastAttempt kid x.atKeysFor := by
  simp [Quiet, hcerts, hkid, hkeys, if_neg hfresh]

variable (token) in
/-- The thread has ended well. -/
lemma quiet_of_threaded (hcerts : cfg.hasCerts = true)
    (hstale : v.keys = none ∨ x.atLoop - v.fetchedAt > cfg.ttl)
    (hthreaded : x.Threaded cfg v (.ok ()) v') : ∃ keys, v'.keys = some keys ∧
      ∀ kid, Jose.kidOf token = .ok kid → (Quiet cfg x token v
        ↔ Calm cfg keys v'.fetchedAt v'.lastAttempt kid x.atKeysFor) := by
  rw [Inputs.Threaded] at hthreaded
  cases hkeys : v.keys with
  | none =>
      rw [hkeys] at hthreaded
      cases hnew : x.fetched with
      | none =>
          rw [hnew] at hthreaded
          cases hthreaded
      | some new =>
          rw [hnew] at hthreaded
          obtain ⟨-, hk, hf, hl⟩ := hthreaded
          refine ⟨new, hk, fun kid hkid => ?_⟩
          simp [Quiet, hcerts, hkid, hkeys, hnew, hf, hl]
  | some keys =>
      rw [hkeys] at hthreaded hstale
      obtain ⟨-, hthreaded⟩ := hthreaded
      have hloop : x.atLoop - v.fetchedAt > cfg.ttl := hstale.resolve_left nofun
      split at hthreaded
      · rename_i hrecheck
        obtain ⟨hl, hthreaded⟩ := hthreaded
        cases hnew : x.fetched with
        | none =>
            rw [hnew] at hthreaded
            refine ⟨keys, hthreaded.1, fun kid hkid => ?_⟩
            rw [hthreaded.2, hl, Quiet, hcerts, hkid, hkeys, hnew]
            simp only [if_pos (And.intro hloop hrecheck)]
            simp
        | some new =>
            rw [hnew] at hthreaded
            refine ⟨new, hthreaded.1, fun kid hkid => ?_⟩
            rw [hthreaded.2, hl, Quiet, hcerts, hkid, hkeys, hnew]
            simp only [if_pos (And.intro hloop hrecheck)]
            simp
      · rename_i hrecheck
        subst hthreaded
        exact ⟨keys, hkeys, fun kid hkid =>
          quiet_of_fresh hcerts hkeys (fun h => hrecheck h.2) hkid⟩

/-- The thread has failed. -/
lemma quiet_of_unavailable {e : AuthRaised} (hthreaded : x.Threaded cfg v (.error e) v') :
    Quiet cfg x token v := by
  rw [Inputs.Threaded] at hthreaded
  cases hkeys : v.keys with
  | none =>
      rw [hkeys] at hthreaded
      cases hnew : x.fetched with
      | none =>
          rw [Quiet, hkeys, hnew]
          cases Jose.kidOf token <;> exact Or.inr trivial
      | some new =>
          rw [hnew] at hthreaded
          cases hthreaded.1
  | some keys =>
      rw [hkeys] at hthreaded
      cases hthreaded.1

end Cases

/-- `decode` on the event loop, when there are keys. -/
lemma decodeWith_loop (x : Inputs) (token : Jose.Token) {quiet : Prop} {v : Verifier}
    {keys : Jose.KeySet} (hkeys : v.keys = some keys)
    (hbad : ∀ e, Jose.kidOf token = .error e → quiet)
    (hcalm : ∀ kid, Jose.kidOf token = .ok kid →
      (quiet ↔ Calm cfg keys v.fetchedAt v.lastAttempt kid x.atKeysFor)) :
    (decodeWith cfg token).wp (x.loop cfg (¬ quiet)) (fun _ g _ => g = true ↔ ¬ quiet)
      (fun _ g _ => g = true ↔ ¬ quiet) false v := by
  rw [decodeWith]
  cases hkid : Jose.kidOf token with
  | error e =>
      have hquiet := hbad e hkid
      change false = true ↔ ¬ quiet
      simp [hquiet]
  | ok kid =>
      dsimp only
      rw [Co.wp_bind]
      refine Co.wp_mono (keysFor_loop x hkeys fun hnot => ?_) (fun keys' g v' h => ?_)
        (fun e g v' h => ?_)
      · rwa [hcalm kid hkid]
      · rw [← hcalm kid hkid] at h
        simp only [Co.wp_bind, wp_exceptError]
        refine ask_wp nofun (fun claims g' v'' henv => ?_) (fun e g' v'' henv => ?_)
        · obtain ⟨-, rfl⟩ := henv
          rw [← Bool.or_false g] at h
          cases checkClaims cfg claims <;> exact h
        · obtain ⟨-, rfl⟩ := henv
          rw [← Bool.or_false g] at h
          cases e <;> exact h
      · rw [hcalm kid hkid]
        exact h

/-- **`adecode_token`** fetches the keys on the event loop unless that is quiet. -/
theorem adecodeToken_loop (x : Inputs) (token : Jose.Token) (v : Verifier) :
    (adecodeToken cfg token).wp (x.loop cfg (¬ Quiet cfg x token v))
      (fun _ g _ => g = true ↔ ¬ Quiet cfg x token v)
      (fun _ g _ => g = true ↔ ¬ Quiet cfg x token v) false v := by
  rw [adecodeToken, Co.wp_bind, refreshInThread, decodeToken]
  cases hcerts : cfg.hasCerts with
  | false =>
      have hquiet : Quiet cfg x token v := Or.inl hcerts
      simp only [Bool.false_eq_true, if_false, Co.wp_pure, wp_exceptError]
      refine ask_wp nofun (fun _ g' _ henv => ?_) (fun e g' _ henv => ?_)
      · simp [henv.2, hquiet]
      · cases e <;> simp [henv.2, hquiet]
  | true =>
      simp only [if_true]
      have hthread : v.keys = none ∨ x.atLoop - v.fetchedAt > cfg.ttl →
          toThread.wp (x.loop cfg (¬ Quiet cfg x token v))
            (fun _ => (decodeWith cfg token).wp (x.loop cfg (¬ Quiet cfg x token v))
              (fun _ g _ => g = true ↔ ¬ Quiet cfg x token v)
              (fun _ g _ => g = true ↔ ¬ Quiet cfg x token v))
            (fun _ g _ => g = true ↔ ¬ Quiet cfg x token v) false v := by
        intro hstale
        refine ask_wp nofun (fun _ g' v' henv => ?_) (fun e g' v' henv => ?_)
        · obtain ⟨⟨tr, hrun, hadm⟩, rfl⟩ := henv
          obtain ⟨keys, hkeys, hcalm⟩ :=
            quiet_of_threaded token hcerts hstale (threaded_of_run hrun hadm)
          exact decodeWith_loop x token hkeys (fun e => quiet_of_malformed) hcalm
        · obtain ⟨⟨tr, hrun, hadm⟩, rfl⟩ := henv
          have hquiet : Quiet cfg x token v := quiet_of_unavailable (threaded_of_run hrun hadm)
          simp [hquiet]
      rw [Co.wp_bind]
      refine needsRefresh_wp cfg (fun hnone => hthread (Or.inl hnone)) (fun _ => nofun)
        (fun now g' v' hsome henv => ?_) (fun e _ _ henv => by cases henv.1.1)
      obtain ⟨⟨hnow, rfl⟩, rfl⟩ := henv
      obtain rfl := Except.ok.inj hnow
      by_cases hlate : x.atLoop - v'.fetchedAt > cfg.ttl
      · simp only [hlate, decide_true, if_true]
        exact hthread (Or.inr hlate)
      · simp only [hlate, decide_false]
        obtain ⟨keys, hkeys⟩ := Option.isSome_iff_exists.mp hsome
        exact decodeWith_loop x token hkeys (fun e => quiet_of_malformed)
          fun kid hkid => quiet_of_fresh hcerts hkeys (fun h => hlate h.1) hkid

/-- The surroundings of a run are those of the inputs. -/
def Inputs.Met (x : Inputs) (cfg : VerifierConfig) (tr : List (Exchange authSig)) : Prop :=
  ∀ y ∈ tr, x.Answers cfg y.before y.command y.answer y.after

lemma Inputs.Met.admits {x : Inputs} {allowed : Prop} : ∀ {tr : List (Exchange authSig)} (g : Bool),
    x.Met cfg tr → (x.loop cfg allowed).Admits g tr (g || tr.any fun y => y.command.isCerts)
  | [], g, _ => by
      rw [List.any_nil, Bool.or_false]
      exact .nil g
  | y :: tr, g, h => by
      rw [List.any_cons, ← Bool.or_assoc]
      exact .cons ⟨h y (List.mem_cons_self ..), rfl⟩
        (Inputs.Met.admits _ fun y' hy' => h y' (List.mem_cons_of_mem _ hy'))

/-- **When `adecode_token` never fetches the keys on the event loop**: exactly when the call is
quiet.  A call that is quiet does not, at any point of its run; one that has ended without having
fetched the keys there was quiet. -/
theorem no_fetch_on_loop_iff (cfg : VerifierConfig) (x : Inputs) (token : Jose.Token)
    (v : Verifier) (tr : List (Exchange authSig)) (q : Program authSig Json)
    (hrun : Run (adecodeToken cfg token v) tr q) (hmet : x.Met cfg tr) :
    (Quiet cfg x token v → .certs ∉ commands tr q)
      ∧ ∀ r v', q = .done r v' → .certs ∉ commands tr q → Quiet cfg x token v := by
  have hwp : (adecodeToken cfg token).wp (x.loop cfg (¬ Quiet cfg x token v)) _ _ false v :=
    adecodeToken_loop x token v
  have hq := Program.wp_run hwp hrun (hmet.admits false)
  refine ⟨fun hquiet hmem => ?_, ?_⟩
  · rcases List.mem_append.mp hmem with hmem | hmem
    · -- it was sent and answered
      obtain ⟨y, hy, hcmd⟩ := List.mem_map.mp hmem
      obtain ⟨pre, post, rfl⟩ := List.append_of_mem hy
      have hpre : x.Met cfg pre := fun y' hy' => hmet y' (List.mem_append_left _ hy')
      have hmay := Program.wp_run_may hwp hrun (hpre.admits false)
      exact hmay (by rw [hcmd]; rfl) hquiet
    · -- it is pending
      cases q with
      | done r v' => cases hmem
      | spent => cases hmem
      | await c v' k =>
          obtain rfl : c = .certs := (List.mem_singleton.mp hmem).symm
          exact hq.1 rfl hquiet
  · rintro r v' rfl hnone
    have hflag : (false || tr.any fun y => y.command.isCerts) = true ↔ ¬ Quiet cfg x token v := by
      cases r <;> exact hq
    by_contra hnot
    obtain ⟨y, hy, hcerts⟩ := List.any_eq_true.mp (hflag.mpr hnot)
    refine hnone (List.mem_append_left _ (List.mem_map.mpr ⟨y, hy, ?_⟩))
    generalize y.command = c at hcerts
    cases c with
    | certs => rfl
    | clock | acquire | validate | clientDecode | toThread => cases hcerts

end Call

section Example

attribute [local instance] kidJose

/-- A verifier that fetched the key `k1` at the time `0`. -/
def oneKey : Verifier := ⟨some ["k1"], 0, some 0, false, []⟩

/-- The clock stands at `31`, and Keycloak has a second key by now. -/
def rotated : Inputs := ⟨31, 31, 31, 31, .ok ["k1", "k2"]⟩

/-- The awaits of a call for `oneKey`, up to the decision of `_keys_for`. -/
def lookedUp : List (Exchange authSig) :=
  [⟨.clock .needsRefresh, oneKey, .ok (31 : ℚ), oneKey⟩,
    ⟨.acquire, oneKey, .ok (), { oneKey with locked := true }⟩,
    ⟨.clock .keysFor, { oneKey with locked := true }, .ok (31 : ℚ),
      { oneKey with locked := true }⟩]

lemma lookedUp_met : rotated.Met {} lookedUp := by
  intro y hy
  simp only [lookedUp, List.mem_cons, List.not_mem_nil, or_false] at hy
  rcases hy with rfl | rfl | rfl
  · exact ⟨rfl, rfl⟩
  · exact ⟨rfl, rfl⟩
  · exact ⟨rfl, rfl⟩

/-- The key `k1` is verified without a fetch. -/
theorem no_fetch_on_loop_k1 : ∃ q : Program authSig Json,
    Run (adecodeToken {} (.str "k1") oneKey) lookedUp q ∧ .certs ∉ commands lookedUp q := by
  obtain ⟨q, hrun⟩ : ∃ q, Run (adecodeToken {} (.str "k1") oneKey) lookedUp q := by
    with_unfolding_all exact ⟨_, .cons _ _ (.cons _ _ (.cons _ _ (.nil _)))⟩
  have hquiet : Quiet {} rotated (.str "k1") oneKey := by
    refine (quiet_of_fresh rfl rfl ?_ rfl).mpr ?_
    · norm_num [rotated, oneKey]
    · have hkey : Jose.getKey ["k1"] (.str "k1") = .ok (some "k1") := rfl
      norm_num [Calm, rotated, oneKey, hkey]
  exact ⟨_, hrun, (no_fetch_on_loop_iff {} rotated (.str "k1") oneKey _ _ hrun lookedUp_met).1 hquiet⟩

/-- **A key that is not in the cache is fetched on the event loop**: `needs_refresh` has found the
keys fresh, and `_keys_for` looks for the new one. -/
theorem fetched_on_loop : ∃ (x : Inputs) (v : Verifier) (tr : List (Exchange authSig))
    (q : Program authSig Json), Run (adecodeToken {} (.str "k2") v) tr q ∧ x.Met {} tr
      ∧ .certs ∈ commands tr q := by
  obtain ⟨q, hrun, hcerts⟩ : ∃ q, Run (adecodeToken {} (.str "k2") oneKey) (lookedUp ++
      [⟨.clock (.fetch .keysFor), { oneKey with locked := true }, .ok (31 : ℚ),
        { oneKey with locked := true }⟩]) q ∧ q.command? = some .certs := by
    with_unfolding_all
      exact ⟨_, .cons _ _ (.cons _ _ (.cons _ _ (.cons _ _ (.nil _)))), rfl⟩
  refine ⟨rotated, oneKey, _, q, hrun, ?_, ?_⟩
  · intro y hy
    rcases List.mem_append.mp hy with hy | hy
    · exact lookedUp_met y hy
    · obtain rfl := List.mem_singleton.mp hy
      exact ⟨⟨_, rfl⟩, rfl⟩
  · rw [commands, hcerts]
    exact List.mem_append_right _ (List.mem_singleton_self _)

end Example

end Atsig
