import AtsigCommon.Coroutine.Contract
import AtsigCommon.Logger.Context
import AtsigCommon.Python.Values

/-!
# The lifespan of a service

`Core` of `atsig_common.bootstrap` starts the clients of a service and stops them, and
`make_lifespan` puts both around the application.  What has been started is kept on a stack, so that
stopping takes from it whatever is there.

* `Core.start`, `Core.stop`, `lifespan` — the coroutines, over any resources and callbacks.
* `LifespanOutcome` — everything that happens, in its order.
* `lifespan_outcome` — nothing is left open.
-/

namespace Atsig

open Coroutine Python

/-! ## The coroutines -/

/-- `self._started`, and the log. -/
structure CoreState (ρ : Type) where
  started : List ρ := []
  log : List (Level × String) := []

/-- What a core awaits: the start and the stop of a resource, the application between them
(`yield`), and the callbacks of `on_stop`. -/
inductive CoreCommand (ρ κ : Type)
  | start (resource : ρ)
  | stop (resource : ρ)
  | application
  | callback (callback : κ)

@[reducible] def coreSig (ρ κ : Type) : Signature :=
  ⟨CoreState ρ, CoreCommand ρ κ, fun _ => Unit, Raised⟩

/-- A coroutine of the core. -/
abbrev CoreCo (ρ κ : Type) (α : Type) := Co (coreSig ρ κ) α

section Coroutines

variable {ρ κ : Type} (name : ρ → String)

/-- `logger.error(text)` -/
def logCoreError (text : String) : CoreCo ρ κ Unit :=
  .modify fun s => { s with log := s.log ++ [(.error, text)] }

/-- `except Exception as e` -/
def exceptCoreException (x : CoreCo ρ κ Unit) (handler : PyException → CoreCo ρ κ Unit) :
    CoreCo ρ κ Unit :=
  x.protect fun
    | .exception e => handler e
    | .cancelled => .raise .cancelled

/-- `stop`, with at most `fuel` passes of the loop. -/
def Core.stop : (fuel : ℕ) → CoreCo ρ κ Unit
  | 0 => .spent
  | fuel + 1 => do
      match (← Co.get).started.getLast? with
      | none => return ()
      | some resource =>
          .modify fun s => { s with started := s.started.dropLast }
          exceptCoreException (Co.call (S := coreSig ρ κ) (.stop resource)) fun e =>
            logCoreError ("[Core] Stopping '" ++ name resource ++ "' failed: " ++ e.typeName)
          Core.stop fuel

/-- The loop of `start` over the resources. -/
def startResources : List ρ → CoreCo ρ κ Unit
  | [] => return ()
  | resource :: resources => do
      Co.call (S := coreSig ρ κ) (.start resource)
      .modify fun s => { s with started := s.started ++ [resource] }
      startResources resources

/-- `start`: `except BaseException: await self.stop(); raise` -/
def Core.start (fuel : ℕ) (resources : List ρ) : CoreCo ρ κ Unit :=
  (startResources resources).protect fun e => do
    Core.stop name fuel
    .raise e

/-- The loop over `on_stop`. -/
def runCallbacks : List κ → CoreCo ρ κ Unit
  | [] => return ()
  | callback :: callbacks => do
      exceptCoreException (Co.call (S := coreSig ρ κ) (.callback callback)) fun e =>
        logCoreError ("[Core] A shutdown step failed: " ++ e.typeName)
      runCallbacks callbacks

/-- `try: x finally: last` -/
def tryFinally (x last : CoreCo ρ κ Unit) : CoreCo ρ κ Unit :=
  x.andThen fun r => do
    last
    Co.ofExcept (S := coreSig ρ κ) r

/-- The lifespan around a body. -/
def lifespan (fuel : ℕ) (resources : List ρ) (onStop : List κ) (body : CoreCo ρ κ Unit) :
    CoreCo ρ κ Unit := do
  Core.start name fuel resources
  tryFinally body do
    Core.stop name fuel
    runCallbacks onStop

/-- Calls of `stop`, one after the other. -/
def extraStops (fuel : ℕ) : (n : ℕ) → CoreCo ρ κ Unit
  | 0 => return ()
  | n + 1 => do
      Core.stop name fuel
      extraStops fuel n

/-- A service that calls `stop` before its lifespan, in it and after it, as often as it likes. -/
def service (fuel : ℕ) (resources : List ρ) (onStop : List κ) (before inside after : ℕ) :
    CoreCo ρ κ (Except Raised Unit) := do
  extraStops name fuel before
  let r ← (lifespan name fuel resources onStop do
    extraStops name fuel inside
    Co.call (S := coreSig ρ κ) .application).attempt
  extraStops name fuel after
  return r

end Coroutines

/-! ## `Core` -/

/-- The clients of `_resources`. -/
inductive CoreClient
  | http
  | redis
  | storage
  deriving DecidableEq, Repr

/-- The name of the client in the log. -/
def CoreClient.name : CoreClient → String
  | .http => "http"
  | .redis => "redis"
  | .storage => "storage"

/-- Which clients are not `None`. -/
structure Core where
  apiFactory : Bool
  redis : Bool
  storage : Bool

/-- `_resources` -/
def Core.resources (core : Core) : List CoreClient :=
  (if core.apiFactory then [.http] else []) ++ (if core.redis then [.redis] else [])
    ++ (if core.storage then [.storage] else [])

/-! ## What happens -/

/-- An await of the core that has ended. -/
inductive CoreEvent (ρ κ : Type)
  | started (resource : ρ)
  | failed (resource : ρ) (e : Raised)
  | stopped (resource : ρ)
  | ended (r : Except Raised Unit)
  | called (callback : κ)

section Events

variable {ρ κ : Type}

/-- The event of an exchange.  A stop counts whether it fails or not, and so does a callback. -/
def coreEvent (x : Exchange (coreSig ρ κ)) : CoreEvent ρ κ :=
  match x.command, x.answer with
  | .start resource, .ok _ => .started resource
  | .start resource, .error e => .failed resource e
  | .stop resource, _ => .stopped resource
  | .application, r => .ended r
  | .callback callback, _ => .called callback

/-- An exchange as it is possible: a stop or a callback raises no more than an `Exception`, and
nothing else takes from the stack.  Calls of `stop` from elsewhere come before the lifespan, in its
body or after it; none runs while it awaits a start, a stop or a callback. -/
structure Ordinary (x : Exchange (coreSig ρ κ)) : Prop where
  stop : ∀ resource, x.command = .stop resource → x.answer ≠ .error .cancelled
  callback : ∀ callback, x.command = .callback callback → x.answer ≠ .error .cancelled
  started : x.after.started = x.before.started

/-- **Everything that happens**, and what the lifespan raises. -/
inductive LifespanOutcome (resources : List ρ) (onStop : List κ) :
    List (CoreEvent ρ κ) → Except Raised Unit → Prop
  /-- A resource does not start: the ones before it are stopped, the last one first. -/
  | failed (pre post : List ρ) (resource : ρ) (e : Raised)
      (h : resources = pre ++ resource :: post) :
      LifespanOutcome resources onStop
        (pre.map .started ++ [.failed resource e] ++ pre.reverse.map .stopped) (.error e)
  /-- All of them start, and are stopped in the reverse order, some of them perhaps while the
  application runs.  The callbacks come last. -/
  | ended (early late : List ρ) (r : Except Raised Unit) (h : resources.reverse = early ++ late) :
      LifespanOutcome resources onStop
        (resources.map .started ++ early.map .stopped ++ [.ended r] ++ late.map .stopped
          ++ onStop.map .called) r

/-- What the core is told, with the events as the ghost state. -/
def CoreServing (ρ κ : Type) : Contract (coreSig ρ κ) (List (CoreEvent ρ κ)) where
  may _ _ _ := True
  env g s c r g' s' := Ordinary ⟨c, s, r, s'⟩ ∧ g' = g ++ [coreEvent ⟨c, s, r, s'⟩]
  cut _ := False

lemma admits_serving (g : List (CoreEvent ρ κ)) {tr : List (Exchange (coreSig ρ κ))}
    (h : ∀ x ∈ tr, Ordinary x) : (CoreServing ρ κ).Admits g tr (g ++ tr.map coreEvent) := by
  induction tr generalizing g with
  | nil =>
      rw [List.map_nil, List.append_nil]
      exact .nil g
  | cons x tr ih =>
      have hrest := ih (g ++ [coreEvent x]) fun y hy => h y (List.mem_cons_of_mem _ hy)
      rw [List.append_assoc, List.singleton_append] at hrest
      exact .cons ⟨h x (List.mem_cons_self ..), rfl⟩ hrest

/-! ## One step after the other -/

variable {name : ρ → String} {g : List (CoreEvent ρ κ)} {s : CoreState ρ}
  {φ : Unit → List (CoreEvent ρ κ) → CoreState ρ → Prop}
  {ψ : Raised → List (CoreEvent ρ κ) → CoreState ρ → Prop}

/-- An await whose `Exception` is logged. -/
lemma exceptCoreException_wp {c : CoreCommand ρ κ} {text : PyException → String}
    (hcancel : ∀ x : Exchange (coreSig ρ κ), x.command = c → Ordinary x →
      x.answer ≠ .error .cancelled)
    (hpost : ∀ x : Exchange (coreSig ρ κ), x.command = c → ∀ s', s'.started = s.started →
      φ () (g ++ [coreEvent x]) s') :
    (exceptCoreException (Co.call (S := coreSig ρ κ) c) fun e => logCoreError (text e)).wp
      (CoreServing ρ κ) φ ψ g s := by
  rw [exceptCoreException, Co.wp_protect]
  refine ⟨trivial, ?_⟩
  rintro r g' s' ⟨hordinary, rfl⟩
  have hstarted : s'.started = s.started := hordinary.started
  cases r with
  | ok a => exact hpost ⟨c, s, .ok a, s'⟩ rfl s' hstarted
  | error e =>
      cases e with
      | cancelled => exact absurd rfl (hcancel ⟨c, s, .error .cancelled, s'⟩ rfl hordinary)
      | exception e => exact hpost ⟨c, s, .error (.exception e), s'⟩ rfl _ hstarted

/-- **The stop of a core** empties the stack from its end. -/
lemma coreStop_wp : ∀ {fuel : ℕ} {g : List (CoreEvent ρ κ)} {s : CoreState ρ},
    s.started.length < fuel → (Core.stop (κ := κ) name fuel).wp (CoreServing ρ κ)
      (fun _ g' s' => s'.started = [] ∧ g' = g ++ s.started.reverse.map .stopped)
      (fun _ _ _ => False) g s
  | fuel + 1, g, s, hfuel => by
      rw [Core.stop, Co.wp_bind, Co.wp_get]
      dsimp only
      cases hlast : s.started.getLast? with
      | none =>
          rw [List.getLast?_eq_none_iff] at hlast
          refine ⟨hlast, ?_⟩
          rw [hlast]
          exact (List.append_nil g).symm
      | some resource =>
          obtain ⟨started, hstarted⟩ := List.getLast?_eq_some_iff.mp hlast
          dsimp only
          rw [Co.wp_bind, Co.wp_modify, Co.wp_bind]
          refine exceptCoreException_wp (fun x hx hordinary => hordinary.stop resource hx) ?_
          intro x hx s' hs'
          have hs'' : s'.started = started := by
            rw [hs', hstarted, List.dropLast_concat]
          have hevent : coreEvent x = .stopped resource := by
            obtain ⟨c, b, r, a⟩ := x
            obtain rfl : c = .stop resource := hx
            rfl
          have hlength : s'.started.length < fuel := by
            rw [hs'']
            rw [hstarted, List.length_append, List.length_singleton] at hfuel
            omega
          refine Co.wp_mono (coreStop_wp hlength) ?_ fun _ _ _ h => h
          rintro _ g' s₂ ⟨hempty, rfl⟩
          refine ⟨hempty, ?_⟩
          rw [hevent, hs'', hstarted, List.reverse_concat, List.map_cons, List.append_assoc,
            List.singleton_append]

/-- Extra calls of `stop` take some of the stack, from its end. -/
lemma extraStops_wp {fuel : ℕ} : ∀ {n : ℕ} {g : List (CoreEvent ρ κ)} {s : CoreState ρ},
    s.started.length < fuel → (extraStops (κ := κ) name fuel n).wp (CoreServing ρ κ)
      (fun _ g' s' => ∃ early, s.started.reverse = early ++ s'.started.reverse
        ∧ g' = g ++ early.map .stopped)
      (fun _ _ _ => False) g s
  | 0, g, s, _ => ⟨[], rfl, (List.append_nil g).symm⟩
  | n + 1, g, s, hfuel => by
      rw [extraStops, Co.wp_bind]
      refine Co.wp_mono (coreStop_wp hfuel) ?_ fun _ _ _ h => h
      rintro _ g' s' ⟨hempty, rfl⟩
      have hshort : s'.started.length < fuel := by
        rw [hempty]
        exact Nat.zero_lt_of_lt hfuel
      refine Co.wp_mono (extraStops_wp (n := n) hshort) ?_ fun _ _ _ h => h
      rintro _ g'' s'' ⟨early, hearly, rfl⟩
      rw [hempty, List.reverse_nil] at hearly
      obtain ⟨rfl, hrest⟩ := List.append_eq_nil_iff.mp hearly.symm
      refine ⟨s.started.reverse, ?_, List.append_nil _⟩
      rw [hrest, List.append_nil]

/-- On an empty stack they do nothing. -/
lemma extraStops_idle_wp {fuel n : ℕ} (hempty : s.started = []) (hfuel : 0 < fuel) :
    (extraStops (κ := κ) name fuel n).wp (CoreServing ρ κ)
      (fun _ g' s' => s'.started = [] ∧ g' = g) (fun _ _ _ => False) g s := by
  have hshort : s.started.length < fuel := by
    rw [hempty]
    exact hfuel
  refine Co.wp_mono (extraStops_wp hshort) ?_ fun _ _ _ h => h
  rintro _ g' s' ⟨early, hearly, rfl⟩
  rw [hempty, List.reverse_nil] at hearly
  obtain ⟨rfl, hrest⟩ := List.append_eq_nil_iff.mp hearly.symm
  exact ⟨List.reverse_eq_nil_iff.mp hrest, List.append_nil g⟩

/-- The loop of `start`. -/
lemma startResources_wp : ∀ {resources : List ρ} {g : List (CoreEvent ρ κ)} {s : CoreState ρ},
    (startResources (κ := κ) resources).wp (CoreServing ρ κ)
      (fun _ g' s' => s'.started = s.started ++ resources ∧ g' = g ++ resources.map .started)
      (fun e g' s' => ∃ pre post resource, resources = pre ++ resource :: post
        ∧ s'.started = s.started ++ pre ∧ g' = g ++ pre.map .started ++ [.failed resource e]) g s
  | [], g, s => ⟨(List.append_nil _).symm, (List.append_nil _).symm⟩
  | resource :: resources, g, s => by
      rw [startResources, Co.wp_bind]
      refine ⟨trivial, ?_⟩
      rintro r g' s' ⟨hordinary, rfl⟩
      have hstarted : s'.started = s.started := hordinary.started
      cases r with
      | error e =>
          exact ⟨[], resources, resource, rfl, by rw [hstarted, List.append_nil],
            by simp [coreEvent]⟩
      | ok a =>
          show Co.wp _ (Co.modify _ >>= fun _ => startResources resources) _ _ _ _
          rw [Co.wp_bind, Co.wp_modify]
          refine Co.wp_mono startResources_wp ?_ ?_
          · rintro _ g' s'' ⟨hs'', rfl⟩
            refine ⟨?_, ?_⟩
            · rw [hs'', hstarted, List.append_assoc, List.singleton_append]
            · rw [List.map_cons, List.append_assoc, List.singleton_append]
              rfl
          · rintro e g' s'' ⟨pre, post, failing, rfl, hs'', rfl⟩
            refine ⟨resource :: pre, post, failing, rfl, ?_, ?_⟩
            · rw [hs'', hstarted, List.append_assoc, List.singleton_append]
            · rw [List.map_cons, List.append_assoc g, List.singleton_append]
              rfl

/-- `start`: all of the resources, or none of them. -/
lemma coreStart_wp {fuel : ℕ} {resources : List ρ} (hempty : s.started = [])
    (hfuel : resources.length < fuel) :
    (Core.start (κ := κ) name fuel resources).wp (CoreServing ρ κ)
      (fun _ g' s' => s'.started = resources ∧ g' = g ++ resources.map .started)
      (fun e g' s' => s'.started = [] ∧ ∃ pre post resource, resources = pre ++ resource :: post
        ∧ g' = g ++ pre.map .started ++ [.failed resource e] ++ pre.reverse.map .stopped) g s := by
  rw [Core.start, Co.wp_protect]
  refine Co.wp_mono startResources_wp ?_ ?_
  · rintro _ g' s' ⟨hs', rfl⟩
    rw [hempty, List.nil_append] at hs'
    exact ⟨hs', rfl⟩
  · rintro e g' s' ⟨pre, post, resource, rfl, hs', rfl⟩
    rw [hempty, List.nil_append] at hs'
    have hshort : s'.started.length < fuel := by
      rw [hs']
      rw [List.length_append] at hfuel
      omega
    rw [Co.wp_bind]
    refine Co.wp_mono (coreStop_wp hshort) ?_ fun _ _ _ h => h.elim
    rintro _ g'' s'' ⟨hdone, rfl⟩
    rw [hs']
    exact ⟨hdone, pre, post, resource, rfl, rfl⟩

/-- The callbacks, all of them. -/
lemma runCallbacks_wp : ∀ {onStop : List κ} {g : List (CoreEvent ρ κ)} {s : CoreState ρ},
    (runCallbacks (ρ := ρ) onStop).wp (CoreServing ρ κ)
      (fun _ g' s' => s'.started = s.started ∧ g' = g ++ onStop.map .called)
      (fun _ _ _ => False) g s
  | [], g, s => ⟨rfl, (List.append_nil g).symm⟩
  | callback :: onStop, g, s => by
      rw [runCallbacks, Co.wp_bind]
      refine exceptCoreException_wp (fun x hx hordinary => hordinary.callback callback hx) ?_
      intro x hx s' hs'
      have hevent : coreEvent x = .called callback := by
        obtain ⟨c, b, r, a⟩ := x
        obtain rfl : c = .callback callback := hx
        rfl
      refine Co.wp_mono runCallbacks_wp ?_ fun _ _ _ h => h
      rintro _ g' s'' ⟨hs'', rfl⟩
      refine ⟨hs''.trans hs', ?_⟩
      rw [hevent, List.map_cons, List.append_assoc, List.singleton_append]

variable (name) in
/-- The end of the lifespan: `finally` after the application. -/
lemma finally_wp {fuel : ℕ} {resources early : List ρ} (onStop : List κ) (r : Except Raised Unit)
    (hfuel : s.started.length < fuel) (hstarted : resources.reverse = early ++ s.started.reverse)
    (hg : g = resources.map .started ++ early.map .stopped ++ [.ended r]) :
    (do
      (do
        Core.stop name fuel
        runCallbacks onStop)
      Co.ofExcept (S := coreSig ρ κ) r : CoreCo ρ κ Unit).wp (CoreServing ρ κ)
        (fun a g' s' => s'.started = [] ∧ LifespanOutcome resources onStop g' (.ok a))
        (fun e g' s' => s'.started = [] ∧ LifespanOutcome resources onStop g' (.error e)) g s := by
  rw [Co.wp_bind, Co.wp_bind]
  refine Co.wp_mono (coreStop_wp hfuel) ?_ fun _ _ _ h => h.elim
  rintro _ g' s' ⟨hdone, rfl⟩
  refine Co.wp_mono runCallbacks_wp ?_ fun _ _ _ h => h.elim
  rintro _ g'' s'' ⟨hs'', rfl⟩
  have houtcome : LifespanOutcome resources onStop
      (g ++ s.started.reverse.map .stopped ++ onStop.map .called) r := by
    rw [hg]
    exact .ended early s.started.reverse r hstarted
  cases r with
  | ok a => exact ⟨hs''.trans hdone, houtcome⟩
  | error e => exact ⟨hs''.trans hdone, houtcome⟩

/-- **The lifespan.** -/
lemma lifespan_wp {fuel inside : ℕ} {resources : List ρ} {onStop : List κ}
    (hempty : s.started = []) (hfuel : resources.length < fuel) :
    (lifespan name fuel resources onStop do
      extraStops name fuel inside
      Co.call (S := coreSig ρ κ) .application).wp (CoreServing ρ κ)
        (fun a g' s' => s'.started = [] ∧ LifespanOutcome resources onStop g' (.ok a))
        (fun e g' s' => s'.started = [] ∧ LifespanOutcome resources onStop g' (.error e)) [] s := by
  rw [lifespan, Co.wp_bind]
  refine Co.wp_mono (coreStart_wp hempty hfuel) ?_ ?_
  · rintro _ g₁ s₁ ⟨hs₁, rfl⟩
    have hshort : s₁.started.length < fuel := by rwa [hs₁]
    rw [tryFinally, Co.wp_andThen, Co.wp_bind]
    refine Co.wp_mono (extraStops_wp hshort) ?_ fun _ _ _ h => h.elim
    rintro _ g₂ s₂ ⟨early, hearly, rfl⟩
    refine ⟨trivial, ?_⟩
    rintro r g₃ s₃ ⟨hordinary, rfl⟩
    have hs₃ : s₃.started = s₂.started := hordinary.started
    have hreverse : resources.reverse = early ++ s₃.started.reverse := by
      rw [hs₃, ← hearly, hs₁]
    have hshort₃ : s₃.started.length < fuel := by
      have hlength := congrArg List.length hreverse
      rw [List.length_reverse, List.length_append, List.length_reverse] at hlength
      omega
    have hlast := finally_wp (g := [] ++ resources.map .started ++ early.map .stopped
      ++ [.ended r]) name onStop r hshort₃ hreverse rfl
    cases r with
    | ok a => exact hlast
    | error e => exact hlast
  · rintro e g₁ s₁ ⟨hs₁, pre, post, resource, h, rfl⟩
    exact ⟨hs₁, .failed pre post resource e h⟩

/-- A service, with stops before, in and after its lifespan. -/
lemma service_wp {fuel before inside after : ℕ} {resources : List ρ} {onStop : List κ}
    (hempty : s.started = []) (hfuel : resources.length < fuel) :
    (service name fuel resources onStop before inside after).wp (CoreServing ρ κ)
      (fun r g' s' => s'.started = [] ∧ LifespanOutcome resources onStop g' r)
      (fun _ _ _ => False) [] s := by
  have hpos : 0 < fuel := Nat.zero_lt_of_lt hfuel
  have hlast : ∀ (r : Except Raised Unit) (g : List (CoreEvent ρ κ)) (s : CoreState ρ),
      s.started = [] ∧ LifespanOutcome resources onStop g r → (do
        extraStops name fuel after
        return r : CoreCo ρ κ (Except Raised Unit)).wp (CoreServing ρ κ)
          (fun r g' s' => s'.started = [] ∧ LifespanOutcome resources onStop g' r)
          (fun _ _ _ => False) g s := by
    rintro r g s ⟨hs, houtcome⟩
    rw [Co.wp_bind]
    refine Co.wp_mono (extraStops_idle_wp hs hpos) ?_ fun _ _ _ h => h
    rintro _ g' s' ⟨hs', rfl⟩
    exact ⟨hs', houtcome⟩
  rw [service, Co.wp_bind]
  refine Co.wp_mono (extraStops_idle_wp hempty hpos) ?_ fun _ _ _ h => h
  rintro _ g₁ s₁ ⟨hs₁, rfl⟩
  rw [Co.wp_bind, Co.wp_attempt]
  exact Co.wp_mono (lifespan_wp hs₁ hfuel) (fun a g' s' h => hlast (.ok a) g' s' h)
    fun e g' s' h => hlast (.error e) g' s' h

variable (name) in
/-- **Nothing is left open.**  Whatever starts, stops and callbacks fail, however the application
ends and however often `stop` is called besides, the service comes to an end in one of the two ways,
with an empty stack. -/
theorem lifespan_outcome (resources : List ρ) (onStop : List κ) (before inside after : ℕ)
    {fuel : ℕ} (hfuel : resources.length < fuel) {s : CoreState ρ} (hempty : s.started = [])
    {tr : List (Exchange (coreSig ρ κ))} {q : Program (coreSig ρ κ) (Except Raised Unit)}
    (hrun : Run (service name fuel resources onStop before inside after s) tr q)
    (hordinary : ∀ x ∈ tr, Ordinary x) (hend : q.command? = none) :
    ∃ r s', q = .done (.ok r) s' ∧ s'.started = []
      ∧ LifespanOutcome resources onStop (tr.map coreEvent) r := by
  have hq := Program.wp_run (service_wp hempty hfuel) hrun (admits_serving [] hordinary)
  rw [List.nil_append] at hq
  cases q with
  | spent => exact hq.elim
  | await c s' k => cases hend
  | done r s' =>
      cases r with
      | ok r => exact ⟨r, s', rfl, hq.1, hq.2⟩
      | error e => exact hq.elim

end Events

/-! ## A core that fails to start -/

/-- Redis starts and the storage does not. -/
def failedStart : List (Exchange (coreSig CoreClient Unit)) :=
  [⟨.start .redis, {}, .ok (), {}⟩,
    ⟨.start .storage, { started := [.redis] }, .error .cancelled, { started := [.redis] }⟩,
    ⟨.stop .redis, {}, .ok (), {}⟩]

/-- Redis is stopped, and nothing else happens. -/
theorem lifespan_outcome_failed : LifespanOutcome (Core.resources ⟨false, true, true⟩) [()]
    [.started .redis, .failed .storage .cancelled, .stopped .redis] (.error .cancelled) := by
  have hrun : Run (service CoreClient.name 3 (Core.resources ⟨false, true, true⟩) [()] 0 0 2 {})
      failedStart
      (.done (.ok (.error .cancelled)) {}) := by
    refine .cons _ _ ?_
    refine .cons _ _ ?_
    refine .cons _ _ ?_
    exact .nil _
  have hordinary : ∀ x ∈ failedStart, Ordinary x := by
    intro x hx
    simp only [failedStart, List.mem_cons, List.not_mem_nil, or_false] at hx
    rcases hx with rfl | rfl | rfl
    · exact ⟨nofun, nofun, rfl⟩
    · exact ⟨nofun, nofun, rfl⟩
    · exact ⟨nofun, nofun, rfl⟩
  obtain ⟨r, s', hq, -, houtcome⟩ := lifespan_outcome CoreClient.name _ [()] 0 0 2
    (by decide) rfl hrun hordinary rfl
  injection hq with hr
  obtain rfl := Except.ok.inj hr
  exact houtcome

end Atsig
