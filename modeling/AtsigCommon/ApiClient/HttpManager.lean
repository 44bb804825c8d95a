import AtsigCommon.Coroutine.Pool
import AtsigCommon.Python.Values

/-!
# One HTTP client for all

`HttpClientManager` keeps one `httpx.AsyncClient` for all clients of other services, and `_request`
makes one when there is none.  Everything runs on one event loop, and there are awaits in between:
`close_client` waits for the client to close, and `_request` waits for the headers of its subclass
after it has looked whether the client is there.

* `initClient`, `closeClient`, `requestClient` — the functions of the manager, and what `_request`
  does with it.
* `httpPool` — any number of them, as long as nobody closes the client while a request waits for
  its headers or its response, and nobody asks for it while it is being closed.
* `one_client` — then no two clients are ever open, no request lacks its client, which stays open
  until the response is there, and after a close none is open.
* `request_overtaken` — a request that is overtaken by a close.
-/

namespace Atsig

open Coroutine Python

/-! ## The manager -/

/-- The manager: the client that it has, how many it has made, and which of them were closed. -/
structure HttpClientManager where
  client : Option ℕ := none
  made : ℕ := 0
  closed : ℕ → Bool := fun _ => false

namespace HttpClientManager

/-- The client was made and not closed. -/
def Open (manager : HttpClientManager) (client : ℕ) : Prop :=
  client < manager.made ∧ manager.closed client = false

instance (manager : HttpClientManager) (client : ℕ) : Decidable (manager.Open client) :=
  inferInstanceAs (Decidable (_ ∧ _))

/-- `not (client is None or client.is_closed)` -/
def isReady (manager : HttpClientManager) : Bool := manager.client.any fun c => !manager.closed c

/-- A new client. -/
def create (manager : HttpClientManager) : HttpClientManager :=
  { manager with client := some manager.made, made := manager.made + 1 }

/-- The manager once `init_client` was called. -/
def ensure (manager : HttpClientManager) : HttpClientManager :=
  if manager.isReady then manager else manager.create

/-- What `aclose` does before it waits for the connections. -/
def markClosed (manager : HttpClientManager) (client : ℕ) : HttpClientManager :=
  { manager with closed := Function.update manager.closed client true }

/-- `cls.client = None` -/
def drop (manager : HttpClientManager) : HttpClientManager := { manager with client := none }

end HttpClientManager

/-- What is awaited: the connections of a client that closes, the headers of the subclass, and a
request with a client. -/
inductive HttpCommand
  | aclose (client : ℕ)
  | authHeaders
  | send (client : ℕ)

/-- What is raised: by what is awaited, or by a request that has no client, or a closed one. -/
inductive HttpRaised
  | cancelled
  | awaited (e : PyException)
  | noClient
  | clientClosed

/-- The response is of no concern here. -/
@[reducible] def httpSig : Signature where
  State := HttpClientManager
  Command := HttpCommand
  Answer _ := Unit
  Raise := HttpRaised

/-- A coroutine that uses the manager. -/
abbrev Http (α : Type) : Type := Co httpSig α

def awaitHttp (c : HttpCommand) : Http Unit := Co.call (S := httpSig) c

/-- `init_client`, which awaits nothing. -/
def HttpClientManager.initClient : Http Unit := .modify HttpClientManager.ensure

/-- `aclose` of the client; one that was closed before has nothing to wait for. -/
def aclose (client : ℕ) : Http Unit := do
  if (← Co.get).closed client = false then
    do
      .modify fun manager => manager.markClosed client
      awaitHttp (.aclose client)
  else .ret ()

/-- `close_client` -/
def HttpClientManager.closeClient : Http Unit := do
  match (← Co.get).client with
  | none => .ret ()
  | some client =>
      aclose client
      .modify HttpClientManager.drop

/-- `_get_auth_headers`, a plain method or a coroutine. -/
def getAuthHeaders (waits : Bool) : Http Unit :=
  if waits then awaitHttp .authHeaders else .ret ()

/-- `manager.client.request`; a closed client raises before it sends. -/
def sendWithClient : Http Unit := do
  let manager ← Co.get
  match manager.client with
  | none => .raise .noClient
  | some client =>
      if manager.closed client = true then .raise .clientClosed
      else awaitHttp (.send client)

/-- `_request`, as far as it uses the manager.  `waits` tells whether the headers of the subclass
are awaited. -/
def requestClient (waits : Bool) : Http Unit := do
  HttpClientManager.initClient
  getAuthHeaders waits
  sendWithClient

/-- What a task does. -/
inductive HttpJob
  | init
  | close
  | request (waits : Bool)
  deriving DecidableEq

def HttpJob.run : HttpJob → Http Unit
  | .init => HttpClientManager.initClient
  | .close => HttpClientManager.closeClient
  | .request waits => requestClient waits

/-! ## The pool -/

/-- Tasks over one manager. -/
abbrev HttpPool (ι : Type) := Pool httpSig Unit ι Unit

/-- A task waits for a client to close. -/
def HttpPool.Closing {ι : Type} (pool : HttpPool ι) : Prop :=
  ∃ i client, (pool.tasks i).bind Program.command? = some (.aclose client)

/-- What a request awaits: its headers or its response. -/
def HttpCommand.IsOfRequest : HttpCommand → Prop
  | .aclose _ => False
  | .authHeaders | .send _ => True

/-- A request is going on. -/
def HttpPool.Requesting {ι : Type} (pool : HttpPool ι) : Prop :=
  ∃ i c, (pool.tasks i).bind Program.command? = some c ∧ c.IsOfRequest

/-- When a task may begin: the client is asked for while nobody closes it, and closed while no
request is going on. -/
def HttpPool.Quiet {ι : Type} (pool : HttpPool ι) : HttpJob → Prop
  | .close => ¬ pool.Requesting
  | .init | .request _ => ¬ pool.Closing

/-- Any number of tasks, with the jobs `jobs`.  What is awaited answers or raises, or the task is
cancelled there; the manager is left alone. -/
def httpPool {ι : Type} (jobs : ι → HttpJob) (begins : HttpPool ι → HttpJob → Prop) :
    Scheduler httpSig Unit ι Unit where
  starts pool i x := x = (jobs i).run ∧ begins pool (jobs i)
  answers pool _ _ r _ manager := manager = pool.shared
    ∧ ∀ e, r = .error e → e = .cancelled ∨ ∃ raised, e = .awaited raised
  idles _ _ := False
  notes world _ _ := world

/-! ## What the functions do to the manager -/

namespace HttpClientManager

variable {manager : HttpClientManager} {client : ℕ}

/-- At most one client is open, and it is the one that the manager has. -/
structure One (manager : HttpClientManager) : Prop where
  current : ∀ client, manager.client = some client → client < manager.made
  past : ∀ client, manager.closed client = true → client < manager.made
  only : ∀ client, manager.Open client → manager.client = some client

/-- All clients were closed. -/
def NoneOpen (manager : HttpClientManager) : Prop := ∀ client, ¬ manager.Open client

lemma isReady_iff (h : manager.One) :
    manager.isReady = true ↔ ∃ client, manager.client = some client ∧ manager.Open client := by
  cases hclient : manager.client with
  | none => simp [isReady, hclient]
  | some client =>
      have hmade := h.current client hclient
      simp [isReady, hclient, Open, hmade]

lemma NoneOpen.not_isReady (h : manager.NoneOpen) (hone : manager.One) :
    ¬ manager.isReady = true := by
  intro hready
  obtain ⟨client, -, hopen⟩ := (isReady_iff hone).mp hready
  exact h client hopen

lemma One.init : ({} : HttpClientManager).One := ⟨nofun, nofun, fun _ h => absurd h.1 (by simp)⟩

/-- A new client, when the old one is closed or gone, is the only one. -/
lemma One.create (h : manager.One) (hready : ¬ manager.isReady = true) :
    manager.create.One ∧ manager.create.isReady = true := by
  have hfresh : manager.closed manager.made = false := by
    by_contra hclosed
    exact Nat.lt_irrefl _ (h.past _ (by simpa using hclosed))
  constructor
  · refine ⟨?_, fun client hclosed => Nat.lt_succ_of_lt (h.past client hclosed), ?_⟩
    · rintro _ ⟨⟩
      exact Nat.lt_succ_self _
    · rintro client ⟨hmade, hclosed⟩
      rcases Nat.lt_succ_iff_lt_or_eq.mp hmade with hold | rfl
      · have hcurrent := h.only client ⟨hold, hclosed⟩
        exact absurd ((isReady_iff h).mpr ⟨client, hcurrent, hold, hclosed⟩) hready
      · rfl
  · simp [isReady, HttpClientManager.create, hfresh]

/-- After the client was closed, none is open. -/
lemma One.markClosed (h : manager.One) (hclient : manager.client = some client) :
    (manager.markClosed client).One ∧ (manager.markClosed client).NoneOpen := by
  have hnone : (manager.markClosed client).NoneOpen := by
    rintro other ⟨hmade, hclosed⟩
    simp only [HttpClientManager.markClosed, Function.update_apply] at hmade hclosed
    split_ifs at hclosed with hother
    have hcurrent := h.only other ⟨hmade, hclosed⟩
    exact hother (Option.some.inj (hcurrent.symm.trans hclient))
  refine ⟨⟨h.current, fun other hclosed => ?_, fun other hopen => absurd hopen (hnone other)⟩, hnone⟩
  simp only [HttpClientManager.markClosed, Function.update_apply] at hclosed
  split_ifs at hclosed with hother
  · rw [hother]
    exact h.current client hclient
  · exact h.past other hclosed

/-- `init_client` leaves a client that is open. -/
lemma One.ensure (h : manager.One) : manager.ensure.One ∧ manager.ensure.isReady = true := by
  rw [HttpClientManager.ensure]
  split_ifs with hready
  · exact ⟨h, hready⟩
  · exact h.create hready

/-- With an open client it changes nothing. -/
lemma ensure_eq (hready : manager.isReady = true) : manager.ensure = manager := if_pos hready

lemma One.isReady_of_open (h : manager.One) (hopen : manager.Open client) :
    manager.isReady = true := (isReady_iff h).mpr ⟨client, h.only client hopen, hopen⟩

/-- A client that was closed is dropped. -/
lemma NoneOpen.drop (h : manager.NoneOpen) (hone : manager.One) :
    manager.drop.One ∧ manager.drop.NoneOpen :=
  ⟨⟨nofun, hone.past, fun client hopen => absurd hopen (h client)⟩, h⟩

end HttpClientManager

open HttpClientManager

/-! ## The contract of a task -/

/-- The job of a task, and the manager that it leaves unless it closes the client: the one it met,
with a client if it has begun only then. -/
structure HttpSeen where
  job : HttpJob
  manager : HttpClientManager

/-- What a task leaves behind. -/
structure HttpSeen.Leaves (g : HttpSeen) (manager : HttpClientManager) : Prop where
  one : manager.One
  close : g.job = .close → manager.NoneOpen
  other : g.job ≠ .close → manager = g.manager

/-- **The contract.**  A request waits for its headers with a client that is open, and sends with
an open one.  While it waits the client stays open; while a client closes no other is opened. -/
def managing : Contract httpSig HttpSeen where
  may g manager c := g.Leaves manager ∧ match c with
    | .aclose _ => g.job = .close
    | .authHeaders => g.job ≠ .close ∧ manager.isReady = true
    | .send client => g.job ≠ .close ∧ manager.Open client
  env g _ c r g' manager := g' = { g with manager } ∧ manager.One
    ∧ (∀ e, r = .error e → e = .cancelled ∨ ∃ raised, e = .awaited raised)
    ∧ match c with
      | .aclose _ => manager.NoneOpen
      | .authHeaders => manager.isReady = true
      | .send client => manager.Open client
  cut _ := False

/-- How a task ends. -/
def HttpReturns (_ : Unit) (g : HttpSeen) (manager : HttpClientManager) : Prop := g.Leaves manager

/-- What a task raises: never that it lacks a client. -/
def HttpRaises (e : HttpRaised) (g : HttpSeen) (manager : HttpClientManager) : Prop :=
  g.Leaves manager ∧ (e = .cancelled ∨ ∃ raised, e = .awaited raised)

lemma awaitHttp_wp {c : HttpCommand} {φ : Unit → HttpSeen → HttpClientManager → Prop}
    {g : HttpSeen} {manager : HttpClientManager} (hmay : managing.may g manager c)
    (hok : ∀ g' manager', managing.env g manager c (.ok ()) g' manager' → φ () g' manager')
    (herror : ∀ e g' manager', managing.env g manager c (.error e) g' manager' →
      HttpRaises e g' manager') :
    (awaitHttp c).wp managing φ HttpRaises g manager := by
  rw [awaitHttp, Co.wp_call (S := httpSig) c]
  exact ⟨hmay, fun _ => hok, herror⟩

lemma initClient_managing {manager : HttpClientManager} (h : manager.One) :
    initClient.wp managing HttpReturns HttpRaises ⟨.init, manager.ensure⟩ manager :=
  ⟨h.ensure.1, nofun, fun _ => rfl⟩

lemma closeClient_managing {manager : HttpClientManager} (h : manager.One) :
    closeClient.wp managing HttpReturns HttpRaises ⟨.close, manager.ensure⟩ manager := by
  rw [closeClient, Co.wp_bind, Co.wp_get]
  dsimp only
  cases hclient : manager.client with
  | none =>
      refine ⟨h, fun _ client hopen => ?_, fun hne => absurd rfl hne⟩
      have hcurrent := h.only client hopen
      rw [hclient] at hcurrent
      cases hcurrent
  | some client =>
      dsimp only
      rw [Co.wp_bind, aclose, Co.wp_bind, Co.wp_get]
      dsimp only
      split_ifs with hclosed
      · obtain ⟨hone, hnone⟩ := h.markClosed hclient
        rw [Co.wp_bind, Co.wp_modify]
        refine awaitHttp_wp ⟨⟨hone, fun _ => hnone, fun hne => absurd rfl hne⟩, rfl⟩
          (fun g' manager' henv => ?_) (fun e g' manager' henv => ?_)
        · obtain ⟨rfl, hone, -, hnone⟩ := henv
          obtain ⟨hone, hnone⟩ := hnone.drop hone
          exact ⟨hone, fun _ => hnone, fun hne => absurd rfl hne⟩
        · obtain ⟨rfl, hone, hraised, hnone⟩ := henv
          exact ⟨⟨hone, fun _ => hnone, fun hne => absurd rfl hne⟩, hraised e rfl⟩
      · have hnone : manager.NoneOpen := by
          intro other hopen
          obtain rfl := Option.some.inj ((h.only other hopen).symm.trans hclient)
          exact hclosed hopen.2
        obtain ⟨hone, hnone⟩ := hnone.drop h
        exact ⟨hone, fun _ => hnone, fun hne => absurd rfl hne⟩

/-- The end of a request, when the client is open. -/
lemma sendWithClient_managing {g : HttpSeen} {manager : HttpClientManager} (hjob : g.job ≠ .close)
    (h : g.Leaves manager) (hready : manager.isReady = true) :
    sendWithClient.wp managing HttpReturns HttpRaises g manager := by
  obtain ⟨client, hclient, hopen⟩ := (isReady_iff h.one).mp hready
  have hclosed : ¬ manager.closed client = true := by
    rw [hopen.2]
    exact nofun
  rw [sendWithClient, Co.wp_bind, Co.wp_get]
  dsimp only
  rw [hclient]
  dsimp only
  rw [if_neg hclosed]
  refine awaitHttp_wp ⟨h, hjob, hopen⟩ (fun g' manager' henv => ?_) (fun e g' manager' henv => ?_)
  · obtain ⟨rfl, hone, -, -⟩ := henv
    exact ⟨hone, fun hclose => absurd hclose hjob, fun _ => rfl⟩
  · obtain ⟨rfl, hone, hraised, -⟩ := henv
    exact ⟨⟨hone, fun hclose => absurd hclose hjob, fun _ => rfl⟩, hraised e rfl⟩

lemma requestClient_managing {manager : HttpClientManager} (waits : Bool) (h : manager.One) :
    (requestClient waits).wp managing HttpReturns HttpRaises ⟨.request waits, manager.ensure⟩
      manager := by
  obtain ⟨hone, hready⟩ := h.ensure
  have hjob : HttpJob.request waits ≠ .close := nofun
  have hleaves : HttpSeen.Leaves ⟨.request waits, manager.ensure⟩ manager.ensure :=
    ⟨hone, nofun, fun _ => rfl⟩
  rw [requestClient, Co.wp_bind, initClient, Co.wp_modify, Co.wp_bind, getAuthHeaders]
  cases waits with
  | false => exact sendWithClient_managing hjob hleaves hready
  | true =>
      rw [if_pos rfl]
      refine awaitHttp_wp ⟨hleaves, hjob, hready⟩ (fun g' manager' henv => ?_)
        (fun e g' manager' henv => ?_)
      · obtain ⟨rfl, hone, -, hready⟩ := henv
        exact sendWithClient_managing hjob ⟨hone, nofun, fun _ => rfl⟩ hready
      · obtain ⟨rfl, hone, hraised, -⟩ := henv
        exact ⟨⟨hone, nofun, fun _ => rfl⟩, hraised e rfl⟩

/-- Every job keeps the contract. -/
lemma HttpJob.run_managing {manager : HttpClientManager} (job : HttpJob) (h : manager.One) :
    job.run.wp managing HttpReturns HttpRaises ⟨job, manager.ensure⟩ manager := by
  cases job with
  | init => exact initClient_managing h
  | close => exact closeClient_managing h
  | request waits => exact requestClient_managing waits h

/-! ## Every interleaving -/

section Pool

variable {ι : Type} [DecidableEq ι] {jobs : ι → HttpJob} {pool : HttpPool ι}

/-- What a request has while it waits: an open client, and the one that it was sent with. -/
def HttpCommand.HasClient (c : HttpCommand) (manager : HttpClientManager) : Prop :=
  match c with
  | .aclose _ => True
  | .authHeaders => manager.isReady = true
  | .send client => manager.Open client

/-- The invariant: one client at most, which is open while a request goes on, and none open while
one closes. -/
structure HttpPool.Single (jobs : ι → HttpJob) (pool : HttpPool ι) (gs : ι → HttpSeen) : Prop where
  shared : pool.shared.One
  knows : ∀ i, (gs i).job = jobs i
  closing : pool.Closing → pool.shared.NoneOpen
  requesting : ∀ i c, (pool.tasks i).bind Program.command? = some c → c.HasClient pool.shared

omit [DecidableEq ι] in
lemma HttpPool.Single.isReady {gs : ι → HttpSeen} (h : pool.Single jobs gs)
    (hrequesting : pool.Requesting) : pool.shared.isReady = true := by
  obtain ⟨i, c, hcommand, hof⟩ := hrequesting
  have hhas := h.requesting i c hcommand
  cases c with
  | aclose client => exact hof.elim
  | authHeaders => exact hhas
  | send client => exact h.shared.isReady_of_open hhas

/-- A task has run to its next await. -/
lemma HttpPool.Single.run {begins : HttpPool ι → HttpJob → Prop} {gs : ι → HttpSeen}
    (h : pool.Single jobs gs) {i : ι} {g : HttpSeen} (hjob : g.job = jobs i)
    (hrequesting : pool.Requesting → ∀ manager, g.Leaves manager → manager = pool.shared)
    (hclosing : pool.Closing → ∀ manager, g.Leaves manager → manager.NoneOpen)
    {manager : HttpClientManager} {p : Program httpSig Unit}
    (hp : p.Settled managing HttpReturns HttpRaises g) :
    HttpPool.Single jobs (Pool.run (httpPool jobs begins) pool i () manager p)
      (Function.update gs i g) := by
  obtain ⟨left, hstate, hleaves, hcommand⟩ : ∃ left, p.state? = some left ∧ g.Leaves left
      ∧ ∀ c, p.command? = some c → managing.may g left c := by
    cases p with
    | done r left =>
        cases r with
        | ok a => exact ⟨left, rfl, hp, nofun⟩
        | error e => exact ⟨left, rfl, hp.1, nofun⟩
    | await c left k =>
        refine ⟨left, rfl, hp.1, ?_⟩
        rintro _ ⟨⟩
        exact hp
    | spent => exact hp.elim
  have hshared : (Pool.run (httpPool jobs begins) pool i () manager p).shared = left := by
    rw [Pool.run, hstate]
    rfl
  refine ⟨?_, fun j => ?_, ?_, fun j c hj => ?_⟩
  · rw [hshared]
    exact hleaves.one
  · by_cases hj : j = i
    · rw [hj, Function.update_self, hjob]
    · rw [Function.update_of_ne hj, h.knows]
  · rintro ⟨j, client, hj⟩
    rw [hshared]
    obtain ⟨q, hq, hclose⟩ := Option.bind_eq_some_iff.mp hj
    rcases Pool.run_tasks hq with ⟨rfl, rfl⟩ | ⟨-, hq⟩
    · exact hleaves.close (hcommand _ hclose).2
    · exact hclosing ⟨j, client, by rw [hq]; exact hclose⟩ left hleaves
  · rw [hshared]
    obtain ⟨q, hq, hawaits⟩ := Option.bind_eq_some_iff.mp hj
    rcases Pool.run_tasks hq with ⟨rfl, rfl⟩ | ⟨-, hq⟩
    · have hmay := (hcommand _ hawaits).2
      cases c with
      | aclose client => trivial
      | authHeaders => exact hmay.2
      | send client => exact hmay.2
    · have hj : (pool.tasks j).bind Program.command? = some c := by
        rw [hq]
        exact hawaits
      have hhas := h.requesting j c hj
      cases c with
      | aclose client => trivial
      | authHeaders => rwa [hrequesting ⟨j, _, hj, trivial⟩ left hleaves]
      | send client => rwa [hrequesting ⟨j, _, hj, trivial⟩ left hleaves]

/-- The invariant holds in every pool that is reached, and every task keeps the contract. -/
lemma single_of_reachable (h : (httpPool jobs HttpPool.Quiet).Reachable () {} pool) :
    ∃ gs, pool.Single jobs gs ∧ ∀ i p, pool.tasks i = some p →
      p.wp managing HttpReturns HttpRaises (gs i) := by
  refine h.invariant ?_ ?_ ?_ nofun
  · exact ⟨fun i => ⟨jobs i, {}⟩, .init, fun _ => rfl, by rintro ⟨_, _, ⟨⟩⟩, nofun⟩
  · intro pool gs i x hpool hnew hx
    obtain ⟨rfl, hquiet⟩ := hx
    refine ⟨⟨jobs i, pool.shared.ensure⟩, (jobs i).run_managing hpool.shared, fun p hp =>
      hpool.run rfl (fun hrequesting manager hleaves => ?_) (fun hclosing manager hleaves => ?_) hp⟩
    · have hother : jobs i ≠ .close := by
        intro hclose
        rw [hclose] at hquiet
        exact hquiet hrequesting
      rw [hleaves.other hother]
      exact ensure_eq (hpool.isReady hrequesting)
    · refine hleaves.close ?_
      show jobs i = .close
      cases hjob : jobs i with
      | close => rfl
      | init | request waits =>
          rw [hjob] at hquiet
          exact absurd hclosing hquiet
  · intro pool gs i c s k r w manager hpool htask hmay hanswer
    obtain ⟨rfl, hraised⟩ := hanswer
    have hcommand : (pool.tasks i).bind Program.command? = some c := by
      rw [htask]
      rfl
    have hhas := hpool.requesting i c hcommand
    refine ⟨{ gs i with manager := pool.shared }, ⟨rfl, hpool.shared, hraised, ?_⟩, fun p hp =>
      hpool.run (g := { gs i with manager := pool.shared }) (hpool.knows i)
        (fun hrequesting manager hleaves => ?_) (fun hclosing manager hleaves => ?_) hp⟩
    · cases c with
      | aclose client => exact hpool.closing ⟨i, client, hcommand⟩
      | authHeaders => exact hhas
      | send client => exact hhas
    · -- a close that goes on has waited for its client, so no request is going on
      have hjob : (gs i).job ≠ .close := by
        cases c with
        | aclose client =>
            have hnone := hpool.closing ⟨i, client, hcommand⟩
            exact absurd (hpool.isReady hrequesting) (hnone.not_isReady hpool.shared)
        | authHeaders => exact hmay.2.1
        | send client => exact hmay.2.1
      exact hleaves.other hjob
    · by_cases hjob : (gs i).job = .close
      · exact hleaves.close hjob
      · rw [hleaves.other hjob]
        exact hpool.closing hclosing

/-- **One client for all.**  Any number of tasks ask for the client, close it and send requests, in
any interleaving, as long as nobody closes it while a request is going on, or asks for it while it
is being closed.  Then at most one client is open at any time, the one that the manager has; every
request is sent with a client that is open and stays open until the request goes on; none finds no
client or a closed one; and when a close has ended, whether or not the client closed well, none is
open. -/
theorem one_client (h : (httpPool jobs HttpPool.Quiet).Reachable () {} pool) :
    (∀ client, pool.shared.Open client → pool.shared.client = some client)
      ∧ (∀ i client manager k, pool.tasks i = some (.await (.send client) manager k) →
          manager.Open client ∧ pool.shared.Open client)
      ∧ ∀ i r manager, pool.tasks i = some (.done r manager) →
          r ≠ .error .noClient ∧ r ≠ .error .clientClosed
            ∧ (jobs i = .close → ∀ client, ¬ manager.Open client) := by
  obtain ⟨gs, hpool, hkeep⟩ := single_of_reachable h
  refine ⟨hpool.shared.only, fun i client manager k htask => ⟨?_, ?_⟩, fun i r manager htask => ?_⟩
  · exact (hkeep i _ htask).1.2.2
  · refine hpool.requesting i (.send client) ?_
    rw [htask]
    rfl
  · have hended := hkeep i _ htask
    cases r with
    | ok a =>
        refine ⟨nofun, nofun, fun hclose => ?_⟩
        exact HttpSeen.Leaves.close hended ((hpool.knows i).trans hclose)
    | error e =>
        obtain ⟨hleaves, hraised⟩ := hended
        refine ⟨?_, ?_, fun hclose => hleaves.close ((hpool.knows i).trans hclose)⟩
        · rintro ⟨⟩
          obtain hcancelled | ⟨_, hawaited⟩ := hraised
          · cases hcancelled
          · cases hawaited
        · rintro ⟨⟩
          obtain hcancelled | ⟨_, hawaited⟩ := hraised
          · cases hcancelled
          · cases hawaited

/-! ## Runs -/

section Runs

variable {begins : HttpPool ι → HttpJob → Prop}

/-- A task begins. -/
lemma httpPool_start (h : (httpPool jobs begins).Reachable () {} pool) (i : ι)
    (hnew : pool.tasks i = none) (hbegins : begins pool (jobs i)) :
    (httpPool jobs begins).Reachable () {} (pool.run (httpPool jobs begins) i pool.world pool.shared
      ((jobs i).run pool.shared)) :=
  h.step (.start pool i _ hnew ⟨rfl, hbegins⟩)

/-- What a task awaits is there. -/
lemma httpPool_resume (h : (httpPool jobs begins).Reachable () {} pool) (i : ι) (c : HttpCommand)
    {manager : HttpClientManager}
    {k : Except HttpRaised Unit → HttpClientManager → Program httpSig Unit}
    (htask : pool.tasks i = some (.await c manager k)) :
    (httpPool jobs begins).Reachable () {} (pool.run (httpPool jobs begins) i () pool.shared
      (k (.ok ()) pool.shared)) :=
  h.step (.resume pool i c manager k (.ok ()) () pool.shared htask ⟨rfl, nofun⟩)

end Runs

end Pool

section Example

/-- A request that waits for its headers, and a close. -/
def requestAndClose : Bool → HttpJob
  | false => .request true
  | true => .close

/-- The request has ended when the client is closed. -/
theorem one_client_closed : ∃ (pool : HttpPool Bool) (manager : HttpClientManager),
    (httpPool requestAndClose HttpPool.Quiet).Reachable () {} pool
      ∧ pool.tasks false = some (.done (.ok ()) manager)
      ∧ pool.shared.made = 1 ∧ ∀ client, ¬ pool.shared.Open client := by
  have h0 : (httpPool requestAndClose HttpPool.Quiet).Reachable () {} _ := .init
  have h1 := httpPool_start h0 false rfl (by rintro ⟨_, _, ⟨⟩⟩)
  have h2 := httpPool_resume h1 false .authHeaders (by with_unfolding_all rfl)
  have h3 := httpPool_resume h2 false (.send 0) (by with_unfolding_all rfl)
  have h4 := httpPool_start h3 true rfl (by
    rintro ⟨i, c, hi, -⟩
    cases i <;> cases hi)
  have h5 := httpPool_resume h4 true (.aclose 0) (by with_unfolding_all rfl)
  have hnone := ((one_client h5).2.2 true (.ok ()) _ (by with_unfolding_all rfl)).2.2 rfl
  exact ⟨_, _, h5, by with_unfolding_all rfl, by with_unfolding_all rfl, hnone⟩

/-- **A request that is overtaken.**  The client is closed while the request waits for its headers,
and then there is none to send with. -/
theorem request_overtaken : ∃ (pool : HttpPool Bool) (manager : HttpClientManager),
    (httpPool requestAndClose fun _ _ => True).Reachable () {} pool
      ∧ pool.tasks false = some (.done (.error .noClient) manager) := by
  have h0 : (httpPool requestAndClose fun _ _ => True).Reachable () {} _ := .init
  have h1 := httpPool_start h0 false rfl trivial
  have h2 := httpPool_start h1 true rfl trivial
  have h3 := httpPool_resume h2 true (.aclose 0) (by with_unfolding_all rfl)
  have h4 := httpPool_resume h3 false .authHeaders (by with_unfolding_all rfl)
  exact ⟨_, _, h4, by with_unfolding_all rfl⟩

end Example

end Atsig
