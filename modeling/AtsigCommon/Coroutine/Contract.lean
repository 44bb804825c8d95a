import AtsigCommon.Coroutine.Program

/-!
# Contracts: a program logic for coroutines among others

While a coroutine waits, other tasks and the outside world act.  A `Contract` says what they may
do meanwhile (`env`) and what the coroutine may do in return (`may`), both relative to a ghost
state `G` that records as much of the history as the property at hand needs.

`Program.wp C φ ψ p g` holds when `p`, entered in the ghost state `g`, sends only commands that
`C` allows, whatever the surroundings answer within `C`, and establishes `φ` when it returns and
`ψ` when it raises.  There is one rule for each way of building a coroutine (`wp_bind`,
`wp_protect`, …); all of them follow from `Program.wp_andThen`.

* `Program.wp_rely` — the logic is stable: what the others do does not invalidate it.
* `Program.wp_run` — the logic is sound for executions.
* `Program.wp_monitor` — a contract whose ghost state is computed from the exchanges says what
  every execution looks like.
* `Program.wp_track`, `Program.wp_log` — the same for ghost states that depend on the shared state
  or on a world outside.
-/

namespace Coroutine

variable {S : Signature} {G α β : Type}

/-- The terms on which a coroutine works among others. -/
structure Contract (S : Signature) (G : Type) where
  /-- The commands it may send, in a ghost state and with the shared state it leaves behind. -/
  may : G → S.State → S.Command → Prop
  /-- What an await may bring: the answer, and the ghost and shared states at the resumption. -/
  env : G → S.State → (c : S.Command) → Except S.Raise (S.Answer c) → G → S.State → Prop
  /-- Where the unfolding of its loops may be cut. -/
  cut : G → Prop := fun _ => True

/-- The weakest precondition: the contract is kept for ever, a return satisfies `φ` and an
exception satisfies `ψ`. -/
def Program.wp (C : Contract S G) (φ : α → G → S.State → Prop)
    (ψ : S.Raise → G → S.State → Prop) : Program S α → G → Prop
  | .done (.ok a) s, g => φ a g s
  | .done (.error e) s, g => ψ e g s
  | .await c s k, g =>
      C.may g s c ∧ ∀ r g' s', C.env g s c r g' s' → (k r s').wp C φ ψ g'
  | .spent, g => C.cut g

section Rules

variable {C : Contract S G} {φ φ' : α → G → S.State → Prop} {ψ ψ' : S.Raise → G → S.State → Prop}

@[simp] lemma Program.wp_done_ok (a : α) (s : S.State) (g : G) :
    (Program.done (.ok a) s).wp C φ ψ g ↔ φ a g s := Iff.rfl

@[simp] lemma Program.wp_done_error (e : S.Raise) (s : S.State) (g : G) :
    (Program.done (.error e) s : Program S α).wp C φ ψ g ↔ ψ e g s := Iff.rfl

@[simp] lemma Program.wp_await (c : S.Command) (s : S.State)
    (k : Except S.Raise (S.Answer c) → S.State → Program S α) (g : G) :
    (Program.await c s k).wp C φ ψ g
      ↔ C.may g s c ∧ ∀ r g' s', C.env g s c r g' s' → (k r s').wp C φ ψ g' := Iff.rfl

@[simp] lemma Program.wp_spent (g : G) : (Program.spent : Program S α).wp C φ ψ g ↔ C.cut g :=
  Iff.rfl

/-- **The rule of sequencing.** -/
lemma Program.wp_andThen {φ : β → G → S.State → Prop} (p : Program S α)
    (f : Except S.Raise α → S.State → Program S β) (g : G) :
    (p.andThen f).wp C φ ψ g
      ↔ p.wp C (fun a g s => (f (.ok a) s).wp C φ ψ g)
          (fun e g s => (f (.error e) s).wp C φ ψ g) g := by
  induction p generalizing g with
  | done r s => cases r <;> rfl
  | await c s k ih =>
      simp only [Program.andThen_await, Program.wp_await, ih]
  | spent => rfl

/-- Weaker postconditions are easier. -/
lemma Program.wp_mono {p : Program S α} {g : G} (h : p.wp C φ ψ g)
    (hφ : ∀ a g s, φ a g s → φ' a g s) (hψ : ∀ e g s, ψ e g s → ψ' e g s) :
    p.wp C φ' ψ' g := by
  induction p generalizing g with
  | done r s =>
      cases r with
      | ok a => exact hφ a g s h
      | error e => exact hψ e g s h
  | await c s k ih => exact ⟨h.1, fun r g' s' henv => ih r s' (h.2 r g' s' henv)⟩
  | spent => exact h

/-- **Stability.**  If the steps `R` of the others revoke no permission, are absorbed by every
await and keep the postconditions, they keep the weakest precondition. -/
lemma Program.wp_rely {R : G → G → Prop} {p : Program S α} {g g' : G} (h : p.wp C φ ψ g)
    (hR : R g g') (hmay : ∀ s c, C.may g s c → C.may g' s c)
    (henv : ∀ s c r g'' s', C.env g' s c r g'' s' → C.env g s c r g'' s')
    (hcut : C.cut g → C.cut g')
    (hφ : ∀ a s, R g g' → φ a g s → φ a g' s) (hψ : ∀ e s, R g g' → ψ e g s → ψ e g' s) :
    p.wp C φ ψ g' := by
  cases p with
  | done r s =>
      cases r with
      | ok a => exact hφ a s hR h
      | error e => exact hψ e s hR h
  | await c s k =>
      exact ⟨hmay s c h.1, fun r g'' s' hr => h.2 r g'' s' (henv s c r g'' s' hr)⟩
  | spent => exact hcut h

end Rules

/-! ## Rules for coroutine functions

Each rule is an equation between predicates of the ghost and the shared state, so it rewrites
under a postcondition too.
-/

/-- The weakest precondition of a coroutine function entered in the shared state `s`. -/
def Co.wp (C : Contract S G) (x : Co S α) (φ : α → G → S.State → Prop)
    (ψ : S.Raise → G → S.State → Prop) (g : G) (s : S.State) : Prop :=
  (x s).wp C φ ψ g

namespace Co

variable {C : Contract S G} {φ φ' : α → G → S.State → Prop} {ψ ψ' : S.Raise → G → S.State → Prop}
  {g : G} {s : S.State}

@[simp] lemma wp_ret (a : α) : (ret a : Co S α).wp C φ ψ = φ a := rfl

@[simp] lemma wp_pure (a : α) : (pure a : Co S α).wp C φ ψ = φ a := rfl

@[simp] lemma wp_raise (e : S.Raise) : (raise e : Co S α).wp C φ ψ = ψ e := rfl

@[simp] lemma wp_spent : (spent : Co S α).wp C φ ψ = fun g _ => C.cut g := rfl

lemma wp_andThen {φ : β → G → S.State → Prop} (x : Co S α) (f : Except S.Raise α → Co S β) :
    (x.andThen f).wp C φ ψ
      = x.wp C (fun a => (f (.ok a)).wp C φ ψ) fun e => (f (.error e)).wp C φ ψ :=
  funext fun _ => funext fun _ => propext (Program.wp_andThen _ _ _)

@[simp] lemma wp_bind {φ : β → G → S.State → Prop} (x : Co S α) (f : α → Co S β) :
    (x >>= f).wp C φ ψ = x.wp C (fun a => (f a).wp C φ ψ) ψ :=
  wp_andThen x _

@[simp] lemma wp_attempt {φ : Except S.Raise α → G → S.State → Prop} (x : Co S α) :
    x.attempt.wp C φ ψ = x.wp C (fun a => φ (.ok a)) fun e => φ (.error e) :=
  wp_andThen x _

@[simp] lemma wp_protect (x : Co S α) (handler : S.Raise → Co S α) :
    (x.protect handler).wp C φ ψ = x.wp C φ fun e => (handler e).wp C φ ψ :=
  wp_andThen x _

@[simp] lemma wp_finally (x : Co S α) (last : S.State → S.State) :
    (x.finally_ last).wp C φ ψ
      = x.wp C (fun a g s => φ a g (last s)) fun e g s => ψ e g (last s) :=
  wp_andThen x _

@[simp] lemma wp_get {φ : S.State → G → S.State → Prop} :
    (get : Co S S.State).wp C φ ψ = fun g s => φ s g s := rfl

@[simp] lemma wp_modify {φ : Unit → G → S.State → Prop} (f : S.State → S.State) :
    (modify f : Co S Unit).wp C φ ψ = fun g s => φ () g (f s) := rfl

/-- **The rule of the await.** -/
@[simp] lemma wp_call (c : S.Command) {φ : S.Answer c → G → S.State → Prop} :
    (call c : Co S (S.Answer c)).wp C φ ψ = fun g s =>
      C.may g s c ∧ (∀ a g' s', C.env g s c (.ok a) g' s' → φ a g' s')
        ∧ ∀ e g' s', C.env g s c (.error e) g' s' → ψ e g' s' := by
  funext g s
  refine propext ⟨?_, ?_⟩
  · rintro ⟨hmay, h⟩
    exact ⟨hmay, fun a g' s' ha => h (.ok a) g' s' ha, fun e g' s' he => h (.error e) g' s' he⟩
  · rintro ⟨hmay, hok, herr⟩
    refine ⟨hmay, fun r g' s' hr => ?_⟩
    cases r with
    | ok a => exact hok a g' s' hr
    | error e => exact herr e g' s' hr

/-- Weaker postconditions are easier. -/
lemma wp_mono {x : Co S α} (h : x.wp C φ ψ g s) (hφ : ∀ a g s, φ a g s → φ' a g s)
    (hψ : ∀ e g s, ψ e g s → ψ' e g s) : x.wp C φ' ψ' g s :=
  Program.wp_mono h hφ hψ

end Co

/-! ## Keeping a contract whatever the outcome -/

/-- The coroutine keeps the contract and the invariant `I`, whether it returns or raises. -/
def Co.Keeps (C : Contract S G) (x : Co S α) (I : G → S.State → Prop := fun _ _ => True) : Prop :=
  ∀ g s, I g s → x.wp C (fun _ => I) (fun _ => I) g s

namespace Co

variable {C : Contract S G} {I : G → S.State → Prop}

lemma keeps_ret (a : α) : (ret a : Co S α).Keeps C I := fun _ _ h => h

lemma keeps_pure (a : α) : (pure a : Co S α).Keeps C I := fun _ _ h => h

lemma keeps_raise (e : S.Raise) : (raise e : Co S α).Keeps C I := fun _ _ h => h

lemma keeps_modify {f : S.State → S.State} (hf : ∀ g s, I g s → I g (f s)) :
    (modify f).Keeps C I := hf

lemma keeps_spent (h : ∀ g s, I g s → C.cut g) : (spent : Co S α).Keeps C I := h

lemma keeps_call {c : S.Command} (hmay : ∀ g s, I g s → C.may g s c)
    (henv : ∀ g s r g' s', I g s → C.env g s c r g' s' → I g' s') : (call c).Keeps C I := by
  intro g s h
  rw [wp_call]
  exact ⟨hmay g s h, fun a g' s' => henv g s (.ok a) g' s' h,
    fun e g' s' => henv g s (.error e) g' s' h⟩

/-- What keeps the invariant establishes every postcondition that follows from it. -/
lemma Keeps.wp {x : Co S α} (hx : x.Keeps C I) {φ : α → G → S.State → Prop}
    {ψ : S.Raise → G → S.State → Prop} {g : G} {s : S.State} (h : I g s)
    (hφ : ∀ a g s, I g s → φ a g s) (hψ : ∀ e g s, I g s → ψ e g s) : x.wp C φ ψ g s :=
  wp_mono (hx g s h) hφ hψ

lemma Keeps.bind {x : Co S α} {f : α → Co S β} (hx : x.Keeps C I) (hf : ∀ a, (f a).Keeps C I) :
    (x >>= f).Keeps C I := by
  intro g s h
  rw [wp_bind]
  exact hx.wp h hf fun _ _ _ h => h

/-- Reading the state first. -/
lemma keeps_get_bind {f : S.State → Co S β}
    (hf : ∀ g s, I g s → (f s).wp C (fun _ => I) (fun _ => I) g s) : (get >>= f).Keeps C I := by
  intro g s h
  rw [wp_bind]
  exact hf g s h

lemma Keeps.attempt {x : Co S α} (hx : x.Keeps C I) : x.attempt.Keeps C I := by
  intro g s h
  rw [wp_attempt]
  exact hx g s h

lemma Keeps.protect {x : Co S α} {handler : S.Raise → Co S α} (hx : x.Keeps C I)
    (hh : ∀ e, (handler e).Keeps C I) : (x.protect handler).Keeps C I := by
  intro g s h
  rw [wp_protect]
  exact hx.wp h (fun _ _ _ h => h) hh

lemma Keeps.ite {p : Prop} [Decidable p] {x y : Co S α} (hx : x.Keeps C I) (hy : y.Keeps C I) :
    (if p then x else y).Keeps C I := by
  split
  · exact hx
  · exact hy

end Co

/-! ## Soundness for executions -/

/-- The surroundings keep the contract along an execution; the ghost state goes from the first
index to the last. -/
inductive Contract.Admits (C : Contract S G) : G → List (Exchange S) → G → Prop
  | nil (g : G) : C.Admits g [] g
  | cons {g g' g'' : G} {x : Exchange S} {tr : List (Exchange S)}
      (h : C.env g x.before x.command x.answer g' x.after) (ht : C.Admits g' tr g'') :
      C.Admits g (x :: tr) g''

/-- **Soundness.**  Along every admitted execution the weakest precondition is preserved. -/
theorem Program.wp_run {C : Contract S G} {φ : α → G → S.State → Prop}
    {ψ : S.Raise → G → S.State → Prop} {p q : Program S α} {g g' : G} {tr : List (Exchange S)}
    (h : p.wp C φ ψ g) (hrun : Run p tr q) (hadm : C.Admits g tr g') : q.wp C φ ψ g' := by
  induction hrun generalizing g with
  | nil => cases hadm; exact h
  | cons r s' _ ih =>
      obtain _ | ⟨henv, ht⟩ := hadm
      exact ih (h.2 r _ s' henv) ht

/-- Every command of an admitted execution was allowed when it was sent. -/
theorem Program.wp_run_may {C : Contract S G} {φ : α → G → S.State → Prop}
    {ψ : S.Raise → G → S.State → Prop} {p q : Program S α} {g g' : G}
    {pre post : List (Exchange S)} {x : Exchange S} (h : p.wp C φ ψ g)
    (hrun : Run p (pre ++ x :: post) q) (hadm : C.Admits g pre g') :
    C.may g' x.before x.command := by
  obtain ⟨p', hpre, hrest⟩ := run_append_iff.mp hrun
  have hp' := Program.wp_run h hpre hadm
  cases hrest
  exact hp'.1

/-! ## Monitors -/

/-- A contract that only watches: `next` computes the ghost state from the exchanges, `allowed`
says what may be sent in it, `possible` how an await can end at all. -/
def Contract.monitor (allowed : G → S.Command → Prop)
    (possible : (c : S.Command) → Except S.Raise (S.Answer c) → Prop)
    (next : G → (c : S.Command) → Except S.Raise (S.Answer c) → G)
    (cut : G → Prop := fun _ => True) : Contract S G where
  may g _ c := allowed g c
  env g _ c r g' _ := possible c r ∧ g' = next g c r
  cut := cut

/-- What a monitor knows after an execution. -/
def watch (next : G → (c : S.Command) → Except S.Raise (S.Answer c) → G) (g : G)
    (tr : List (Exchange S)) : G :=
  tr.foldl (fun g x => next g x.command x.answer) g

/-- Every command of an execution was allowed when it was sent. -/
def Obeys (allowed : G → S.Command → Prop)
    (next : G → (c : S.Command) → Except S.Raise (S.Answer c) → G) : G → List (Exchange S) → Prop
  | _, [] => True
  | g, x :: tr => allowed g x.command ∧ Obeys allowed next (next g x.command x.answer) tr

section Monitors

variable {allowed : G → S.Command → Prop}
  {possible : (c : S.Command) → Except S.Raise (S.Answer c) → Prop}
  {next : G → (c : S.Command) → Except S.Raise (S.Answer c) → G} {cut : G → Prop}

@[simp] lemma watch_nil (g : G) : watch next g ([] : List (Exchange S)) = g := rfl

@[simp] lemma watch_cons (g : G) (x : Exchange S) (tr : List (Exchange S)) :
    watch next g (x :: tr) = watch next (next g x.command x.answer) tr := rfl

lemma watch_append (g : G) (tr tr' : List (Exchange S)) :
    watch next g (tr ++ tr') = watch next (watch next g tr) tr' := List.foldl_append

/-- **Soundness for monitors.** -/
theorem Program.wp_monitor {φ : α → G → S.State → Prop} {ψ : S.Raise → G → S.State → Prop}
    {p q : Program S α} {g : G} {tr : List (Exchange S)}
    (h : p.wp (.monitor allowed possible next cut) φ ψ g) (hrun : Run p tr q)
    (hpossible : ∀ x ∈ tr, possible x.command x.answer) :
    Obeys allowed next g tr ∧ q.wp (.monitor allowed possible next cut) φ ψ (watch next g tr) := by
  induction hrun generalizing g with
  | nil => exact ⟨trivial, h⟩
  | cons r s' _ ih =>
      have hnext := h.2 r _ s' ⟨hpossible _ (List.mem_cons_self ..), rfl⟩
      obtain ⟨hobeys, hq⟩ := ih hnext fun x hx => hpossible x (List.mem_cons_of_mem _ hx)
      exact ⟨⟨h.1, hobeys⟩, hq⟩

end Monitors

/-! ## Trackers

A tracker computes its ghost state from the exchanges as a monitor does, and from the shared states
before and after them.
-/

/-- A contract that watches the exchanges and the shared state. -/
def Contract.tracker (allowed : G → S.Command → Prop)
    (possible : (c : S.Command) → Except S.Raise (S.Answer c) → Prop)
    (next : G → Exchange S → G) (cut : G → Prop) : Contract S G where
  may g _ c := allowed g c
  env g s c r g' s' := possible c r ∧ g' = next g ⟨c, s, r, s'⟩
  cut := cut

section Trackers

variable {allowed : G → S.Command → Prop}
  {possible : (c : S.Command) → Except S.Raise (S.Answer c) → Prop} {next : G → Exchange S → G}
  {cut : G → Prop}

lemma Contract.admits_tracker (g : G) {tr : List (Exchange S)}
    (h : ∀ x ∈ tr, possible x.command x.answer) :
    (Contract.tracker allowed possible next cut).Admits g tr (tr.foldl next g) := by
  induction tr generalizing g with
  | nil => exact .nil g
  | cons x tr ih =>
      have hrest := ih (next g x) fun y hy => h y (List.mem_cons_of_mem _ hy)
      exact .cons ⟨h x (List.mem_cons_self ..), rfl⟩ hrest

/-- **Soundness for trackers.** -/
theorem Program.wp_track {φ : α → G → S.State → Prop} {ψ : S.Raise → G → S.State → Prop}
    {p q : Program S α} {g : G} {tr : List (Exchange S)}
    (h : p.wp (.tracker allowed possible next cut) φ ψ g) (hrun : Run p tr q)
    (hpossible : ∀ x ∈ tr, possible x.command x.answer) :
    q.wp (.tracker allowed possible next cut) φ ψ (tr.foldl next g) :=
  Program.wp_run h hrun (Contract.admits_tracker g hpossible)

/-- Every command was allowed after what came before it. -/
theorem Program.wp_track_may {φ : α → G → S.State → Prop} {ψ : S.Raise → G → S.State → Prop}
    {p q : Program S α} {g : G} {pre post : List (Exchange S)} {x : Exchange S}
    (h : p.wp (.tracker allowed possible next cut) φ ψ g) (hrun : Run p (pre ++ x :: post) q)
    (hpossible : ∀ y ∈ pre ++ x :: post, possible y.command y.answer) :
    allowed (pre.foldl next g) x.command :=
  Program.wp_run_may h hrun
    (Contract.admits_tracker g fun y hy => hpossible y (List.mem_append_left _ hy))

end Trackers

/-! ## Logs

A monitor sees the exchanges only.  Where the answers depend on a world outside (a server's
state at the moment of the answer), the log keeps that world beside each exchange.
-/

/-- An await, with what the world outside looked like when it was answered. -/
structure Moment (S : Signature) (W : Type) where
  world : W
  exchange : Exchange S

variable {W : Type}

/-- The contract whose ghost state is the log itself: `faithful` says how the world answers,
`allowed` what may be sent after a log.  No loop may be cut. -/
def Contract.logged (allowed : List (Moment S W) → S.Command → Prop)
    (faithful : Moment S W → Prop) : Contract S (List (Moment S W)) where
  may log _ c := allowed log c
  env log s c r log' s' :=
    ∃ w, faithful ⟨w, ⟨c, s, r, s'⟩⟩ ∧ log' = log ++ [⟨w, ⟨c, s, r, s'⟩⟩]
  cut _ := False

section Logs

variable {allowed : List (Moment S W) → S.Command → Prop} {faithful : Moment S W → Prop}

/-- A faithful world is one that the contract admits. -/
lemma Contract.admits_logged (log : List (Moment S W)) {ms : List (Moment S W)}
    (h : ∀ m ∈ ms, faithful m) :
    (Contract.logged allowed faithful).Admits log (ms.map Moment.exchange) (log ++ ms) := by
  induction ms generalizing log with
  | nil =>
      rw [List.append_nil]
      exact .nil log
  | cons m ms ih =>
      have hrest := ih (log ++ [m]) fun m' hm' => h m' (List.mem_cons_of_mem _ hm')
      rw [List.append_assoc, List.singleton_append] at hrest
      exact .cons ⟨m.world, h m (List.mem_cons_self ..), rfl⟩ hrest

/-- **Soundness for logs.** -/
theorem Program.wp_log {φ : α → List (Moment S W) → S.State → Prop}
    {ψ : S.Raise → List (Moment S W) → S.State → Prop} {p q : Program S α}
    {ms : List (Moment S W)} (h : p.wp (.logged allowed faithful) φ ψ [])
    (hrun : Run p (ms.map Moment.exchange) q) (hms : ∀ m ∈ ms, faithful m) :
    q.wp (.logged allowed faithful) φ ψ ms :=
  Program.wp_run h hrun (Contract.admits_logged [] hms)

/-- Every command of a log was allowed after what came before it. -/
theorem Program.wp_log_may {φ : α → List (Moment S W) → S.State → Prop}
    {ψ : S.Raise → List (Moment S W) → S.State → Prop} {p q : Program S α}
    {pre post : List (Moment S W)} {m : Moment S W}
    (h : p.wp (.logged allowed faithful) φ ψ [])
    (hrun : Run p ((pre ++ m :: post).map Moment.exchange) q)
    (hms : ∀ m' ∈ pre ++ m :: post, faithful m') : allowed pre m.exchange.command := by
  rw [List.map_append, List.map_cons] at hrun
  exact Program.wp_run_may h hrun
    (Contract.admits_logged [] fun m' hm' => hms m' (List.mem_append_left _ hm'))

end Logs

/-! ## What a coroutine can send at all -/

/-- Every command that the coroutine sends, in any execution, is one of `P`. -/
def Co.SendsOnly (P : S.Command → Prop) (x : Co S α) : Prop :=
  x.Keeps (.monitor (fun (_ : Unit) c => P c) (fun _ _ => True) fun g _ _ => g)

namespace Co.SendsOnly

variable {P Q : S.Command → Prop}

lemma call {c : S.Command} (h : P c) : (Co.call c).SendsOnly P :=
  Co.keeps_call (fun _ _ _ => h) fun _ _ _ _ _ _ _ => trivial

lemma ret (a : α) : (Co.ret a : Co S α).SendsOnly P := Co.keeps_ret a

lemma raise (e : S.Raise) : (Co.raise e : Co S α).SendsOnly P := Co.keeps_raise e

lemma modify (f : S.State → S.State) : (Co.modify f).SendsOnly P :=
  Co.keeps_modify fun _ _ _ => trivial

lemma bind {x : Co S α} {f : α → Co S β} (hx : x.SendsOnly P) (hf : ∀ a, (f a).SendsOnly P) :
    (x >>= f).SendsOnly P :=
  Co.Keeps.bind hx hf

lemma protect {x : Co S α} {handler : S.Raise → Co S α} (hx : x.SendsOnly P)
    (hh : ∀ e, (handler e).SendsOnly P) : (x.protect handler).SendsOnly P :=
  Co.Keeps.protect hx hh

lemma ite {p : Prop} [Decidable p] {x y : Co S α} (hx : x.SendsOnly P) (hy : y.SendsOnly P) :
    (if p then x else y).SendsOnly P :=
  Co.Keeps.ite hx hy

lemma finally_ {x : Co S α} (hx : x.SendsOnly P) (last : S.State → S.State) :
    (x.finally_ last).SendsOnly P := by
  intro g s h
  rw [Co.wp_finally]
  exact hx g s h

lemma mono {x : Co S α} (hx : x.SendsOnly P) (h : ∀ c, P c → Q c) : x.SendsOnly Q := by
  intro g s hg
  have hmono : ∀ {p : Program S α} {φ : α → Unit → S.State → Prop}
      {ψ : S.Raise → Unit → S.State → Prop},
      p.wp (.monitor (fun (_ : Unit) c => P c) (fun _ _ => True) fun g _ _ => g) φ ψ () →
        p.wp (.monitor (fun (_ : Unit) c => Q c) (fun _ _ => True) fun g _ _ => g) φ ψ () := by
    intro p φ ψ hp
    induction p with
    | done r s => cases r <;> exact hp
    | await c s k ih => exact ⟨h c hp.1, fun r g' s' henv => ih r s' (hp.2 r g' s' henv)⟩
    | spent => exact hp
  exact hmono (hx g s hg)

/-- **Soundness.** -/
theorem run {x : Co S α} (hx : x.SendsOnly P) {s : S.State} {tr : List (Exchange S)}
    {q : Program S α} (hrun : Run (x s) tr q) : ∀ c ∈ commands tr q, P c := by
  obtain ⟨hobeys, hq⟩ := Program.wp_monitor (hx () s trivial) hrun fun _ _ => trivial
  have htr : ∀ {tr : List (Exchange S)}, Obeys (fun (_ : Unit) c => P c) (fun g _ _ => g) () tr →
      ∀ x ∈ tr, P x.command := by
    intro tr
    induction tr with
    | nil => exact fun _ x hx => absurd hx List.not_mem_nil
    | cons y tr ih =>
        intro hobeys x hx
        rcases List.mem_cons.mp hx with rfl | hx
        · exact hobeys.1
        · exact ih hobeys.2 x hx
  intro c hc
  rcases List.mem_append.mp hc with hc | hc
  · obtain ⟨x, hx, rfl⟩ := List.mem_map.mp hc
    exact htr hobeys x hx
  · cases q with
    | await c' s' k =>
        rw [Program.command?_await, Option.toList_some, List.mem_singleton] at hc
        rw [hc]
        exact hq.1
    | done r s' => cases hc
    | spent => cases hc

end Co.SendsOnly

end Coroutine
