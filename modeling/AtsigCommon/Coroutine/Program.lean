import Mathlib.Data.List.Basic
import Mathlib.Logic.Basic

/-!
# Coroutines as resumptions

A coroutine runs without interruption until it awaits something; while it waits, anything else
may happen.  `Program S α` is the tree of everything such a coroutine can do: it has ended with a
result (`done`), or it waits for the answer to a command and goes on, from the answer and from
whatever the shared state has become meanwhile, as its continuation says (`await`).

* `Co S α` — a coroutine function: from the shared state at the moment it is entered to the tree
  of its behaviour.  It is a monad, with `raise`, `attempt`, `protect` and `finally_`, all of
  them instances of one sequencing operation, `Program.andThen`.
* `Program.spent` — an unbounded loop is unfolded to a bounded depth, and this is what stands
  where the unfolding was cut.  A finite execution needs a finite depth only, so a statement
  about every depth is a statement about every execution.
* `Run p tr q` — `p` becomes `q` after the exchanges `tr`.  The answers and the state changes are
  chosen by the surroundings, so `Run` is the set of all executions.
-/

namespace Coroutine

/-- What the coroutines of one program share: the state they all see, the commands they can
await, the type of the answer to each, and what an await can raise. -/
structure Signature where
  State : Type
  Command : Type
  Answer : Command → Type
  Raise : Type

variable {S : Signature} {α β γ : Type}

/-- A coroutine that has been entered: it has ended, or it waits at an `await` with the state it
left behind, or the unfolding of a loop was cut here. -/
inductive Program (S : Signature) (α : Type) : Type
  | done (r : Except S.Raise α) (s : S.State)
  | await (c : S.Command) (s : S.State)
      (k : Except S.Raise (S.Answer c) → S.State → Program S α)
  | spent

/-- Go on with `f` when the program has ended, whichever way it ended. -/
def Program.andThen : Program S α → (Except S.Raise α → S.State → Program S β) → Program S β
  | .done r s, f => f r s
  | .await c s k, f => .await c s fun r s' => (k r s').andThen f
  | .spent, _ => .spent

@[simp] lemma Program.andThen_done (r : Except S.Raise α) (s : S.State)
    (f : Except S.Raise α → S.State → Program S β) : (Program.done r s).andThen f = f r s := rfl

@[simp] lemma Program.andThen_await (c : S.Command) (s : S.State)
    (k : Except S.Raise (S.Answer c) → S.State → Program S α)
    (f : Except S.Raise α → S.State → Program S β) :
    (Program.await c s k).andThen f = .await c s fun r s' => (k r s').andThen f := rfl

@[simp] lemma Program.andThen_spent (f : Except S.Raise α → S.State → Program S β) :
    (Program.spent : Program S α).andThen f = .spent := rfl

/-- The command a program waits on. -/
def Program.command? : Program S α → Option S.Command
  | .await c _ _ => some c
  | _ => none

/-- The state a program left behind when it last ran. -/
def Program.state? : Program S α → Option S.State
  | .done _ s => some s
  | .await _ s _ => some s
  | .spent => none

@[simp] lemma Program.command?_done (r : Except S.Raise α) (s : S.State) :
    (Program.done r s).command? = none := rfl

@[simp] lemma Program.command?_await (c : S.Command) (s : S.State)
    (k : Except S.Raise (S.Answer c) → S.State → Program S α) :
    (Program.await c s k).command? = some c := rfl

@[simp] lemma Program.command?_spent : (Program.spent : Program S α).command? = none := rfl

/-! ## Coroutine functions -/

/-- A coroutine function, from the state at its entry to its behaviour. -/
def Co (S : Signature) (α : Type) : Type := S.State → Program S α

namespace Co

/-- End normally. -/
def ret (a : α) : Co S α := fun s => .done (.ok a) s

/-- End with an exception. -/
def raise (e : S.Raise) : Co S α := fun s => .done (.error e) s

/-- Sequencing on both outcomes: the one operation the others are made of. -/
def andThen (x : Co S α) (f : Except S.Raise α → Co S β) : Co S β :=
  fun s => (x s).andThen fun r s' => f r s'

/-- An outcome that is already there. -/
def ofExcept : Except S.Raise α → Co S α
  | .ok a => ret a
  | .error e => raise e

/-- Sequencing: an exception skips what follows. -/
def bind (x : Co S α) (f : α → Co S β) : Co S β :=
  x.andThen fun
    | .ok a => f a
    | .error e => raise e

instance : Monad (Co S) where
  pure := ret
  bind := bind

/-- The outcome as a value: nothing is raised. -/
def attempt (x : Co S α) : Co S (Except S.Raise α) := x.andThen ret

/-- `try … except`: the handler gets every exception and raises again what it does not catch. -/
def protect (x : Co S α) (handler : S.Raise → Co S α) : Co S α :=
  x.andThen fun
    | .ok a => ret a
    | .error e => handler e

/-- `try … finally`, for a last step that awaits nothing. -/
def finally_ (x : Co S α) (last : S.State → S.State) : Co S α :=
  x.andThen fun r s => .done r (last s)

/-- Read the shared state. -/
def get : Co S S.State := fun s => .done (.ok s) s

/-- Change the shared state. -/
def modify (f : S.State → S.State) : Co S Unit := fun s => .done (.ok ()) (f s)

/-- Await the answer to a command. -/
def call (c : S.Command) : Co S (S.Answer c) := fun s => .await c s fun r s' => .done r s'

/-- The unfolding ends here. -/
def spent : Co S α := fun _ => .spent

end Co

/-! ## Executions -/

/-- One await as the surroundings see it: the command, the state the coroutine left, the answer,
and the state in which it went on. -/
structure Exchange (S : Signature) where
  command : S.Command
  before : S.State
  answer : Except S.Raise (S.Answer command)
  after : S.State

/-- `Run p tr q`: the answers and the state changes of `tr` take `p` to `q`. -/
inductive Run : Program S α → List (Exchange S) → Program S α → Prop
  | nil (p : Program S α) : Run p [] p
  | cons {c : S.Command} {s : S.State} {k : Except S.Raise (S.Answer c) → S.State → Program S α}
      {tr : List (Exchange S)} {q : Program S α} (r : Except S.Raise (S.Answer c)) (s' : S.State)
      (h : Run (k r s') tr q) : Run (.await c s k) (⟨c, s, r, s'⟩ :: tr) q

@[simp] lemma run_nil_iff {p q : Program S α} : Run p [] q ↔ p = q := by
  constructor
  · rintro ⟨⟩
    rfl
  · rintro rfl
    exact .nil p

@[simp] lemma run_done_iff {r : Except S.Raise α} {s : S.State} {tr : List (Exchange S)}
    {q : Program S α} : Run (.done r s) tr q ↔ tr = [] ∧ q = .done r s := by
  constructor
  · rintro ⟨⟩
    exact ⟨rfl, rfl⟩
  · rintro ⟨rfl, rfl⟩
    exact .nil _

@[simp] lemma run_spent_iff {tr : List (Exchange S)} {q : Program S α} :
    Run .spent tr q ↔ tr = [] ∧ q = .spent := by
  constructor
  · rintro ⟨⟩
    exact ⟨rfl, rfl⟩
  · rintro ⟨rfl, rfl⟩
    exact .nil _

/-- One exchange and the rest. -/
lemma run_await_cons_iff {c : S.Command} {s : S.State}
    {k : Except S.Raise (S.Answer c) → S.State → Program S α} {x : Exchange S}
    {tr : List (Exchange S)} {q : Program S α} :
    Run (.await c s k) (x :: tr) q
      ↔ ∃ r s', x = ⟨c, s, r, s'⟩ ∧ Run (k r s') tr q := by
  constructor
  · rintro ⟨⟩
    exact ⟨_, _, rfl, ‹_›⟩
  · rintro ⟨r, s', rfl, h⟩
    exact .cons r s' h

/-- The commands sent in an execution, the one that is still waiting included. -/
def commands (tr : List (Exchange S)) (q : Program S α) : List S.Command :=
  tr.map Exchange.command ++ q.command?.toList

/-- A program that waits on a command has sent it first. -/
lemma Run.head_commands {c : S.Command} {s : S.State}
    {k : Except S.Raise (S.Answer c) → S.State → Program S α} {tr : List (Exchange S)}
    {q : Program S α} (h : Run (.await c s k) tr q) : (commands tr q).head? = some c := by
  cases h with
  | nil => rfl
  | cons r s' h => rfl

/-- Executions compose. -/
lemma Run.trans {p q r : Program S α} {tr tr' : List (Exchange S)} (h : Run p tr q)
    (h' : Run q tr' r) : Run p (tr ++ tr') r := by
  induction h with
  | nil => exact h'
  | cons a s' _ ih => exact .cons a s' (ih h')

/-- An execution can be cut anywhere. -/
lemma run_append_iff {p r : Program S α} {tr tr' : List (Exchange S)} :
    Run p (tr ++ tr') r ↔ ∃ q, Run p tr q ∧ Run q tr' r := by
  constructor
  · induction tr generalizing p with
    | nil => exact fun h => ⟨p, .nil p, h⟩
    | cons x tr ih =>
        rintro ⟨⟩
        next h =>
          obtain ⟨q, hq, hr⟩ := ih h
          exact ⟨q, .cons _ _ hq, hr⟩
  · rintro ⟨q, h, h'⟩
    exact h.trans h'

/-- **There is a run to the end** for every way of answering the commands. -/
theorem Program.exists_run (answer : (c : S.Command) → Except S.Raise (S.Answer c))
    (p : Program S α) : ∃ tr q, Run p tr q ∧ q.command? = none
      ∧ ∀ x ∈ tr, x.answer = answer x.command := by
  induction p with
  | done r s => exact ⟨[], _, .nil _, rfl, nofun⟩
  | await c s k ih =>
      obtain ⟨tr, q, hrun, hq, hanswers⟩ := ih (answer c) s
      refine ⟨_, q, .cons (answer c) s hrun, hq, fun x hx => ?_⟩
      rcases List.mem_cons.mp hx with rfl | hx
      · rfl
      · exact hanswers x hx
  | spent => exact ⟨[], _, .nil _, rfl, nofun⟩

end Coroutine
