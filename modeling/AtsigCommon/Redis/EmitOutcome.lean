import AtsigCommon.Redis.Envelope

/-!
# How an emit ends

`emit` returns the id of the first `XADD` that succeeds, or raises the error of the serialisation
or of the last of its attempts.  This needs an attempt to be made, and the pause before the next one
to be a number: the number of retries is not negative, and `2 ** (attempt - 1)` is a float.

* `EmitOutcome` — the three ways to end.
* `emit_wp`, `emitSafe_wp` — what `emit` and `emit_safe` do within these limits.
* `emitLoop_overflows` — a run beyond them.
* `emit_outcome_iff` — when every run ends in one of the three ways.
-/

namespace Atsig

open Coroutine Python

/-! ## Outcomes -/

/-- `XADD` answers an id or raises an `Exception`; a pause ends. -/
def ProducerCommand.Possible : (c : ProducerCommand) → Except Raised c.Answer → Prop
  | .xadd .., r => r ≠ .error .cancelled
  | .sleep _, r => r = .ok ()

/-- The answer to an `XADD`. -/
def xaddAnswer? : Exchange producerSig → Option (Except Raised String)
  | ⟨.xadd .., _, r, _⟩ => some r
  | ⟨.sleep _, _, _, _⟩ => none

/-- The answers to all of them. -/
def xaddAnswers (tr : List (Exchange producerSig)) : List (Except Raised String) :=
  tr.filterMap xaddAnswer?

/-- Answers of commands that have failed. -/
def failures (errors : List PyException) : List (Except Raised String) :=
  errors.map fun e => .error (.exception e)

/-- The log when a coroutine went on for the last time. -/
def lastLog (log : producerSig.State) (tr : List (Exchange producerSig)) : producerSig.State :=
  (tr.getLast?.map Exchange.after).getD log

section Outcome

variable [StandardLibrary] (producer : EventProducer) (rid : String) (args : Emission)

/-- The three ways in which `emit` may end. -/
inductive EmitOutcome (tr : List (Exchange producerSig)) : Except Raised String → Prop
  /-- The first command that succeeded is the last one. -/
  | returned (errors : List PyException) (messageId : String)
      (h : xaddAnswers tr = failures errors ++ [.ok messageId]) : EmitOutcome tr (.ok messageId)
  /-- The payload can not be written as JSON, and no command was sent. -/
  | unserializable (e : PyException) (hdata : dumpsPayload args.payload = .error e)
      (h : xaddAnswers tr = []) : EmitOutcome tr (.error (.exception e))
  /-- All attempts were made, and the last one failed like this. -/
  | exhausted (errors : List PyException) (e : PyException)
      (h : xaddAnswers tr = failures (errors ++ [e]))
      (hcount : (errors.length : ℤ) + 1 = args.attempts producer) :
      EmitOutcome tr (.error (.exception e))

/-- The runs of `emit` that have ended. -/
def EmitEnded {α : Type} (x : Producer α) (log : producerSig.State)
    (tr : List (Exchange producerSig)) (r : Except Raised α) (log' : producerSig.State) : Prop :=
  Run (x log) tr (.done r log') ∧ ∀ x ∈ tr, ProducerCommand.Possible x.command x.answer

/-- **Every run of `emit`** ends in one of the three ways, and its commands are copies of one
command. -/
structure EmitSound : Prop where
  outcome : ∀ log tr r log', EmitEnded (emit producer rid args) log tr r log' →
    EmitOutcome producer args tr r
  copies : ∀ log tr q, Run (emit producer rid args log) tr q → ∃ fields, ∀ c ∈ commands tr q,
    c = .xadd args.target args.streamName fields (args.limit producer) ∨ ∃ delay, c = .sleep delay

/-- **Every run of `emit_safe`** raises no `Exception`, and returns nothing only after it has logged
an error. -/
def EmitSafeSound : Prop :=
  ∀ log tr r log', EmitEnded (emitSafe producer rid args) log tr r log' →
    (∀ e, r ≠ .error (.exception e))
      ∧ (r = .ok none → ∃ text, log' = lastLog log tr ++ [(.error, text)])

/-- The arguments that `emit_safe` gives to `emit`. -/
def Emission.safe : Emission :=
  { args with target := .redisManager, retries := some (args.retries.getD 2) }

/-- An attempt is made, and the pauses are numbers; or the payload can not be written. -/
def Emission.Within : Prop :=
  (∃ e, dumpsPayload args.payload = .error e)
    ∨ 1 ≤ args.attempts producer ∧ args.attempts producer ≤ 1025

end Outcome

/-! ## Within the limits -/

/-- What `emit` is told, with everything that has happened as the ghost state. -/
def Emitting : Contract producerSig (List (Exchange producerSig)) :=
  .tracker (fun _ _ => True) ProducerCommand.Possible (fun tr x => tr ++ [x]) fun _ => False

lemma foldl_append_singleton {α : Type} (tr tr' : List α) :
    tr'.foldl (fun tr x => tr ++ [x]) tr = tr ++ tr' := by
  induction tr' generalizing tr with
  | nil => simp
  | cons x tr' ih => rw [List.foldl_cons, ih, List.append_assoc, List.singleton_append]

lemma xaddAnswers_append (tr tr' : List (Exchange producerSig)) :
    xaddAnswers (tr ++ tr') = xaddAnswers tr ++ xaddAnswers tr' := List.filterMap_append

/-- One more `XADD`, and its answer. -/
lemma xaddAnswers_xadd {producer : EventProducer} {args : Emission}
    {fields : Dict String String} (tr : List (Exchange producerSig))
    (r : Except Raised String) (log log' : producerSig.State) :
    xaddAnswers (tr ++ [⟨.xadd args.target args.streamName fields (args.limit producer), log, r,
      log'⟩]) = xaddAnswers tr ++ [r] := xaddAnswers_append tr _

lemma failures_append (errors errors' : List PyException) :
    failures (errors ++ errors') = failures errors ++ failures errors' := List.map_append

lemma lastLog_concat (log : producerSig.State) (tr : List (Exchange producerSig))
    (x : Exchange producerSig) : lastLog log (tr ++ [x]) = x.after := by
  rw [lastLog, List.getLast?_concat]
  rfl

section Within

variable [StandardLibrary] {producer : EventProducer} {args : Emission}
  {fields : Dict String String} {log₀ : producerSig.State}

variable (producer args log₀) in
/-- All attempts were made. -/
def Exhausted (e : Raised) (tr : List (Exchange producerSig)) (log : producerSig.State) : Prop :=
  ∃ errors e', e = .exception e' ∧ xaddAnswers tr = failures (errors ++ [e'])
    ∧ (errors.length : ℤ) + 1 = args.attempts producer
    ∧ ∃ text, log = lastLog log₀ tr ++ [(.error, text)]

variable (log₀) in
omit [StandardLibrary] in
/-- The loop, after some attempts that have failed. -/
lemma emitLoop_wp (hmax : args.attempts producer ≤ 1025) : ∀ {left attempt : ℕ}
    (errors : List PyException) {tr : List (Exchange producerSig)} {log : producerSig.State},
    (attempt : ℤ) + left = args.attempts producer → errors.length + 1 = attempt →
    xaddAnswers tr = failures errors →
    (emitLoop producer args fields attempt (left + 1)).wp Emitting
      (fun messageId tr' _ => ∃ id errors, messageId = some id
        ∧ xaddAnswers tr' = failures errors ++ [.ok id])
      (Exhausted producer args log₀) tr log
  | left, attempt, errors, tr, log, hleft, hattempt, htr => by
      rw [emitLoop, Co.wp_bind, emitAttempt, Producer.exceptException, Co.wp_protect, Co.wp_bind]
      refine ⟨trivial, ?_⟩
      rintro r tr' log' ⟨hpossible, rfl⟩
      cases r with
      | ok id => exact ⟨id, errors, rfl, by rw [xaddAnswers_xadd, htr]⟩
      | error e =>
          cases e with
          | cancelled => exact absurd rfl hpossible
          | exception e =>
              show Co.wp _ (ite ((attempt : ℤ) = args.attempts producer) _ _) _ _ _ _
              split_ifs with hlast
              · rw [Co.wp_bind]
                refine ⟨errors, e, rfl, ?_, by omega, ?_⟩
                · rw [xaddAnswers_xadd, htr, failures_append]
                  rfl
                · rw [lastLog_concat]
                  exact ⟨_, rfl⟩
              · have hdelay := floatMulInt_pow args.retryDelay
                  (show attempt - 1 < 1024 by omega)
                rw [Co.wp_bind, hdelay]
                refine ⟨trivial, ?_⟩
                rintro r tr'' log'' ⟨hslept, rfl⟩
                obtain rfl : r = .ok () := hslept
                cases left with
                | zero => omega
                | succ left =>
                    have hcount : (errors ++ [e]).length + 1 = attempt + 1 := by
                      rw [List.length_append, List.length_singleton, hattempt]
                    refine emitLoop_wp hmax (errors ++ [e]) (by omega) hcount ?_
                    rw [xaddAnswers_append, xaddAnswers_xadd, htr, failures_append]
                    exact List.append_nil _

/-- **`emit`, within the limits.** -/
lemma emit_wp (rid : String) (hwithin : args.Within producer) (log : producerSig.State) :
    (emit producer rid args).wp Emitting (fun id tr _ => EmitOutcome producer args tr (.ok id))
      (fun e tr log' => EmitOutcome producer args tr (.error e)
        ∧ ∃ text, log' = lastLog log tr ++ [(.error, text)]) [] log := by
  rw [emit]
  cases hdata : dumpsPayload args.payload with
  | error e => exact ⟨.unserializable e hdata rfl, _, rfl⟩
  | ok data =>
      have hattempts : 1 ≤ args.attempts producer ∧ args.attempts producer ≤ 1025 := by
        rcases hwithin with ⟨e, he⟩ | hattempts
        · rw [hdata] at he
          cases he
        · exact hattempts
      obtain ⟨left, hleft⟩ : ∃ left : ℕ, (args.attempts producer).toNat = left + 1 :=
        ⟨(args.attempts producer).toNat - 1, by omega⟩
      dsimp only
      rw [Co.wp_bind, hleft]
      refine Co.wp_mono (emitLoop_wp log hattempts.2 [] (by omega) rfl rfl)
        ?_ ?_
      · rintro _ tr log' ⟨id, errors, rfl, htr⟩
        show Co.wp _ (logEmitted args id >>= fun _ => pure id) _ _ _ _
        rw [Co.wp_bind, logEmitted]
        cases args.target with
        | redisManager => exact .returned errors id htr
        | pipe => exact .returned errors id htr
      · rintro _ tr log' ⟨errors, e, rfl, htr, hcount, hlog⟩
        exact ⟨.exhausted errors e htr hcount, hlog⟩

/-- **`emit_safe`, within the limits.** -/
lemma emitSafe_wp (rid : String) (hwithin : args.safe.Within producer) (log : producerSig.State) :
    (emitSafe producer rid args).wp Emitting
      (fun r tr log' => r = none → ∃ text, log' = lastLog log tr ++ [(.error, text)])
      (fun e _ _ => ∀ e', e ≠ .exception e') [] log := by
  rw [emitSafe]
  dsimp only
  rw [Producer.exceptException, Co.wp_protect, Co.wp_bind]
  refine Co.wp_mono (emit_wp rid hwithin log) (fun id tr log' _ => ?_) ?_
  · exact nofun
  · rintro e tr log' ⟨-, hlog⟩
    cases e with
    | cancelled => exact nofun
    | exception e => exact fun _ => hlog

omit [StandardLibrary] in
/-- A run that has ended satisfies the postcondition. -/
lemma EmitEnded.post {α : Type} {x : Producer α} {log log' : producerSig.State}
    {tr : List (Exchange producerSig)} {r : Except Raised α} (h : EmitEnded x log tr r log')
    {φ : α → List (Exchange producerSig) → producerSig.State → Prop}
    {ψ : Raised → List (Exchange producerSig) → producerSig.State → Prop}
    (hx : x.wp Emitting φ ψ [] log) : match r with
      | .ok a => φ a tr log'
      | .error e => ψ e tr log' := by
  have hdone := Program.wp_track hx h.1 h.2
  rw [foldl_append_singleton, List.nil_append] at hdone
  cases r with
  | ok a => exact hdone
  | error e => exact hdone

end Within

/-! ## Beyond the limits -/

/-- Redis is down. -/
def downAnswer (e : PyException) : (c : ProducerCommand) → Except Raised c.Answer
  | .xadd .. => .error (.exception e)
  | .sleep _ => .ok ()

lemma downAnswer_possible (e : PyException) (c : ProducerCommand) :
    c.Possible (downAnswer e c) := by
  cases c with
  | xadd target streamName fields maxlen => exact nofun
  | sleep delay => rfl

/-- What `emit` is told when Redis is down. -/
def Down (e : PyException) : Contract producerSig (List (Exchange producerSig)) :=
  .tracker (fun _ _ => True) (fun c r => r = downAnswer e c) (fun tr x => tr ++ [x]) fun _ => False

/-- There is a run of a coroutine while Redis is down. -/
lemma ended_down {α : Type} {x : Producer α} {e : PyException} {log : producerSig.State}
    {φ : α → List (Exchange producerSig) → producerSig.State → Prop}
    {ψ : Raised → List (Exchange producerSig) → producerSig.State → Prop}
    (hx : x.wp (Down e) φ ψ [] log) : ∃ tr r log', EmitEnded x log tr r log' ∧ match r with
      | .ok a => φ a tr log'
      | .error e => ψ e tr log' := by
  obtain ⟨tr, q, hrun, hq, hanswers⟩ := Program.exists_run (S := producerSig) (downAnswer e) (x log)
  have hend := Program.wp_track hx hrun hanswers
  rw [foldl_append_singleton, List.nil_append] at hend
  cases q with
  | spent => exact hend.elim
  | await c log' k => cases hq
  | done r log' =>
      refine ⟨tr, r, log', ⟨hrun, fun x hx => ?_⟩, ?_⟩
      · rw [hanswers x hx]
        exact downAnswer_possible e x.command
      · cases r with
        | ok a => exact hend
        | error e => exact hend

section Beyond

variable [StandardLibrary] {producer : EventProducer} {args : Emission}
  {fields : Dict String String} {log₀ : producerSig.State} {e : PyException}

variable (log₀) in
/-- The 1025th pause is not a number, and no error is logged. -/
def Overflowed (e : Raised) (tr : List (Exchange producerSig)) (log : producerSig.State) : Prop :=
  e = .exception overflowError ∧ (xaddAnswers tr).length = 1025
    ∧ ∃ text, log = lastLog log₀ tr ++ [(.warning, text)]

variable (log₀) in
omit [StandardLibrary] in
/-- The loop while Redis is down, with more attempts than pauses. -/
lemma emitLoop_overflows (hmany : 1025 < args.attempts producer) : ∀ {left attempt : ℕ}
    {tr : List (Exchange producerSig)} {log : producerSig.State},
    (attempt : ℤ) + left = args.attempts producer → attempt ≤ 1025 →
    (xaddAnswers tr).length + 1 = attempt →
    (emitLoop producer args fields attempt (left + 1)).wp (Down e) (fun _ _ _ => False)
      (Overflowed log₀) tr log
  | left, attempt, tr, log, hleft, hmax, htr => by
      rw [emitLoop, Co.wp_bind, emitAttempt, Producer.exceptException, Co.wp_protect, Co.wp_bind]
      refine ⟨trivial, ?_⟩
      rintro r tr' log' ⟨hdown, rfl⟩
      obtain rfl : r = .error (.exception e) := hdown
      show Co.wp _ (ite ((attempt : ℤ) = args.attempts producer) _ _) _ _ _ _
      rw [if_neg (by omega), Co.wp_bind]
      by_cases hlast : attempt = 1025
      · rw [floatMulInt_overflow args.retryDelay (show 1024 ≤ attempt - 1 by omega)]
        refine ⟨rfl, ?_, ?_⟩
        · rw [xaddAnswers_xadd, List.length_append, List.length_singleton]
          omega
        · rw [lastLog_concat]
          exact ⟨_, rfl⟩
      · have hdelay := floatMulInt_pow args.retryDelay
          (show attempt - 1 < 1024 by omega)
        rw [hdelay]
        refine ⟨trivial, ?_⟩
        rintro r tr'' log'' ⟨hslept, rfl⟩
        obtain rfl : r = .ok () := hslept
        cases left with
        | zero => omega
        | succ left =>
            refine emitLoop_overflows hmany (by omega) (by omega) ?_
            rw [xaddAnswers_append, xaddAnswers_xadd, List.length_append, List.length_append,
              List.length_singleton, ← htr]
            rfl

/-- **`emit`, beyond the limits**, while Redis is down: it does not end in one of the three ways,
and it logs no error. -/
lemma emit_beyond_wp (rid : String) (hbeyond : ¬ args.Within producer) (log : producerSig.State) :
    (emit producer rid args).wp (Down e) (fun _ _ _ => False)
      (fun e' tr log' => e' ≠ .cancelled ∧ ¬ EmitOutcome producer args tr (.error e')
        ∧ ∀ text, log' ≠ lastLog log tr ++ [(.error, text)]) [] log := by
  rw [Emission.Within, not_or, not_exists, not_and_or] at hbeyond
  obtain ⟨hdumps, hattempts⟩ := hbeyond
  rw [emit]
  cases hdata : dumpsPayload args.payload with
  | error e' => exact absurd hdata (hdumps e')
  | ok data =>
      dsimp only
      rw [Co.wp_bind]
      by_cases hnone : 1 ≤ args.attempts producer
      · -- the loop ends in the middle of a pause
        have hmany : 1025 < args.attempts producer := by omega
        obtain ⟨left, hleft⟩ : ∃ left : ℕ, (args.attempts producer).toNat = left + 1 :=
          ⟨(args.attempts producer).toNat - 1, by omega⟩
        rw [hleft]
        refine Co.wp_mono (emitLoop_overflows log hmany (by omega) (by omega) rfl)
          (fun _ _ _ h => h.elim) ?_
        rintro _ tr log' ⟨rfl, hlength, text, rfl⟩
        refine ⟨fun h => (by cases h), fun houtcome => ?_, fun text' heq => ?_⟩
        · cases houtcome with
          | unserializable e' hdata' h => exact hdumps _ hdata'
          | exhausted errors e' h hcount =>
              rw [h, failures, List.length_map, List.length_append, List.length_singleton]
                at hlength
              omega
        · have hline := List.append_cancel_left heq
          rw [List.singleton_inj, Prod.mk.injEq] at hline
          cases hline.1
      · -- no attempt is made
        have hzero : (args.attempts producer).toNat = 0 := by omega
        rw [hzero]
        refine ⟨fun h => (by cases h), fun houtcome => ?_, fun text heq => ?_⟩
        · cases houtcome with
          | unserializable e' hdata' h => exact hdumps _ hdata'
          | exhausted errors e' h hcount =>
              rw [failures_append] at h
              exact absurd h.symm (List.append_ne_nil_of_right_ne_nil _ (List.cons_ne_nil _ _))
        · exact absurd (List.self_eq_append_right.mp heq) (List.cons_ne_nil _ _)

lemma emitSafe_beyond_wp (rid : String) (hbeyond : ¬ args.safe.Within producer)
    (log : producerSig.State) :
    (emitSafe producer rid args).wp (Down e)
      (fun r tr log' => r = none ∧ ∀ text, log' ≠ lastLog log tr ++ [(.error, text)])
      (fun _ _ _ => False) [] log := by
  rw [emitSafe]
  dsimp only
  rw [Producer.exceptException, Co.wp_protect, Co.wp_bind]
  refine Co.wp_mono (emit_beyond_wp rid hbeyond log) (fun _ _ _ h => h.elim) ?_
  rintro e' tr log' ⟨hexception, -, hlog⟩
  cases e' with
  | cancelled => exact absurd rfl hexception
  | exception e' => exact ⟨rfl, hlog⟩

end Beyond

/-! ## Every run -/

section Every

variable [StandardLibrary] (producer : EventProducer) (rid : String) (args : Emission)

/-- The commands of `emit` are copies of one command. -/
lemma emit_copies (log : producerSig.State) (tr : List (Exchange producerSig))
    (q : Program producerSig String) (hrun : Run (emit producer rid args log) tr q) :
    ∃ fields, ∀ c ∈ commands tr q,
      c = .xadd args.target args.streamName fields (args.limit producer)
        ∨ ∃ delay, c = .sleep delay := by
  have hsends := (emit_sends producer rid args).run hrun
  cases hdata : dumpsPayload args.payload with
  | error e =>
      refine ⟨.empty, fun c hc => ?_⟩
      cases hsends c hc with
      | xadd data hdata' =>
          rw [hdata] at hdata'
          cases hdata'
      | sleep delay => exact .inr ⟨delay, rfl⟩
  | ok data =>
      refine ⟨streamData args.action data rid, fun c hc => ?_⟩
      cases hsends c hc with
      | xadd data' hdata' =>
          rw [hdata] at hdata'
          obtain rfl := Except.ok.inj hdata'
          exact .inl rfl
      | sleep delay => exact .inr ⟨delay, rfl⟩

/-- **How an emit ends.**  Every run of `emit` ends in one of the three ways exactly if an attempt
is made and there are no more than 1024 pauses, or the payload can not be written; and likewise
`emit_safe` returns nothing only after an error was logged. -/
theorem emit_outcome_iff : (EmitSound producer rid args ↔ args.Within producer)
    ∧ (EmitSafeSound producer rid args ↔ args.safe.Within producer) := by
  refine ⟨⟨fun hsound => ?_, fun hwithin => ⟨?_, emit_copies producer rid args⟩⟩,
    fun hsound => ?_, fun hwithin => ?_⟩
  · by_contra hbeyond
    obtain ⟨tr, r, log', hended, hend⟩ :=
      ended_down (emit_beyond_wp (e := overflowError) rid hbeyond [])
    have houtcome := hsound.outcome _ _ _ _ hended
    cases r with
    | ok id => exact hend
    | error e => exact hend.2.1 houtcome
  · intro log tr r log' hended
    have hend := hended.post (emit_wp rid hwithin log)
    cases r with
    | ok id => exact hend
    | error e => exact hend.1
  · by_contra hbeyond
    obtain ⟨tr, r, log', hended, hend⟩ :=
      ended_down (emitSafe_beyond_wp (e := overflowError) rid hbeyond [])
    cases r with
    | ok r =>
        obtain ⟨rfl, hlog⟩ := hend
        obtain ⟨text, htext⟩ := (hsound _ _ _ _ hended).2 rfl
        exact hlog text htext
    | error e => exact hend
  · intro log tr r log' hended
    have hend := hended.post (emitSafe_wp rid hwithin log)
    cases r with
    | ok r => exact ⟨nofun, fun h => hend (Except.ok.inj h)⟩
    | error e =>
        refine ⟨fun e' he' => ?_, nofun⟩
        exact hend e' (Except.error.inj he')

end Every

/-! ## No attempt -/

section NoAttempt

attribute [local instance] plainLibrary

/-- A change that is emitted with one retry less than none. -/
def lostEmission : Emission where
  streamName := "calls_events"
  action := "sync"
  payload := .json []
  retries := some (-1)

/-- `emit` sends nothing and raises an `UnboundLocalError`, and `emit_safe` returns nothing without
a line in the log. -/
theorem emission_lost :
    EmitEnded (emit {} "" lostEmission) [] [] (.error (.exception unboundLocalError)) []
      ∧ EmitEnded (emitSafe {} "" lostEmission) [] [] (.ok none) []
      ∧ ¬ EmitSound {} "" lostEmission ∧ ¬ EmitSafeSound {} "" lostEmission := by
  have hraises : EmitEnded (emit {} "" lostEmission) [] []
      (.error (.exception unboundLocalError)) [] := ⟨.nil _, nofun⟩
  have hlost : EmitEnded (emitSafe {} "" lostEmission) [] [] (.ok none) [] := ⟨.nil _, nofun⟩
  refine ⟨hraises, hlost, fun hsound => ?_, fun hsound => ?_⟩
  · cases hsound.outcome _ _ _ _ hraises with
    | unserializable e hdata h => cases hdata
    | exhausted errors e h hcount =>
        rw [failures_append] at h
        exact absurd h.symm (List.append_ne_nil_of_right_ne_nil _ (List.cons_ne_nil _ _))
  · obtain ⟨text, htext⟩ := (hsound _ _ _ _ hlost).2 rfl
    cases htext

end NoAttempt

end Atsig
