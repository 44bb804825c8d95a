import AtsigCommon.Redis.Stop
import Mathlib.Tactic.NormNum

/-!
# Errors of the read loop

A loop error is an exception of the reclaim scan or of `XREADGROUP`.  `run` counts the errors since
the last `XREADGROUP` that succeeded, sleeps longer after each of them, and gives up when there are
too many.  The back-off is computed in the error handler itself: an int delay is multiplied exactly,
a float one by a power of two that does not fit a float from the 1025th error in a row on.

* `loopErrors`, `LoopView` — what can be seen of a run: its errors in a row, and where it is.
* `run_view` — what `run` does after what it has seen.
* `read_loop_right_iff` — when the read loop gives up and how long it sleeps.
* `ended_marked_iff` — when a run that has ended is marked as ended.
-/

namespace Atsig

open Coroutine Python

/-! ## What can be seen of a run -/

/-- The awaits of `run` whose exceptions reach its handler. -/
def Command.isLoopCall : Command → Bool
  | .xreadgroup .. | .xautoclaim .. | .xack .. => true
  | _ => false

def Command.isSleep : Command → Bool
  | .sleep _ => true
  | _ => false

/-- The errors in a row after one more await. -/
def nextErrors {α : Type} (errors : List PyException) (c : Command) :
    Except Raised α → List PyException
  | .ok _ => if c.isRead then [] else errors
  | .error .cancelled => errors
  | .error (.exception e) => if c.isLoopCall then errors ++ [e] else errors

/-- The loop errors since the last `XREADGROUP` that succeeded, or the start. -/
def loopErrors (tr : List (Exchange consumerSig)) : List PyException :=
  tr.foldl (fun errors x => nextErrors errors x.command x.answer) []

/-- Where a run is. -/
inductive Place
  /-- Before the group exists. -/
  | creating
  /-- The group could not be created. -/
  | refused
  | looping
  /-- A loop error has just occurred. -/
  | failed
  /-- A cancellation was delivered, in the back-off sleep or elsewhere. -/
  | interrupted (inSleep : Bool)
  deriving DecidableEq

/-- Where a run is after an await. -/
def Place.after {α : Type} (c : Command) (r : Except Raised α) : Place :=
  if c.isCreate then (if endsCreation r then .refused else .looping)
  else
    match r with
    | .ok _ => .looping
    | .error .cancelled => .interrupted c.isSleep
    | .error (.exception _) => if c.isLoopCall then .failed else .looping

/-- What has been seen of a run: the errors in a row, where it is, and whether its flag was up when
it went on. -/
structure LoopView where
  errors : List PyException
  place : Place
  up : Bool

def LoopView.init : LoopView := ⟨[], .creating, false⟩

/-- After one more await. -/
def LoopView.next (g : LoopView) (x : Exchange consumerSig) : LoopView where
  errors := nextErrors g.errors x.command x.answer
  place := .after x.command x.answer
  up := Self.isRunning x.after

lemma errors_foldl (tr : List (Exchange consumerSig)) (g : LoopView) :
    (tr.foldl LoopView.next g).errors
      = tr.foldl (fun errors x => nextErrors errors x.command x.answer) g.errors := by
  induction tr generalizing g with
  | nil => rfl
  | cons x tr ih => exact ih (g.next x)

section View

variable (cfg : Config)

/-- How long `run` sleeps after the `k`-th error in a row. -/
def backOff (k : ℕ) : ℚ := min (cfg.loopErrorDelay.value * 2 ^ (k - 1)) cfg.loopErrorMaxDelay

/-- The handler fails on the `k`-th error in a row.  A float delay is multiplied by an int that no
float holds.  An int delay is multiplied exactly, and only the line of a run that goes on writes the
result as a float: it fails for an int that no float holds and that is not above the maximum. -/
def BackOffFails (k : ℕ) : Prop :=
  match cfg.loopErrorDelay with
  | .float _ => 1025 ≤ k
  | .int n => 0 < k ∧ (cfg.maxLoopFailures = 0 ∨ k < cfg.maxLoopFailures)
      ∧ ((n * 2 ^ (k - 1) : ℤ) : ℚ) ≤ cfg.loopErrorMaxDelay
      ∧ floatBound ≤ (n * 2 ^ (k - 1)).natAbs

/-- `run` goes on after these errors. -/
def Within (errors : List PyException) : Prop :=
  ¬ BackOffFails cfg errors.length
    ∧ (cfg.maxLoopFailures = 0 ∨ errors.length < cfg.maxLoopFailures)

/-- What a run may await. -/
def LoopView.Allowed (g : LoopView) (c : Command) : Prop :=
  match g.place with
  | .creating => c.isCreate
  | .looping => Within cfg g.errors ∧ c.isCreate = false ∧ c.isSleep = false
  | .failed => Within cfg g.errors ∧ c = .sleep (backOff cfg g.errors.length)
  | .refused | .interrupted _ => False

/-- What is known of a run. -/
def loopContract : Contract consumerSig LoopView :=
  .tracker (LoopView.Allowed cfg) Command.Possible LoopView.next
    fun g => g.place = .looping ∧ Within cfg g.errors

/-- How a run ends with an error. -/
inductive RunRaises (g : LoopView) (s : Self) : Raised → Prop
  | refused (e : Raised) (h : g.place = .refused) : RunRaises g s e
  | cancelled (inSleep : Bool) (h : g.place = .interrupted inSleep) (hwithin : Within cfg g.errors)
      (hflag : s.isRunning = (inSleep && g.up)) : RunRaises g s .cancelled
  | gaveUp (e : PyException) (h : g.place = .failed) (hmax : cfg.maxLoopFailures ≠ 0)
      (hlength : g.errors.length = cfg.maxLoopFailures)
      (hfits : ¬ BackOffFails cfg g.errors.length) (hlast : g.errors.getLast? = some e)
      (hflag : s.isRunning = false) : RunRaises g s (.exception e)
  | overflow (h : g.place = .failed) (hfails : BackOffFails cfg g.errors.length)
      (hmax : cfg.maxLoopFailures = 0 ∨ g.errors.length ≤ cfg.maxLoopFailures)
      (hflag : s.isRunning = g.up) : RunRaises g s (.exception overflowError)

end View

/-! ## The run and its view -/

section Run

variable {cfg : Config} {g : LoopView} {s : Self} {errors : List PyException}

/-- The run is in its loop, after these errors. -/
def Going (errors : List PyException) (g : LoopView) : Prop :=
  g.errors = errors ∧ g.place = .looping

/-- An await of the loop has failed, after these errors. -/
def Raising (errors : List PyException) (e : Raised) (g : LoopView) (s : Self) : Prop :=
  g.up = s.isRunning ∧
    match e with
    | .cancelled => g.errors = errors ∧ g.place = .interrupted false
    | .exception e => g.errors = errors ++ [e] ∧ g.place = .failed

/-- The run is in its loop and goes on. -/
def Live (cfg : Config) (errors : List PyException) (g : LoopView) : Prop :=
  Going errors g ∧ Within cfg errors

lemma Live.allowed (h : Live cfg errors g) {c : Command} (hcreate : c.isCreate = false)
    (hsleep : c.isSleep = false) : g.Allowed cfg c := by
  obtain ⟨⟨herrors, hplace⟩, hwithin⟩ := h
  rw [LoopView.Allowed, hplace, herrors]
  exact ⟨hwithin, hcreate, hsleep⟩

/-- Nothing is computed before the first error. -/
lemma backOffFails_pos {k : ℕ} (h : BackOffFails cfg k) : 0 < k := by
  unfold BackOffFails at h
  split at h
  · omega
  · exact h.1

lemma within_nil : Within cfg [] := by
  refine ⟨fun h => absurd (backOffFails_pos h) (Nat.lt_irrefl 0), ?_⟩
  rw [List.length_nil]
  omega

/-- An await of the loop whose exceptions reach the handler. -/
lemma send_loopCall {c : Command} (hcall : c.isLoopCall = true) (h : Live cfg errors g) :
    (send c).wp (loopContract cfg)
      (fun _ g _ => Live cfg (if c.isRead then [] else errors) g)
      (fun e g s => Raising errors e g s) g s := by
  have hcreate : c.isCreate = false := by
    cases c <;> first | rfl | cases hcall
  have hsleep : c.isSleep = false := by
    cases c <;> first | rfl | cases hcall
  have hwithin : Within cfg (if c.isRead then [] else errors) := by
    split
    · exact within_nil
    · exact h.2
  refine send_wp (h.allowed hcreate hsleep) (fun a g' s' henv => ?_) (fun e g' s' henv => ?_)
  · obtain ⟨-, rfl⟩ := henv
    refine ⟨⟨?_, ?_⟩, hwithin⟩
    · simp only [LoopView.next, nextErrors, h.1.1]
    · simp only [LoopView.next, Place.after, hcreate, Bool.false_eq_true, if_false]
  · obtain ⟨-, rfl⟩ := henv
    refine ⟨rfl, ?_⟩
    cases e with
    | cancelled =>
        simp only [LoopView.next, nextErrors, Place.after, hcreate, hsleep, h.1.1,
          Bool.false_eq_true, if_false]
        exact ⟨trivial, trivial⟩
    | exception e =>
        simp only [LoopView.next, nextErrors, Place.after, hcreate, hcall, h.1.1,
          Bool.false_eq_true, if_false, if_true]
        exact ⟨trivial, trivial⟩

/-- An await of the loop that raises no exception, or one that is caught on the spot. -/
lemma send_quietly {c : Command} (hcreate : c.isCreate = false) (hsleep : c.isSleep = false)
    (hread : c.isRead = false) (hcall : c.isLoopCall = false) (h : Live cfg errors g) :
    (send c).wp (loopContract cfg) (fun _ g _ => Live cfg errors g)
      (fun e g s => match e with
        | .cancelled => Raising errors .cancelled g s
        | .exception _ => c.canRaise = true ∧ Live cfg errors g) g s := by
  refine send_wp (h.allowed hcreate hsleep) (fun a g' s' henv => ?_) (fun e g' s' henv => ?_)
  · obtain ⟨-, rfl⟩ := henv
    refine ⟨⟨?_, ?_⟩, h.2⟩
    · simp only [LoopView.next, nextErrors, hread, h.1.1, Bool.false_eq_true, if_false]
    · simp only [LoopView.next, Place.after, hcreate, Bool.false_eq_true, if_false]
  · obtain ⟨hpossible, rfl⟩ := henv
    cases e with
    | cancelled =>
        refine ⟨rfl, ?_⟩
        simp only [LoopView.next, nextErrors, Place.after, hcreate, hsleep, h.1.1,
          Bool.false_eq_true, if_false]
        exact ⟨trivial, trivial⟩
    | exception e =>
        refine ⟨hpossible e rfl, ⟨?_, ?_⟩, h.2⟩
        · simp only [LoopView.next, nextErrors, hcall, h.1.1, Bool.false_eq_true, if_false]
        · simp only [LoopView.next, Place.after, hcreate, hcall, Bool.false_eq_true, if_false]

/-- The jobs of a claimed batch. -/
lemma reclaimTasks_view : ∀ (claimed : List (EntryId × Option Fields)) {g : LoopView} {s : Self},
    Live cfg errors g → (reclaimTasks cfg claimed).wp (loopContract cfg)
      (fun _ g _ => Live cfg errors g) (fun e g s => Raising errors e g s) g s
  | [], _, _, h => h
  | (messageId, none) :: claimed, g, s, h => by
      rw [reclaimTasks, Co.wp_bind]
      exact Co.wp_mono (send_loopCall rfl h) (fun _ _ _ h => reclaimTasks_view claimed h)
        (fun _ _ _ h => h)
  | (messageId, some fields) :: claimed, g, s, h => by
      simp only [reclaimTasks, deliveryCount, Co.wp_bind, wp_exceptException, Co.wp_pure]
      refine Co.wp_mono (send_quietly rfl rfl rfl rfl h) (fun _ _ _ h => reclaimTasks_view claimed h)
        (fun e g' s' h => ?_)
      cases e with
      | cancelled => exact h
      | exception e => exact reclaimTasks_view claimed h.2

/-- `gather` collects the exceptions of its jobs: only a cancellation gets out. -/
lemma gatherTasks_view (tasks : List Job) (h : Live cfg errors g) :
    (gatherTasks tasks).wp (loopContract cfg) (fun _ g _ => Live cfg errors g)
      (fun e g s => e = .cancelled ∧ Raising errors .cancelled g s) g s := by
  rw [gatherTasks]
  split
  · exact h
  · refine Co.wp_mono (send_quietly rfl rfl rfl rfl h) (fun _ _ _ h => h) (fun e g' s' h => ?_)
    cases e with
    | cancelled => exact ⟨rfl, h⟩
    | exception e => exact absurd h.1 Bool.false_ne_true

lemma takeOver_view (claimed : List (EntryId × Option Fields)) (h : Live cfg errors g) :
    (takeOver cfg claimed).wp (loopContract cfg) (fun _ g _ => Live cfg errors g)
      (fun e g s => Raising errors e g s) g s := by
  refine takeOver_wp cfg (fun _ _ => h) (fun s => ?_) s
  rw [handleReclaimed, Co.wp_bind]
  refine Co.wp_mono (reclaimTasks_view claimed h) (fun tasks g' s' h => ?_) (fun _ _ _ h => h)
  refine Co.wp_mono (gatherTasks_view tasks h) (fun _ _ _ h => h) (fun e g'' s'' h => ?_)
  obtain ⟨rfl, h⟩ := h
  exact h

lemma reclaimPending_view : ∀ (fuel : ℕ) (startId : EntryId) (reclaimed : ℕ) {g : LoopView}
    {s : Self}, Live cfg errors g → (reclaimPending cfg fuel startId reclaimed).wp
      (loopContract cfg) (fun _ g _ => Live cfg errors g) (fun e g s => Raising errors e g s) g s
  | 0, _, _, g, s, h => by
      rw [reclaimPending, Co.wp_bind, Co.wp_get]
      dsimp only
      split
      · exact ⟨h.1.2, h.1.1 ▸ h.2⟩
      · exact h
  | fuel + 1, startId, reclaimed, g, s, h => by
      rw [reclaimPending, Co.wp_bind, Co.wp_get]
      dsimp only
      split
      · rw [Co.wp_bind]
        refine Co.wp_mono (send_loopCall rfl h) (fun answer g' s' h => ?_) (fun _ _ _ h => h)
        obtain ⟨nextId, claimed⟩ := answer
        dsimp only
        rw [Co.wp_bind]
        refine Co.wp_mono (takeOver_view claimed h) (fun _ g'' s'' h => ?_) (fun _ _ _ h => h)
        split
        · exact h
        · exact reclaimPending_view fuel nextId _ h
      · exact h

lemma reclaimIfDue_view (fuel : ℕ) (lastReclaim : Option ℚ) (h : Live cfg errors g) :
    (reclaimIfDue cfg fuel lastReclaim).wp (loopContract cfg) (fun _ g _ => Live cfg errors g)
      (fun e g s => Raising errors e g s) g s := by
  rw [reclaimIfDue, Co.wp_bind, Co.wp_get]
  dsimp only
  split
  · rw [Co.wp_bind]
    exact Co.wp_mono (reclaimPending_view fuel .zero 0 h) (fun _ _ _ h => h) (fun _ _ _ h => h)
  · exact h

lemma backOffFails_float {x : ℚ} (hdelay : cfg.loopErrorDelay = .float x) {k : ℕ} :
    BackOffFails cfg k ↔ 1025 ≤ k := by
  rw [BackOffFails, hdelay]

/-- An int delay that is not negative never fails: it has passed the maximum before. -/
lemma not_backOffFails_int {n : ℤ} (hdelay : cfg.loopErrorDelay = .int n) (hn : 0 ≤ n)
    (hmax : cfg.loopErrorMaxDelay < floatBound) (k : ℕ) : ¬ BackOffFails cfg k := by
  rw [BackOffFails, hdelay]
  rintro ⟨-, -, hle, hlarge⟩
  have hnonneg : 0 ≤ n * 2 ^ (k - 1) := Int.mul_nonneg hn (Int.pow_nonneg (by decide))
  have hcast : ((n * 2 ^ (k - 1)).natAbs : ℤ) = n * 2 ^ (k - 1) := Int.natAbs_of_nonneg hnonneg
  have hbound : (floatBound : ℚ) ≤ ((n * 2 ^ (k - 1) : ℤ) : ℚ) := by
    rw [← hcast]
    exact_mod_cast hlarge
  exact absurd (hbound.trans hle) (not_le.mpr hmax)

lemma value_min (x y : Number) : (x.min y).value = min x.value y.value := by
  rw [Number.min]
  split_ifs with h
  · exact (min_eq_right h.le).symm
  · exact (min_eq_left (not_lt.mp h)).symm

variable [StandardLibrary]

/-- The handler fails before it writes its line. -/
def DelayFails (cfg : Config) (k : ℕ) : Prop :=
  loopDelay cfg k = .error overflowError
    ∨ ∃ delay, loopDelay cfg k = .ok delay ∧ retryNote cfg k delay = .error overflowError

/-- The handler has its line and its delay. -/
def DelayKnown (cfg : Config) (k : ℕ) : Prop :=
  ∃ delay note, loopDelay cfg k = .ok delay ∧ retryNote cfg k delay = .ok note
    ∧ delay.value = backOff cfg k

lemma floatDelay_cases {x : ℚ} (hdelay : cfg.loopErrorDelay = .float x) (k : ℕ) :
    (BackOffFails cfg (k + 1) ∧ DelayFails cfg (k + 1))
      ∨ (¬ BackOffFails cfg (k + 1) ∧ DelayKnown cfg (k + 1)) := by
  rw [backOffFails_float hdelay]
  by_cases hfits : k < 1024
  · have hmul : loopDelay cfg (k + 1)
        = .ok ((Number.float (x * (2 ^ k : ℕ))).min (.float cfg.loopErrorMaxDelay)) := by
      simp only [loopDelay, hdelay, Number.mul, Nat.add_sub_cancel, floatMulInt_pow x hfits]
      rfl
    have hnote : ∃ note, retryNote cfg (k + 1)
        ((Number.float (x * (2 ^ k : ℕ))).min (.float cfg.loopErrorMaxDelay)) = .ok note := by
      rw [retryNote, Number.min]
      split_ifs <;> exact ⟨_, rfl⟩
    obtain ⟨note, hnote⟩ := hnote
    refine Or.inr ⟨by omega, _, note, hmul, hnote, ?_⟩
    simp only [value_min, backOff, hdelay, Number.value_float, Nat.add_sub_cancel, Nat.cast_pow,
      Nat.cast_ofNat]
  · refine Or.inl ⟨by omega, Or.inl ?_⟩
    simp only [loopDelay, hdelay, Number.mul, Nat.add_sub_cancel,
      floatMulInt_overflow x (Nat.le_of_not_lt hfits)]
    rfl

lemma intDelay_cases {n : ℤ} (hdelay : cfg.loopErrorDelay = .int n) (k : ℕ) :
    (BackOffFails cfg (k + 1) ∧ DelayFails cfg (k + 1))
      ∨ (¬ BackOffFails cfg (k + 1) ∧ DelayKnown cfg (k + 1)) := by
  have hmul : loopDelay cfg (k + 1)
      = .ok ((Number.int (n * 2 ^ k)).min (.float cfg.loopErrorMaxDelay)) := by
    simp only [loopDelay, hdelay, Number.mul, Nat.add_sub_cancel, Nat.cast_pow, Nat.cast_ofNat]
    rfl
  have hvalue : ((Number.int (n * 2 ^ k)).min (.float cfg.loopErrorMaxDelay)).value
      = backOff cfg (k + 1) := by
    simp only [value_min, backOff, hdelay, Number.value_int, Number.value_float,
      Nat.add_sub_cancel, Int.cast_mul, Int.cast_pow, Int.cast_ofNat]
  have hfails : BackOffFails cfg (k + 1) ↔ ¬ (cfg.maxLoopFailures ≠ 0
      ∧ cfg.maxLoopFailures ≤ k + 1) ∧ (Number.int (n * 2 ^ k)).value ≤ cfg.loopErrorMaxDelay
      ∧ floatBound ≤ (n * 2 ^ k).natAbs := by
    rw [BackOffFails, hdelay]
    simp only [Nat.add_sub_cancel, Nat.succ_pos, true_and]
    exact and_congr_left' (by omega)
  rw [hfails]
  by_cases hgiveUp : cfg.maxLoopFailures ≠ 0 ∧ cfg.maxLoopFailures ≤ k + 1
  · exact Or.inr ⟨fun h => h.1 hgiveUp, _, _, hmul, if_pos hgiveUp, hvalue⟩
  · by_cases hmax : cfg.loopErrorMaxDelay < (Number.int (n * 2 ^ k)).value
    · have hmin : (Number.int (n * 2 ^ k)).min (.float cfg.loopErrorMaxDelay)
          = .float cfg.loopErrorMaxDelay := if_pos hmax
      rw [hmin] at hmul hvalue
      exact Or.inr ⟨fun h => absurd h.2.1 (not_le.mpr hmax), _, _, hmul, if_neg hgiveUp, hvalue⟩
    · have hmin : (Number.int (n * 2 ^ k)).min (.float cfg.loopErrorMaxDelay)
          = .int (n * 2 ^ k) := if_neg hmax
      rw [hmin] at hmul hvalue
      by_cases hsmall : (n * 2 ^ k).natAbs < floatBound
      · have hnote : ∃ note, retryNote cfg (k + 1) (.int (n * 2 ^ k)) = .ok note := by
          rw [retryNote, if_neg hgiveUp, Number.formatG, if_pos hsmall]
          exact ⟨_, rfl⟩
        obtain ⟨note, hnote⟩ := hnote
        exact Or.inr ⟨fun h => absurd h.2.2 (Nat.not_le.mpr hsmall), _, note, hmul, hnote, hvalue⟩
      · refine Or.inl ⟨⟨hgiveUp, not_lt.mp hmax, Nat.le_of_not_lt hsmall⟩, Or.inr ⟨_, hmul, ?_⟩⟩
        rw [retryNote, if_neg hgiveUp, Number.formatG, if_neg hsmall]
        rfl

/-- Exactly then the handler fails. -/
lemma loopDelay_cases (cfg : Config) (k : ℕ) : (BackOffFails cfg (k + 1) ∧ DelayFails cfg (k + 1))
    ∨ (¬ BackOffFails cfg (k + 1) ∧ DelayKnown cfg (k + 1)) := by
  cases hdelay : cfg.loopErrorDelay with
  | float x => exact floatDelay_cases hdelay k
  | int n => exact intDelay_cases hdelay k

/-- The handler when the back-off fails. -/
lemma onLoopError_fails {failures : ℕ} (h : BackOffFails cfg (failures + 1)) (e : PyException) :
    onLoopError cfg failures (.exception e) = .raise (.exception overflowError) := by
  obtain ⟨-, hdelay | ⟨delay, hdelay, hnote⟩⟩ | ⟨hfits, -⟩ :=
    loopDelay_cases cfg failures
  · simp only [onLoopError, hdelay]
  · simp only [onLoopError, hdelay, hnote]
  · exact absurd h hfits

/-- The handler otherwise: it writes a line, and the error is the last one or the run sleeps. -/
lemma onLoopError_exception {failures : ℕ} (h : ¬ BackOffFails cfg (failures + 1))
    (e : PyException) : ∃ text, onLoopError cfg failures (.exception e) = (do
      writeLog .error noRequestId text
      if cfg.maxLoopFailures ≠ 0 ∧ cfg.maxLoopFailures ≤ failures + 1 then
        .modify fun self => { self with isRunning := false }
        .raise (.exception e)
      else
        sleep (backOff cfg (failures + 1))
        return failures + 1) := by
  obtain ⟨hfails, -⟩ | ⟨-, delay, note, hdelay, hnote, hvalue⟩ :=
    loopDelay_cases cfg failures
  · exact absurd hfails h
  · refine ⟨"[Consumer] Loop error " ++ e.typeName ++ " (" ++ toString (failures + 1)
      ++ " in a row" ++ note ++ ")", ?_⟩
    simp only [onLoopError, hdelay, hnote, hvalue]

/-- The handler: the error is counted, and it is the last one or the run sleeps. -/
lemma onLoopError_view {e : Raised} (h : Raising errors e g s) (hwithin : Within cfg errors) :
    (onLoopError cfg errors.length e).wp (loopContract cfg)
      (fun failures g _ => ∃ errors, failures = errors.length ∧ Live cfg errors g)
      (fun e g s => RunRaises cfg g s e) g s := by
  obtain ⟨hup, h⟩ := h
  cases e with
  | cancelled => exact .cancelled false h.2 (h.1 ▸ hwithin) rfl
  | exception e =>
      obtain ⟨herrors, hplace⟩ := h
      have hlength : g.errors.length = errors.length + 1 := by simp [herrors]
      have hmore := hwithin.2
      by_cases hfails : BackOffFails cfg (errors.length + 1)
      · rw [onLoopError_fails hfails]
        exact .overflow hplace (hlength ▸ hfails) (by omega) hup.symm
      · obtain ⟨text, htext⟩ := onLoopError_exception hfails e
        rw [htext, Co.wp_bind, wp_writeLog]
        split
        · have hmax : cfg.maxLoopFailures ≠ 0 ∧ cfg.maxLoopFailures ≤ errors.length + 1 := ‹_›
          have hlast : g.errors.getLast? = some e := by simp [herrors]
          exact .gaveUp e hplace hmax.1 (by omega) (hlength ▸ hfails) hlast rfl
        · have hmax : ¬ (cfg.maxLoopFailures ≠ 0 ∧ cfg.maxLoopFailures ≤ errors.length + 1) := ‹_›
          have hgoing : Within cfg g.errors := ⟨hlength ▸ hfails, by omega⟩
          rw [Co.wp_bind]
          refine send_wp ?_ (fun a g' s' henv => ?_) (fun e' g' s' henv => ?_)
          · show g.Allowed cfg _
            rw [LoopView.Allowed, hplace, hlength]
            exact ⟨hgoing, rfl⟩
          · obtain ⟨-, rfl⟩ := henv
            exact ⟨g.errors, hlength.symm, ⟨rfl, rfl⟩, hgoing⟩
          · obtain ⟨hpossible, rfl⟩ := henv
            cases e' with
            | cancelled => exact .cancelled true rfl hgoing rfl
            | exception e' => exact absurd (hpossible e' rfl) Bool.false_ne_true

lemma runPass_view (fuel : ℕ) (locals : RunLocals) (hfailures : locals.failures = errors.length)
    (h : Live cfg errors g) :
    (runPass cfg fuel locals).wp (loopContract cfg)
      (fun locals g _ => ∃ errors, locals.failures = errors.length ∧ Live cfg errors g)
      (fun e g s => RunRaises cfg g s e) g s := by
  have herror : ∀ (errors : List PyException) lastReclaim e g s, Raising errors e g s →
      Within cfg errors → (do
        return ⟨← onLoopError cfg errors.length e, lastReclaim⟩ : Consumer RunLocals).wp
        (loopContract cfg)
        (fun locals g _ => ∃ errors, locals.failures = errors.length ∧ Live cfg errors g)
        (fun e g s => RunRaises cfg g s e) g s := by
    intro errors lastReclaim e g s h hwithin
    rw [Co.wp_bind]
    exact onLoopError_view h hwithin
  rw [runPass, Co.wp_bind, Co.wp_attempt, hfailures]
  refine Co.wp_mono (reclaimIfDue_view fuel locals.lastReclaim h) (fun lastReclaim g' s' h' => ?_)
    (fun e g' s' h' => herror errors _ e g' s' h' h.2)
  dsimp only
  rw [Co.wp_bind, Co.wp_attempt]
  refine Co.wp_mono (send_loopCall rfl h') (fun response g'' s'' h'' => ?_)
    (fun e g'' s'' h'' => herror errors _ e g'' s'' h'' h.2)
  dsimp only
  rw [Co.wp_bind, Co.wp_attempt]
  refine Co.wp_mono (gatherTasks_view (batchJobs response) h'') (fun _ g₃ s₃ h₃ => ⟨[], rfl, h₃⟩)
    (fun e g₃ s₃ h₃ => ?_)
  obtain ⟨rfl, h₃⟩ := h₃
  exact herror [] _ .cancelled g₃ s₃ h₃ within_nil

lemma runLoop_view : ∀ (fuel : ℕ) (locals : RunLocals) {errors : List PyException} {g : LoopView}
    {s : Self}, locals.failures = errors.length → Live cfg errors g →
    (runLoop cfg fuel locals).wp (loopContract cfg)
      (fun _ g s => g.place = .looping ∧ Within cfg g.errors ∧ s.isRunning = false)
      (fun e g s => RunRaises cfg g s e) g s
  | 0, locals, errors, g, s, _, h => by
      have hlive : g.place = .looping ∧ Within cfg g.errors := ⟨h.1.2, h.1.1 ▸ h.2⟩
      rw [runLoop, Co.wp_bind, Co.wp_get]
      dsimp only
      split
      · exact hlive
      · exact ⟨hlive.1, hlive.2, by simpa using ‹¬ s.isRunning = true›⟩
  | fuel + 1, locals, errors, g, s, hfailures, h => by
      have hlive : g.place = .looping ∧ Within cfg g.errors := ⟨h.1.2, h.1.1 ▸ h.2⟩
      rw [runLoop, Co.wp_bind, Co.wp_get]
      dsimp only
      split
      · rw [Co.wp_bind]
        refine Co.wp_mono (runPass_view (fuel + 1) locals hfailures h) (fun locals' g' s' h' => ?_)
          (fun _ _ _ h => h)
        obtain ⟨errors', hfailures', h'⟩ := h'
        exact runLoop_view fuel locals' hfailures' h'
      · exact ⟨hlive.1, hlive.2, by simpa using ‹¬ s.isRunning = true›⟩

variable (cfg)

/-- **What `run` does** after what has been seen of it. -/
theorem run_view (fuel : ℕ) (s : Self) :
    (run cfg fuel).wp (loopContract cfg)
      (fun _ g s => g.place = .looping ∧ Within cfg g.errors ∧ s.isRunning = false)
      (fun e g s => RunRaises cfg g s e) .init s := by
  have hstart : ∀ s s', (do
      .modify fun self => { self with isRunning := true }
      writeLog .info noRequestId ("[Consumer] Starting " ++ cfg.consumerName ++ " listening to "
        ++ cfg.streamName ++ "...")
      runLoop cfg fuel ⟨0, none⟩ : Consumer Unit).wp (loopContract cfg)
      (fun _ g s => g.place = .looping ∧ Within cfg g.errors ∧ s.isRunning = false)
      (fun e g s => RunRaises cfg g s e) ⟨[], .looping, Self.isRunning s'⟩ s :=
    fun s s' => runLoop_view fuel _ rfl ⟨⟨rfl, rfl⟩, within_nil⟩
  rw [run, Co.wp_bind, ensureConsumerGroup, wp_exceptException, Co.wp_bind]
  refine send_wp rfl (fun a g' s' henv => ?_) (fun e g' s' henv => ?_)
  · obtain ⟨-, rfl⟩ := henv
    exact hstart _ s'
  · obtain ⟨-, rfl⟩ := henv
    cases e with
    | cancelled => exact .refused _ rfl
    | exception e =>
        dsimp only
        split
        · have hview : LoopView.init.next ⟨Command.xgroupCreate cfg.streamName cfg.groupName
              cfg.groupStartId true, s, .error (.exception e), s'⟩
              = ⟨[], .looping, Self.isRunning s'⟩ := by
            simp [LoopView.next, LoopView.init, nextErrors, Place.after, endsCreation,
              Command.isLoopCall, Command.isCreate, ‹_ ∧ _›]
          rw [wp_writeLog, hview]
          exact hstart _ s'
        · have hends : endsCreation (.error (.exception e) : Except Raised Unit) = true := by
            simpa [endsCreation, imp_iff_not_or] using ‹¬ (e.cls = .responseError ∧ isBusyGroup e)›
          exact .refused _ (by simp [LoopView.next, Place.after, Command.isCreate, hends])

end Run

/-! ## When the loop gives up -/

/-- What has been seen after the exchanges. -/
def view (tr : List (Exchange consumerSig)) : LoopView := tr.foldl LoopView.next .init

/-- The group was created, or it existed. -/
def Created (tr : List (Exchange consumerSig)) : Prop :=
  ∀ x, tr.head? = some x → endsCreation x.answer = false

/-- The await failed, and the error reached the handler of the loop. -/
def IsLoopError (x : Exchange consumerSig) : Prop :=
  Command.isLoopCall x.command = true ∧ ∃ e, x.answer = .error (.exception e)

lemma view_errors (tr : List (Exchange consumerSig)) : (view tr).errors = loopErrors tr :=
  errors_foldl tr .init

lemma view_concat (tr : List (Exchange consumerSig)) (x : Exchange consumerSig) :
    view (tr ++ [x]) = (view tr).next x := List.foldl_concat ..

lemma view_place (tr : List (Exchange consumerSig)) (x : Exchange consumerSig) :
    (view (tr ++ [x])).place = .after x.command x.answer := by
  rw [view_concat]
  rfl

/-- A run is refused in the creation of the group. -/
lemma Place.after_refused_iff {α : Type} (c : Command) (r : Except Raised α) :
    Place.after c r = .refused ↔ c.isCreate = true ∧ endsCreation r = true := by
  unfold Place.after
  cases hcreate : c.isCreate with
  | true => cases hends : endsCreation r <;> simp
  | false =>
      simp only [Bool.false_eq_true, if_false, false_and, iff_false]
      cases r with
      | ok a => nofun
      | error e =>
          cases e with
          | cancelled => nofun
          | exception e =>
              dsimp only
              split_ifs
              · nofun
              · nofun

lemma Place.after_ne_creating {α : Type} (c : Command) (r : Except Raised α) :
    Place.after c r ≠ .creating := by
  unfold Place.after
  cases c.isCreate with
  | true => cases endsCreation r <;> simp
  | false =>
      simp only [Bool.false_eq_true, if_false]
      cases r with
      | ok a => nofun
      | error e =>
          cases e with
          | cancelled => nofun
          | exception e =>
              dsimp only
              split_ifs
              · nofun
              · nofun

lemma place_creating {tr : List (Exchange consumerSig)} (h : (view tr).place = .creating) :
    tr = [] := by
  rcases List.eq_nil_or_concat tr with rfl | ⟨ys, y, rfl⟩
  · rfl
  · rw [List.concat_eq_append, view_place] at h
    exact absurd h (Place.after_ne_creating _ _)

section Ends

variable [StandardLibrary] {cfg : Config} {fuel : ℕ} {s : Self}
  {tr : List (Exchange consumerSig)} {q : Program consumerSig Unit}

/-- The awaits before the last one. -/
lemma allowed_last {pre : List (Exchange consumerSig)} {x : Exchange consumerSig}
    (hrun : Run (run cfg fuel s) (pre ++ [x]) q)
    (hpossible : ∀ y ∈ pre ++ [x], Command.Possible y.command y.answer) :
    (view pre).Allowed cfg x.command :=
  Program.wp_track_may (run_view cfg fuel s) hrun hpossible

/-- Once the group exists, it has not been refused. -/
lemma not_refused (hrun : Run (run cfg fuel s) tr q)
    (hpossible : ∀ y ∈ tr, Command.Possible y.command y.answer) (hcreated : Created tr) :
    (view tr).place ≠ .refused := by
  intro hrefused
  rcases List.eq_nil_or_concat tr with rfl | ⟨pre, x, rfl⟩
  · cases hrefused
  · rw [List.concat_eq_append] at hrun hpossible hcreated hrefused
    rw [view_place] at hrefused
    obtain ⟨hcreate, hends⟩ := (Place.after_refused_iff _ _).mp hrefused
    have hallowed := allowed_last hrun hpossible
    rw [LoopView.Allowed] at hallowed
    split at hallowed
    · have hpre := place_creating ‹_›
      subst hpre
      have hfirst := hcreated x rfl
      rw [hends] at hfirst
      cases hfirst
    · rw [hallowed.2.1] at hcreate
      cases hcreate
    · rw [hallowed.2] at hcreate
      cases hcreate
    · exact hallowed
    · exact hallowed

omit [StandardLibrary] in
/-- A loop error is what the handler sees next. -/
lemma place_failed {pre : List (Exchange consumerSig)} {x : Exchange consumerSig}
    (hx : IsLoopError x) : (view (pre ++ [x])).place = .failed := by
  obtain ⟨hcall, e, he⟩ := hx
  have hcreate : Command.isCreate x.command = false := by
    obtain ⟨c, s, r, s'⟩ := x
    cases c <;> first | rfl | cases hcall
  rw [view_place, he]
  simp only [Place.after, hcreate, Bool.false_eq_true, if_false, hcall, if_true]

/-- What the read loop does right, at the end of an execution: it ends with an exception when there
have been too many errors in a row and not before, and that is the last of them; and otherwise it
sleeps after an error, as long as it should. -/
structure ReadLoopRight (cfg : Config) (tr : List (Exchange consumerSig))
    (q : Program consumerSig Unit) : Prop where
  ends : ∀ e, (∃ s', q = .done (.error (.exception e)) s') ↔
    0 < cfg.maxLoopFailures ∧ (loopErrors tr).length = cfg.maxLoopFailures
      ∧ (loopErrors tr).getLast? = some e
  sleeps : ∀ delay, q.command? = some (.sleep delay) → delay = backOff cfg (loopErrors tr).length
  retries : ∀ pre x, tr = pre ++ [x] → IsLoopError x →
    (cfg.maxLoopFailures = 0 ∨ (loopErrors tr).length ≠ cfg.maxLoopFailures) →
    q.command? = some (.sleep (backOff cfg (loopErrors tr).length))

/-- What becomes of a run once the group exists. -/
inductive Outlook (cfg : Config) (tr : List (Exchange consumerSig)) :
    Program consumerSig Unit → Prop
  /-- It has not ended with an exception, and it is in the back-off sleep after an error. -/
  | goesOn (q : Program consumerSig Unit) (hwithin : Within cfg (loopErrors tr))
      (hends : ∀ e s', q ≠ .done (.error (.exception e)) s')
      (hsleeps : ∀ delay, q.command? = some (.sleep delay) →
        delay = backOff cfg (loopErrors tr).length)
      (hretries : (view tr).place = .failed →
        q.command? = some (.sleep (backOff cfg (loopErrors tr).length))) : Outlook cfg tr q
  /-- It has given up. -/
  | gaveUp (e : PyException) (s' : Self) (hmax : cfg.maxLoopFailures ≠ 0)
      (hlength : (loopErrors tr).length = cfg.maxLoopFailures)
      (hfits : ¬ BackOffFails cfg (loopErrors tr).length)
      (hlast : (loopErrors tr).getLast? = some e) :
      Outlook cfg tr (.done (.error (.exception e)) s')
  /-- The back-off has failed. -/
  | overflow (s' : Self) (hfails : BackOffFails cfg (loopErrors tr).length)
      (hmax : cfg.maxLoopFailures = 0 ∨ (loopErrors tr).length ≤ cfg.maxLoopFailures) :
      Outlook cfg tr (.done (.error (.exception overflowError)) s')

/-- **A run goes on, gives up, or fails in the back-off**, and its errors in a row say which. -/
theorem outlook (hrun : Run (run cfg fuel s) tr q)
    (hpossible : ∀ y ∈ tr, Command.Possible y.command y.answer) (hcreated : Created tr) :
    Outlook cfg tr q := by
  have hq := Program.wp_track (run_view cfg fuel s) hrun hpossible
  have hrefused := not_refused hrun hpossible hcreated
  have herrors := view_errors tr
  cases q with
  | spent =>
      have hcut : (view tr).place = .looping ∧ Within cfg (view tr).errors := hq
      refine .goesOn _ (herrors ▸ hcut.2) (by nofun) (by nofun) (fun hfailed => ?_)
      rw [hcut.1] at hfailed
      cases hfailed
  | await c s' k =>
      have hallowed : (view tr).Allowed cfg c := hq.1
      rw [LoopView.Allowed, herrors] at hallowed
      split at hallowed
      · rename_i hplace
        have hnil := place_creating hplace
        subst hnil
        refine .goesOn _ within_nil (by nofun) (fun delay hsleep => ?_) (fun hfailed => ?_)
        · cases hsleep
          cases hallowed
        · cases hfailed
      · rename_i hplace
        refine .goesOn _ hallowed.1 (by nofun) (fun delay hsleep => ?_) (fun hfailed => ?_)
        · cases hsleep
          cases hallowed.2.2
        · rw [hplace] at hfailed
          cases hfailed
      · obtain ⟨hwithin, rfl⟩ := hallowed
        refine .goesOn _ hwithin (by nofun) (fun delay hsleep => ?_) (fun _ => rfl)
        cases hsleep
        rfl
      · exact absurd hallowed id
      · exact absurd hallowed id
  | done r s' =>
      cases r with
      | ok a =>
          have hend : (view tr).place = .looping ∧ Within cfg (view tr).errors
            ∧ s'.isRunning = false := hq
          refine .goesOn _ (herrors ▸ hend.2.1) (by nofun) (by nofun) (fun hfailed => ?_)
          rw [hend.1] at hfailed
          cases hfailed
      | error e =>
          have hend : RunRaises cfg (view tr) s' e := hq
          cases hend with
          | refused _ h => exact absurd h hrefused
          | cancelled _ h hwithin _ =>
              refine .goesOn _ (herrors ▸ hwithin) (by nofun) (by nofun) (fun hfailed => ?_)
              rw [h] at hfailed
              cases hfailed
          | gaveUp e _ hmax hlength hfits hlast _ =>
              rw [herrors] at hlength hfits hlast
              exact .gaveUp e s' hmax hlength hfits hlast
          | overflow _ hfails hmax _ =>
              rw [herrors] at hfails hmax
              exact .overflow s' hfails hmax

/-- **When the read loop gives up, and how long it sleeps.**  It does what it should as long as the
back-off does not fail.  An error in the back-off ends the run with an exception of the handler's
own, whatever `max_loop_failures` is. -/
theorem read_loop_right_iff (hrun : Run (run cfg fuel s) tr q)
    (hpossible : ∀ y ∈ tr, Command.Possible y.command y.answer) (hcreated : Created tr) :
    ReadLoopRight cfg tr q ↔ ¬ BackOffFails cfg (loopErrors tr).length
      ∨ ((loopErrors tr).length = cfg.maxLoopFailures
        ∧ (loopErrors tr).getLast? = some overflowError) := by
  have houtlook := outlook hrun hpossible hcreated
  cases houtlook with
  | goesOn q hwithin hends hsleeps hretries =>
      obtain ⟨hfits, hfew⟩ := hwithin
      refine iff_of_true ⟨fun e => iff_of_false ?_ ?_, hsleeps, ?_⟩ (Or.inl hfits)
      · rintro ⟨s', hq⟩
        exact hends e s' hq
      · rintro ⟨hmax, hlength, -⟩
        omega
      · rintro pre x rfl hx -
        exact hretries (place_failed hx)
  | gaveUp e s' hmax hlength hfits hlast =>
      refine iff_of_true ⟨fun e' => ⟨?_, ?_⟩, by nofun, ?_⟩ (Or.inl hfits)
      · rintro ⟨s'', hq⟩
        cases hq
        exact ⟨by omega, hlength, hlast⟩
      · rintro ⟨-, -, hlast'⟩
        rw [hlast] at hlast'
        cases hlast'
        exact ⟨s', rfl⟩
      · intro pre x htr hx hmore
        omega
  | overflow s' hfails hmax =>
      have hpos := backOffFails_pos hfails
      constructor
      · intro hright
        obtain ⟨-, hgiveUp, hlast⟩ := (hright.ends overflowError).mp ⟨s', rfl⟩
        exact Or.inr ⟨hgiveUp, hlast⟩
      · rintro (hfits | ⟨hlength, hlast⟩)
        · exact absurd hfails hfits
        · refine ⟨fun e' => ⟨?_, ?_⟩, by nofun, ?_⟩
          · rintro ⟨s'', hq⟩
            cases hq
            exact ⟨by omega, hlength, hlast⟩
          · rintro ⟨-, -, hlast'⟩
            rw [hlast] at hlast'
            cases hlast'
            exact ⟨s', rfl⟩
          · intro pre x htr hx hmore
            omega

end Ends

/-! ## A consumer that never gives up -/

section Solo

attribute [local instance] plainLibrary

/-- The default delays are ints: they never fail. -/
lemma solo_fits (k : ℕ) : ¬ BackOffFails soloConfig k := by
  refine not_backOffFails_int rfl (by decide) ?_ k
  have hbound : 2 ^ 6 < floatBound := pow_lt_floatBound_iff.mpr (by decide)
  have hcast : ((2 ^ 6 : ℕ) : ℚ) < floatBound := Nat.cast_lt.mpr hbound
  refine lt_trans ?_ hcast
  show (60 : ℚ) < ((2 ^ 6 : ℕ) : ℚ)
  norm_num

/-- Redis is down for a moment: the run sleeps and goes on. -/
theorem read_loop_right_once : ∃ tr q, Run (run soloConfig 2 (Self.init soloConfig 0)) tr q
    ∧ (loopErrors tr).length = 1 ∧ ReadLoopRight soloConfig tr q := by
  let s := Self.init soloConfig 0
  let up : Self := { s with isRunning := true }
  have hrun : ∃ s₁ q, Run (run soloConfig 2 s)
      [⟨Command.xgroupCreate "events" "users" "0" true, s, .ok (), s⟩,
        ⟨Command.xautoclaim "events" "users" "worker" 120000 .zero 10, s₁,
          .error (.exception connectionError), up⟩] q :=
    ⟨_, _, .cons _ _ (.cons _ _ (.nil _))⟩
  obtain ⟨s₁, q, hrun⟩ := hrun
  have hone : (loopErrors [⟨Command.xgroupCreate "events" "users" "0" true, s, .ok (), s⟩,
      ⟨Command.xautoclaim "events" "users" "worker" 120000 .zero 10, s₁,
        .error (.exception connectionError), up⟩]).length = 1 := rfl
  refine ⟨_, q, hrun, hone, (read_loop_right_iff hrun ?_ ?_).mpr (Or.inl (solo_fits _))⟩
  · simp [Command.Possible, Command.canRaise]
  · rintro x ⟨⟩
    rfl

/-- `max_loop_failures=0` and `loop_error_delay=5.0`: a float, as the parameter is annotated; the
default is the int. -/
def stubbornConfig : Config :=
  { soloConfig with maxLoopFailures := 0, loopErrorDelay := .float 5 }

/-- Its state while it runs. -/
def stubbornSelf (log : List LogLine) : Self :=
  { Self.init stubbornConfig 0 with isRunning := true, log := log }

lemma stubborn_fails_iff {k : ℕ} : BackOffFails stubbornConfig k ↔ 1025 ≤ k :=
  backOffFails_float rfl

/-- The handler sleeps as long as the back-off fits a float. -/
lemma stubborn_sleeps {failures : ℕ} (h : failures < 1024) (s : Self) :
    ∃ delay s₁ k, onLoopError stubbornConfig failures (.exception connectionError) s
        = .await (.sleep delay) s₁ k
      ∧ ∀ s₂, k (.ok ()) s₂ = .done (.ok (failures + 1)) s₂ := by
  have hfits : ¬ BackOffFails stubbornConfig (failures + 1) :=
    fun hfails => absurd (stubborn_fails_iff.mp hfails) (by omega)
  obtain ⟨text, htext⟩ := onLoopError_exception hfits connectionError
  rw [htext]
  exact ⟨_, _, _, rfl, fun _ => rfl⟩

/-- One more error, and the sleep after it. -/
lemma stubborn_step (log : List LogLine) (fuel : ℕ) {failures : ℕ} (h : failures < 1024) :
    ∃ x y, Run (runLoop stubbornConfig (fuel + 1) ⟨failures, none⟩ (stubbornSelf log)) [x, y]
        (runLoop stubbornConfig fuel ⟨failures + 1, none⟩ (stubbornSelf log))
      ∧ Command.Possible x.command x.answer ∧ Command.Possible y.command y.answer := by
  obtain ⟨delay, s₁, k, hsleeps, hwakes⟩ := stubborn_sleeps h (stubbornSelf log)
  have hrun : ∃ s₀, Run (runLoop stubbornConfig (fuel + 1) ⟨failures, none⟩ (stubbornSelf log))
      [⟨Command.xautoclaim "events" "users" "worker" 120000 .zero 10, s₀,
          .error (.exception connectionError), stubbornSelf log⟩,
        ⟨Command.sleep delay, s₁, .ok (), stubbornSelf log⟩]
      (runLoop stubbornConfig fuel ⟨failures + 1, none⟩ (stubbornSelf log)) := by
    refine ⟨_, .cons _ _ ?_⟩
    change Run (Program.andThen (Program.andThen (onLoopError _ _ _ _) _) _) _ _
    rw [hsleeps]
    refine .cons _ _ ?_
    change Run (Program.andThen (Program.andThen (k _ _) _) _) _ _
    rw [hwakes]
    exact .nil _
  obtain ⟨s₀, hrun⟩ := hrun
  refine ⟨_, _, hrun, ?_, ?_⟩
  · simp [Command.Possible, Command.canRaise]
  · simp [Command.Possible]

/-- As many errors in a row as the back-off allows. -/
lemma stubborn_run (log : List LogLine) (fuel : ℕ) : ∀ failures ≤ 1024,
    ∃ tr, Run (runLoop stubbornConfig (fuel + failures) ⟨0, none⟩ (stubbornSelf log)) tr
        (runLoop stubbornConfig fuel ⟨failures, none⟩ (stubbornSelf log))
      ∧ ∀ x ∈ tr, Command.Possible x.command x.answer
  | 0, _ => ⟨[], .nil _, by simp⟩
  | failures + 1, h => by
      obtain ⟨tr, hrun, hpossible⟩ := stubborn_run log (fuel + 1) failures (by omega)
      obtain ⟨x, y, hstep, hx, hy⟩ := stubborn_step log fuel (show failures < 1024 by omega)
      have hfuel : fuel + 1 + failures = fuel + (failures + 1) := by omega
      rw [hfuel] at hrun
      refine ⟨tr ++ [x, y], hrun.trans hstep, fun z hz => ?_⟩
      rcases List.mem_append.mp hz with hz | hz
      · exact hpossible z hz
      · rcases List.mem_pair.mp hz with rfl | rfl
        · exact hx
        · exact hy

/-- The back-off fails in the handler. -/
lemma stubborn_raises {failures : ℕ} (h : 1024 ≤ failures) (s : Self) :
    onLoopError stubbornConfig failures (.exception connectionError) s
      = .done (.error (.exception overflowError)) s := by
  rw [onLoopError_fails (stubborn_fails_iff.mpr (by omega))]
  rfl

/-- The error after which it fails. -/
lemma stubborn_last (log : List LogLine) {failures : ℕ} (h : 1024 ≤ failures) :
    ∃ s₀, Run (runLoop stubbornConfig 1 ⟨failures, none⟩ (stubbornSelf log))
      [⟨Command.xautoclaim "events" "users" "worker" 120000 .zero 10, s₀,
          .error (.exception connectionError), stubbornSelf log⟩]
      (.done (.error (.exception overflowError)) (stubbornSelf log)) := by
  refine ⟨_, .cons _ _ ?_⟩
  change Run (Program.andThen (Program.andThen (onLoopError _ _ _ _) _) _) _ _
  rw [stubborn_raises h]
  exact .nil _

/-- A consumer that was told never to give up ends with an `OverflowError`. -/
theorem stubborn_gives_up : ∃ fuel s tr s',
    Run (run stubbornConfig fuel s) tr (.done (.error (.exception overflowError)) s')
      ∧ (∀ x ∈ tr, Command.Possible x.command x.answer) ∧ Created tr
      ∧ ¬ ReadLoopRight stubbornConfig tr (.done (.error (.exception overflowError)) s') := by
  have hfirst : ∃ log, Run (run stubbornConfig (1 + 1024) (stubbornSelf []))
      [⟨Command.xgroupCreate "events" "users" "0" true, stubbornSelf [], .ok (), stubbornSelf []⟩]
      (runLoop stubbornConfig (1 + 1024) ⟨0, none⟩ (stubbornSelf log)) :=
    ⟨_, .cons _ _ (.nil _)⟩
  obtain ⟨log, hfirst⟩ := hfirst
  obtain ⟨tr, hrun, hpossible⟩ := stubborn_run log 1 1024 (by omega)
  obtain ⟨s₀, hlast⟩ := stubborn_last log (Nat.le_refl 1024)
  refine ⟨_, _, _, _, hfirst.trans (hrun.trans hlast), fun x hx => ?_, ?_, fun h => ?_⟩
  · rcases List.mem_append.mp hx with hx | hx
    · rw [List.mem_singleton.mp hx]
      simp [Command.Possible]
    · rcases List.mem_append.mp hx with hx | hx
      · exact hpossible x hx
      · rw [List.mem_singleton.mp hx]
        simp [Command.Possible, Command.canRaise]
  · rintro x ⟨⟩
    rfl
  · have hmax : 0 < stubbornConfig.maxLoopFailures := ((h.ends overflowError).mp ⟨_, rfl⟩).1
    exact absurd hmax (by decide)

end Solo

/-! ## A run that has ended -/

section Ended

variable [StandardLibrary] {cfg : Config} {fuel : ℕ} {s : Self}
  {tr : List (Exchange consumerSig)} {q : Program consumerSig Unit}

/-- After a cancellation the run awaits nothing any more. -/
lemma interrupted_last {pre post : List (Exchange consumerSig)} {x : Exchange consumerSig}
    {inSleep : Bool} (hrun : Run (run cfg fuel s) (pre ++ x :: post) q)
    (hpossible : ∀ y ∈ pre ++ x :: post, Command.Possible y.command y.answer)
    (hplace : (view (pre ++ [x])).place = .interrupted inSleep) : post = [] := by
  cases post with
  | nil => rfl
  | cons y post =>
      have happend : pre ++ x :: y :: post = (pre ++ [x]) ++ y :: post := by simp
      rw [happend] at hrun hpossible
      have hallowed : (view (pre ++ [x])).Allowed cfg y.command :=
        Program.wp_track_may (run_view cfg fuel s) hrun hpossible
      rw [LoopView.Allowed, hplace] at hallowed
      exact absurd hallowed id

/-- A cancelled await leaves the run interrupted. -/
lemma cancelled_interrupts {pre post : List (Exchange consumerSig)} {x : Exchange consumerSig}
    (hrun : Run (run cfg fuel s) (pre ++ x :: post) q)
    (hpossible : ∀ y ∈ pre ++ x :: post, Command.Possible y.command y.answer)
    (hcreated : Created (pre ++ x :: post)) (hx : x.answer = .error .cancelled) :
    (view (pre ++ [x])).place = .interrupted (Command.isSleep x.command) := by
  have hallowed : (view pre).Allowed cfg x.command :=
    Program.wp_track_may (run_view cfg fuel s) hrun hpossible
  have hcreate : Command.isCreate x.command = false := by
    rw [LoopView.Allowed] at hallowed
    split at hallowed
    · rename_i hplace
      have hnil := place_creating hplace
      subst hnil
      have hfirst := hcreated x rfl
      rw [hx] at hfirst
      cases hfirst
    · exact hallowed.2.1
    · rw [hallowed.2]
      rfl
    · exact absurd hallowed id
    · exact absurd hallowed id
  rw [view_place, hx]
  simp only [Place.after, hcreate, Bool.false_eq_true, if_false]

/-- **Every cancellation gets out.** -/
theorem cancelled_ends_cancelled {r : Except Raised Unit} {s' : Self} {x : Exchange consumerSig}
    (hrun : Run (run cfg fuel s) tr (.done (S := consumerSig) r s'))
    (hpossible : ∀ y ∈ tr, Command.Possible y.command y.answer) (hcreated : Created tr)
    (hmem : x ∈ tr) (hx : x.answer = .error .cancelled) : r = .error .cancelled := by
  obtain ⟨pre, post, rfl⟩ := List.append_of_mem hmem
  have hplace := cancelled_interrupts hrun hpossible hcreated hx
  have hnil := interrupted_last hrun hpossible hplace
  subst hnil
  have hq := Program.wp_track (run_view cfg fuel s) hrun hpossible
  cases r with
  | ok a =>
      have hend : (view (pre ++ [x])).place = .looping := hq.1
      rw [hplace] at hend
      cases hend
  | error e =>
      have hend : RunRaises cfg (view (pre ++ [x])) s' e := hq
      cases hend with
      | refused _ h => rw [hplace] at h; cases h
      | cancelled => rfl
      | gaveUp _ h => rw [hplace] at h; cases h
      | overflow h => rw [hplace] at h; cases h

/-- The run has ended: it is marked as ended, and a cancellation has got out as one. -/
def EndedMarked (tr : List (Exchange consumerSig)) (r : Except Raised Unit) (s' : Self) : Prop :=
  s'.isRunning = false ∧ ((∃ x ∈ tr, x.answer = .error .cancelled) → r = .error .cancelled)

/-- The last await of the run was its back-off sleep, and it was cancelled there. -/
def CancelledAsleep (x : Exchange consumerSig) : Prop :=
  Command.isSleep x.command = true ∧ x.answer = .error .cancelled

omit [StandardLibrary] in
/-- Only a cancelled sleep leaves a run interrupted in its sleep. -/
lemma place_inSleep_iff (pre : List (Exchange consumerSig)) (x : Exchange consumerSig) :
    (view (pre ++ [x])).place = .interrupted true ↔ CancelledAsleep x := by
  rw [view_place, CancelledAsleep]
  obtain ⟨c, s, r, s'⟩ := x
  unfold Place.after
  cases hcreate : Command.isCreate c with
  | true =>
      have hsleep : Command.isSleep c = false := by
        cases c <;> first | rfl | cases hcreate
      cases hends : endsCreation r <;> simp [hsleep]
  | false =>
      cases r with
      | ok a => simp
      | error e =>
          cases e with
          | cancelled => simp
          | exception e =>
              simp only [Bool.false_eq_true, if_false, Except.error.injEq, reduceCtorEq, and_false,
                iff_false]
              split_ifs
              · nofun
              · nofun

omit [StandardLibrary] in
/-- The flag of a run that was cancelled asleep, or that failed in the back-off, is as it was at
its last await. -/
lemma unmarked_iff {pre : List (Exchange consumerSig)} {x : Exchange consumerSig} {s' : Self}
    (hflag : s'.isRunning = Self.isRunning x.after)
    (hbad : CancelledAsleep x ∨ BackOffFails cfg (loopErrors (pre ++ [x])).length) :
    s'.isRunning = false ↔ ∀ pre' x', pre ++ [x] = pre' ++ [x'] → Self.isRunning x'.after = true →
      ¬ CancelledAsleep x' ∧ ¬ BackOffFails cfg (loopErrors (pre ++ [x])).length := by
  rw [hflag]
  constructor
  · intro hdown pre' x' htr hup
    obtain ⟨-, rfl⟩ := List.append_singleton_inj.mp htr
    rw [hdown] at hup
    cases hup
  · intro hall
    by_contra hup
    obtain ⟨hawake, hfits⟩ := hall pre x rfl (by simpa using hup)
    exact hbad.elim hawake hfits

/-- **When a run that has ended is marked as ended.**  Its flag stays up in two cases: it was
cancelled in the back-off sleep, which stands in an `except` clause the other one does not guard,
and the back-off failed in that clause. -/
theorem ended_marked_iff {r : Except Raised Unit} {s' : Self}
    (hrun : Run (run cfg fuel s) tr (.done (S := consumerSig) r s'))
    (hpossible : ∀ y ∈ tr, Command.Possible y.command y.answer) (hcreated : Created tr) :
    EndedMarked tr r s' ↔ ∀ pre x, tr = pre ++ [x] → Self.isRunning x.after = true →
      ¬ CancelledAsleep x ∧ ¬ BackOffFails cfg (loopErrors tr).length := by
  have hcancelled : (∃ x ∈ tr, x.answer = .error .cancelled) → r = .error .cancelled := by
    rintro ⟨x, hmem, hx⟩
    exact cancelled_ends_cancelled hrun hpossible hcreated hmem hx
  have hq := Program.wp_track (run_view cfg fuel s) hrun hpossible
  have hrefused := not_refused hrun hpossible hcreated
  have herrors := view_errors tr
  rw [EndedMarked, and_iff_left hcancelled]
  -- the view of a run that has made an exchange
  have hlast : ∀ {pre x}, tr = pre ++ [x] → (view tr).up = Self.isRunning x.after := by
    rintro pre x rfl
    rw [view_concat]
    rfl
  have hasleep : ∀ {pre x}, tr = pre ++ [x] → CancelledAsleep x →
      (view tr).place = .interrupted true := by
    rintro pre x rfl h
    exact (place_inSleep_iff pre x).mpr h
  have hmarked : s'.isRunning = false → (view tr).place ≠ .interrupted true →
      ¬ BackOffFails cfg (loopErrors tr).length → (s'.isRunning = false ↔ ∀ pre x,
        tr = pre ++ [x] → Self.isRunning x.after = true →
        ¬ CancelledAsleep x ∧ ¬ BackOffFails cfg (loopErrors tr).length) := by
    intro hdown hplace hfits
    exact iff_of_true hdown fun pre x htr _ => ⟨fun h => hplace (hasleep htr h), hfits⟩
  cases r with
  | ok a =>
      have hend : (view tr).place = .looping ∧ Within cfg (view tr).errors
        ∧ s'.isRunning = false := hq
      refine hmarked hend.2.2 ?_ (herrors ▸ hend.2.1.1)
      rw [hend.1]
      nofun
  | error e =>
      have hend : RunRaises cfg (view tr) s' e := hq
      cases hend with
      | refused _ h => exact absurd h hrefused
      | cancelled inSleep h hwithin hflag =>
          cases inSleep with
          | false =>
              refine hmarked hflag ?_ (herrors ▸ hwithin.1)
              rw [h]
              nofun
          | true =>
              rcases List.eq_nil_or_concat tr with rfl | ⟨pre, x, rfl⟩
              · cases h
              · rw [List.concat_eq_append] at h hflag hlast ⊢
                have hcancelled := (place_inSleep_iff pre x).mp h
                rw [hlast rfl, Bool.true_and] at hflag
                exact unmarked_iff hflag (Or.inl hcancelled)
      | gaveUp e h hmax hlength hfits hlast' hflag =>
          refine hmarked hflag ?_ (herrors ▸ hfits)
          rw [h]
          nofun
      | overflow h hfails hmax hflag =>
          rcases List.eq_nil_or_concat tr with rfl | ⟨pre, x, rfl⟩
          · cases h
          · rw [List.concat_eq_append] at herrors hflag hlast hfails ⊢
            rw [hlast rfl] at hflag
            rw [herrors] at hfails
            exact unmarked_iff hflag (Or.inr hfails)

end Ended

section Solo

attribute [local instance] plainLibrary

/-- A run that is stopped in `XREADGROUP` is marked as ended. -/
theorem stopped_reading_marked : ∃ tr r s',
    Run (run soloConfig 2 (Self.init soloConfig 0)) tr (.done (S := consumerSig) r s')
      ∧ tr.length = 3 ∧ EndedMarked tr r s' := by
  let s := Self.init soloConfig 0
  let up : Self := { s with isRunning := true }
  have hrun : ∃ s₁ s₂ r s', Run (run soloConfig 2 s)
      ([⟨Command.xgroupCreate "events" "users" "0" true, s, .ok (), s⟩,
        ⟨Command.xautoclaim "events" "users" "worker" 120000 .zero 10, s₁, .ok (.zero, []), up⟩]
        ++ [⟨Command.xreadgroup "users" "worker" "events" 10 5000, s₂, .ok [], s⟩])
      (.done (S := consumerSig) r s') :=
    ⟨_, _, _, _, .cons _ _ (.cons _ _ (.cons _ _ (.nil _)))⟩
  obtain ⟨s₁, s₂, r, s', hrun⟩ := hrun
  refine ⟨_, r, s', hrun, rfl, (ended_marked_iff hrun ?_ ?_).mpr fun pre x htr hup => ?_⟩
  · simp [Command.Possible]
  · rintro x ⟨⟩
    rfl
  · obtain ⟨-, rfl⟩ := List.append_singleton_inj.mp htr
    cases hup

/-- A run that is cancelled while it sleeps after an error: the task ends, and its flag is up. -/
theorem cancelled_asleep_unmarked : ∃ tr r s',
    Run (run soloConfig 2 (Self.init soloConfig 0)) tr (.done (S := consumerSig) r s')
      ∧ (∀ x ∈ tr, Command.Possible x.command x.answer) ∧ Created tr ∧ ¬ EndedMarked tr r s' := by
  let s := Self.init soloConfig 0
  let up : Self := { s with isRunning := true }
  obtain ⟨delay, s₂, k, hsleeps, hcancelled⟩ : ∃ delay s₂ k,
      onLoopError soloConfig 0 (.exception connectionError) up = .await (.sleep delay) s₂ k
        ∧ k (.error .cancelled) up = .done (.error .cancelled) up := by
    obtain ⟨text, htext⟩ := onLoopError_exception (solo_fits 1) connectionError
    rw [htext]
    exact ⟨_, _, _, rfl, rfl⟩
  have hrun : ∃ s₁, Run (run soloConfig 2 s)
      [⟨Command.xgroupCreate "events" "users" "0" true, s, .ok (), s⟩,
        ⟨Command.xautoclaim "events" "users" "worker" 120000 .zero 10, s₁,
          .error (.exception connectionError), up⟩,
        ⟨Command.sleep delay, s₂, .error .cancelled, up⟩] (.done (.error .cancelled) up) := by
    refine ⟨_, .cons _ _ (.cons _ _ ?_)⟩
    change Run (Program.andThen (Program.andThen (onLoopError _ _ _ _) _) _) _ _
    rw [hsleeps]
    refine .cons _ _ ?_
    change Run (Program.andThen (Program.andThen (k _ _) _) _) _ _
    rw [hcancelled]
    exact .nil _
  obtain ⟨s₁, hrun⟩ := hrun
  refine ⟨_, _, _, hrun, ?_, ?_, ?_⟩
  · simp [Command.Possible, Command.canRaise]
  · rintro x ⟨⟩
    rfl
  · rintro ⟨hdown, -⟩
    cases hdown

end Solo

end Atsig
