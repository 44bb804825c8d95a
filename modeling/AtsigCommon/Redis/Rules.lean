import AtsigCommon.Redis.Consumer

/-!
# Rules for the loops of the consumer

The scan of `_reclaim_pending` and the read loop of `run` keep a contract and an invariant of its
ghost state as soon as one pass does.  `reclaimPending_keeps` and `run_keeps` say so once, for
every contract; what is left to each property is the few awaits it is about.
-/

namespace Atsig

open Coroutine Python

variable {G : Type} {C : Contract consumerSig G} {I : G → Prop} (cfg : Config)

/-- A pass of the scan: `XAUTOCLAIM`, and what is done with the entries it gave. -/
def ScanKeeps (C : Contract consumerSig G) (I : G → Prop) : Prop :=
  ∀ startId g s, I g → (xautoclaim cfg startId).wp C
    (fun answer => (takeOver cfg answer.2).wp C (fun _ g _ => I g) fun _ g _ => I g)
    (fun _ g _ => I g) g s

/-- A pass of the read loop: `XREADGROUP`, and what is done with the entries it gave. -/
def ReadKeeps (C : Contract consumerSig G) (I : G → Prop) : Prop :=
  ∀ g s, I g → (xreadgroup cfg).wp C
    (fun response => (gatherTasks (batchJobs response)).wp C (fun _ g _ => I g) fun _ g _ => I g)
    (fun _ g _ => I g) g s

@[simp] lemma reclaimJob_messageId (messageId : EntryId) (fields : Fields)
    (deliveries : Option ℕ) :
    (reclaimJob cfg messageId fields deliveries).messageId = messageId := by
  cases deliveries with
  | none => rfl
  | some n =>
      rw [reclaimJob]
      split <;> rfl

/-- The jobs of a claimed batch, when each of its two Redis calls keeps the invariant. -/
lemma reclaimTasks_keeps (hxack : ∀ e, (xack cfg e).Keeps C fun g _ => I g)
    (hpending : ∀ e, (xpendingRange cfg e).Keeps C fun g _ => I g) :
    ∀ claimed : List (EntryId × Option Fields),
      (reclaimTasks cfg claimed).Keeps C fun g _ => I g
  | [] => Co.keeps_pure _
  | (messageId, none) :: claimed => by
      refine (hxack messageId).bind fun _ => ?_
      exact reclaimTasks_keeps hxack hpending claimed
  | (messageId, some fields) :: claimed => by
      refine Co.Keeps.bind (exceptException_keeps ?_ fun _ => Co.keeps_pure _) fun deliveries => ?_
      · exact (hpending messageId).bind fun _ => Co.keeps_pure _
      · exact (reclaimTasks_keeps hxack hpending claimed).bind fun _ => Co.keeps_pure _

/-- `if claimed:` and the log line add nothing to `_handle_reclaimed`. -/
lemma takeOver_wp {claimed : List (EntryId × Option Fields)} {φ : Unit → G → Self → Prop}
    {ψ : Raised → G → Self → Prop} {g : G} (hempty : ∀ s, claimed = [] → φ () g s)
    (h : ∀ s, (handleReclaimed cfg claimed).wp C φ ψ g s) (s : Self) :
    (takeOver cfg claimed).wp C φ ψ g s := by
  rw [takeOver]
  split
  · exact hempty s (List.isEmpty_iff.mp ‹_›)
  · rw [Co.wp_bind, wp_writeLog]
    exact h _

/-- A pass of the scan, when each of its Redis calls keeps the invariant. -/
lemma scanKeeps (hclaim : ∀ startId, (xautoclaim cfg startId).Keeps C fun g _ => I g)
    (hxack : ∀ e, (xack cfg e).Keeps C fun g _ => I g)
    (hpending : ∀ e, (xpendingRange cfg e).Keeps C fun g _ => I g)
    (hgather : ∀ jobs, (gather jobs).Keeps C fun g _ => I g) : ScanKeeps cfg C I := by
  intro startId g s h
  refine Co.wp_mono (hclaim startId g s h) (fun answer g' s' h' => ?_) (fun _ _ _ h => h)
  refine takeOver_wp cfg (fun _ _ => h') (fun s => ?_) s'
  refine (reclaimTasks_keeps cfg hxack hpending answer.2).bind (fun tasks => ?_) g' s h'
  exact Co.Keeps.ite (Co.keeps_pure _) (hgather tasks)

/-- The scan keeps what a pass keeps. -/
theorem reclaimPending_keeps (hcut : ∀ g, I g → C.cut g) (hscan : ScanKeeps cfg C I) :
    ∀ (fuel : ℕ) (startId : EntryId) (reclaimed : ℕ),
      (reclaimPending cfg fuel startId reclaimed).Keeps C fun g _ => I g
  | 0, _, _ => Co.keeps_get_bind fun g s h =>
      Co.Keeps.ite (Co.keeps_spent fun g _ => hcut g) (Co.keeps_pure _) g s h
  | fuel + 1, startId, reclaimed => by
      refine Co.keeps_get_bind fun g s h => Co.Keeps.ite (fun g s h => ?_) (Co.keeps_pure _) g s h
      rw [Co.wp_bind]
      refine Co.wp_mono (hscan startId g s h) (fun answer g' s' h' => ?_) (fun _ _ _ h => h)
      rw [Co.wp_bind]
      refine Co.wp_mono h' (fun _ g'' s'' h'' => ?_) (fun _ _ _ h => h)
      exact Co.Keeps.ite (Co.keeps_pure _)
        (reclaimPending_keeps hcut hscan fuel answer.1 (reclaimed + answer.2.length)) g'' s'' h''

variable [StandardLibrary]

/-- The two `except` clauses of `run` await nothing but the back-off. -/
lemma onLoopError_keeps (hsleep : ∀ delay, (sleep delay).Keeps C fun g _ => I g) (failures : ℕ)
    (e : Raised) : (onLoopError cfg failures e).Keeps C fun g _ => I g := by
  cases e with
  | cancelled =>
      refine (writeLog_keeps _ _ _).bind fun _ => Co.Keeps.bind ?_ fun _ => Co.keeps_raise _
      exact Co.keeps_modify fun _ _ h => h
  | exception e =>
      simp only [onLoopError]
      cases loopDelay cfg (failures + 1) with
      | error e => exact Co.keeps_raise _
      | ok delay =>
          dsimp only
          cases retryNote cfg (failures + 1) delay with
          | error e => exact Co.keeps_raise _
          | ok note =>
              refine (writeLog_keeps _ _ _).bind fun _ => Co.Keeps.ite ?_ ?_
              · refine Co.Keeps.bind ?_ fun _ => Co.keeps_raise _
                exact Co.keeps_modify fun _ _ h => h
              · exact (hsleep delay.value).bind fun _ => Co.keeps_pure _

/-- One pass of the read loop, whichever of its parts fails. -/
lemma runPass_keeps (hcut : ∀ g, I g → C.cut g) (hscan : ScanKeeps cfg C I)
    (hread : ReadKeeps cfg C I) (hsleep : ∀ delay, (sleep delay).Keeps C fun g _ => I g)
    (fuel : ℕ) (locals : RunLocals) : (runPass cfg fuel locals).Keeps C fun g _ => I g := by
  have herror : ∀ failures e lastReclaim, (do
      return ⟨← onLoopError cfg failures e, lastReclaim⟩ : Consumer RunLocals).Keeps C
      fun g _ => I g :=
    fun failures e _ => (onLoopError_keeps cfg hsleep failures e).bind fun _ => Co.keeps_pure _
  have hreclaim : (reclaimIfDue cfg fuel locals.lastReclaim).Keeps C fun g _ => I g :=
    Co.keeps_get_bind fun g s h => Co.Keeps.ite
      ((reclaimPending_keeps cfg hcut hscan fuel _ _).bind fun _ =>
        Co.keeps_get_bind fun g s h => Co.keeps_pure _ g s h) (Co.keeps_pure _) g s h
  refine hreclaim.attempt.bind fun r => ?_
  cases r with
  | error e => exact herror _ e _
  | ok lastReclaim =>
      intro g s h
      dsimp only
      rw [Co.wp_bind, Co.wp_attempt]
      refine Co.wp_mono (hread g s h) (fun response g' s' h' => ?_) (fun e => herror _ e _)
      dsimp only
      rw [Co.wp_bind, Co.wp_attempt]
      exact Co.wp_mono h' (fun _ _ _ h => h) (fun e => herror _ e _)

lemma runLoop_keeps (hcut : ∀ g, I g → C.cut g) (hscan : ScanKeeps cfg C I)
    (hread : ReadKeeps cfg C I) (hsleep : ∀ delay, (sleep delay).Keeps C fun g _ => I g) :
    ∀ (fuel : ℕ) (locals : RunLocals), (runLoop cfg fuel locals).Keeps C fun g _ => I g
  | 0, _ => Co.keeps_get_bind fun g s h =>
      Co.Keeps.ite (Co.keeps_spent fun g _ => hcut g) (Co.keeps_pure _) g s h
  | fuel + 1, locals => Co.keeps_get_bind fun g s h =>
      Co.Keeps.ite ((runPass_keeps cfg hcut hscan hread hsleep (fuel + 1) locals).bind
        (runLoop_keeps hcut hscan hread hsleep fuel)) (Co.keeps_pure _) g s h

/-- **The rule of the read loop.**  `run` keeps a contract and an invariant that the creation of
the group, a pass of the scan, a pass of the loop and the back-off keep. -/
theorem run_keeps (hcut : ∀ g, I g → C.cut g) (hcreate : (xgroupCreate cfg).Keeps C fun g _ => I g)
    (hscan : ScanKeeps cfg C I) (hread : ReadKeeps cfg C I)
    (hsleep : ∀ delay, (sleep delay).Keeps C fun g _ => I g) (fuel : ℕ) :
    (run cfg fuel).Keeps C fun g _ => I g := by
  refine Co.Keeps.bind (exceptException_keeps ?_ fun e => Co.Keeps.ite ?_ ?_) fun _ => ?_
  · exact hcreate.bind fun _ => writeLog_keeps _ _ _
  · exact writeLog_keeps _ _ _
  · exact Co.keeps_raise _
  · refine Co.Keeps.bind ?_ fun _ => (writeLog_keeps _ _ _).bind fun _ =>
      runLoop_keeps cfg hcut hscan hread hsleep fuel _
    exact Co.keeps_modify fun _ _ h => h

end Atsig
