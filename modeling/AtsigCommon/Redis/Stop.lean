import AtsigCommon.Redis.Rules

/-!
# After `stop()`

`stop()` sets `_is_running` to false.  `run` looks at the flag at the head of its two loops only,
and sets it to true itself once the group exists.  So a call of `stop()` that lands while the
group is being created is lost, and one that lands in a reclaim scan is followed by one more
`XREADGROUP`, unless an error ends the scan; everywhere else it is obeyed.

`StopPhase` follows a run past the await in which `stop()` lands; `run_phase` says how the
coroutines move it, and `stop_obeyed_iff` reads off where it is obeyed.
-/

namespace Atsig

open Coroutine Python

/-- The two calls that fetch entries. -/
def Command.isFetch : Command → Bool
  | .xreadgroup .. | .xautoclaim .. => true
  | _ => false

def Command.isRead : Command → Bool
  | .xreadgroup .. => true
  | _ => false

def Command.isCreate : Command → Bool
  | .xgroupCreate .. => true
  | _ => false

/-- The awaits of a scan.  A `gather` belongs to a scan unless it comes right after an
`XREADGROUP`. -/
def Command.inScan (afterRead : Bool) : Command → Bool
  | .xautoclaim .. | .xack .. | .xpendingRange .. => true
  | .gather _ => !afterRead
  | _ => false

/-- The await ends the scan: only an error of `XPENDING` does not. -/
def endsScan : (c : Command) → Except Raised c.Answer → Bool
  | .xpendingRange .., .error (.exception _) => false
  | _, .error _ => true
  | _, .ok _ => false

/-- The creation of the group ends `run`: it raises, and not because the group exists. -/
def endsCreation {α : Type} : Except Raised α → Bool
  | .error .cancelled => true
  | .error (.exception e) => !(decide (e.cls = .responseError) && isBusyGroup e)
  | .ok _ => false

/-- Where a run is, relative to the call of `stop()` under consideration. -/
inductive StopPhase
  /-- Before it, in the creation of the group. -/
  | creating
  /-- Before it; whether the last await was an `XREADGROUP`. -/
  | live (afterRead : Bool)
  /-- After it; nothing is fetched any more. -/
  | halted
  /-- After it, in a scan. -/
  | scanning
  /-- After it, past the `XREADGROUP` that follows such a scan. -/
  | overread
  deriving DecidableEq

namespace StopPhase

/-- The phase after one more await, `stop()` having landed before. -/
def next : StopPhase → (c : Command) → Except Raised c.Answer → StopPhase
  | .scanning, c, r => if c.isRead then .overread else if endsScan c r then .halted else .scanning
  | g, _, _ => g

/-- The phase after the await in which `stop()` lands; none when the call is lost. -/
def land : StopPhase → (c : Command) → Except Raised c.Answer → Option StopPhase
  | .creating, _, r => if endsCreation r then some .halted else none
  | .live afterRead, c, r =>
      if c.inScan afterRead then if endsScan c r then some .halted else some .scanning
      else some .halted
  | _, _, _ => none

def Allowed : StopPhase → Command → Prop
  | .creating, c => c.isCreate
  | .live _, c => c.isCreate = false
  | .halted, c => c.isFetch = false
  | .scanning, c => c.isFetch → c.isRead
  | .overread, c => c.isFetch = false

/-- `stop()` lies ahead. -/
def ahead : StopPhase → Bool
  | .creating | .live _ => true
  | _ => false

/-- The run is not in a scan in which `stop()` has landed. -/
def Settled (g : StopPhase) (s : Self) : Prop :=
  (∃ afterRead, g = .live afterRead) ∨ (g = .halted ∨ g = .overread) ∧ s.isRunning = false

/-- The run is in a scan. -/
def InScan (g : StopPhase) (s : Self) : Prop :=
  g = .live false ∨ g = .scanning ∧ s.isRunning = false

/-- The run is in a scan, or about to start one. -/
def AtScan (g : StopPhase) (s : Self) : Prop :=
  (∃ afterRead, g = .live afterRead) ∨ g = .scanning ∧ s.isRunning = false

end StopPhase

/-- The contract of a run in which `stop()` is called: the flag stays down for those who do not
set it, and the run goes on for ever only while `stop()` lies ahead. -/
def stopContract : Contract consumerSig StopPhase where
  may g _ c := g.Allowed c
  env g s c r g' s' := c.Possible r ∧
    if g.ahead then g' = .live c.isRead ∨ s'.isRunning = false ∧ g.land c r = some g'
    else (s.isRunning = false → s'.isRunning = false) ∧ g' = g.next c r
  cut g := g.ahead

/-! ## The run obeys the phases -/

section Phases

variable {g : StopPhase} {s : Self}

/-- An await before `stop()`: it lands there or lies ahead still. -/
lemma send_live {afterRead : Bool} {c : Command} {φ : c.Answer → StopPhase → Self → Prop}
    {ψ : Raised → StopPhase → Self → Prop} (hc : c.isCreate = false)
    (hok : ∀ a g s, g = .live c.isRead
      ∨ s.isRunning = false ∧ (StopPhase.live afterRead).land c (.ok a) = some g → φ a g s)
    (herr : ∀ e g s, c.Possible (.error e) → g = .live c.isRead
      ∨ s.isRunning = false ∧ (StopPhase.live afterRead).land c (.error e) = some g → ψ e g s) :
    (send c).wp stopContract φ ψ (.live afterRead) s := by
  refine send_wp hc (fun a g' s' henv => ?_) (fun e g' s' henv => ?_)
  · exact hok a g' s' henv.2
  · exact herr e g' s' henv.1 henv.2

/-- An await of the scan other than `XAUTOCLAIM`. -/
lemma send_inScan {c : Command} (hscan : c.inScan false = true) (hfetch : c.isFetch = false)
    (h : g.InScan s) :
    (send c).wp stopContract (fun _ g s => g.InScan s)
      (fun e g s => if endsScan c (.error e) then g.Settled s else g.InScan s) g s := by
  have hread : c.isRead = false := by
    cases c with
    | xreadgroup | xautoclaim => cases hfetch
    | xgroupCreate | xpendingRange | xadd | xack | processMessage | acquire | sleep | gather => rfl
  have hcreate : c.isCreate = false := by
    cases c with
    | xgroupCreate => cases hscan
    | xreadgroup | xautoclaim | xpendingRange | xadd | xack | processMessage | acquire | sleep
    | gather => rfl
  have hanswer : ∀ a, endsScan c (.ok a) = false := by
    intro a
    cases c <;> rfl
  rcases h with rfl | ⟨rfl, hdown⟩
  · refine send_live hcreate (fun a g' s' h => ?_) (fun e g' s' _ h => ?_)
    · simp only [StopPhase.land, hscan, hanswer, if_true, Bool.false_eq_true, if_false,
        Option.some.injEq, hread] at h
      rcases h with rfl | ⟨hdown, rfl⟩
      · exact Or.inl rfl
      · exact Or.inr ⟨rfl, hdown⟩
    · simp only [StopPhase.land, hscan, if_true, hread] at h
      split
      · rw [if_pos ‹_›] at h
        rcases h with rfl | ⟨hdown, hg⟩
        · exact Or.inl ⟨false, rfl⟩
        · obtain rfl := Option.some.inj hg
          exact Or.inr ⟨Or.inl rfl, hdown⟩
      · rw [if_neg ‹_›] at h
        rcases h with rfl | ⟨hdown, hg⟩
        · exact Or.inl rfl
        · obtain rfl := Option.some.inj hg
          exact Or.inr ⟨rfl, hdown⟩
  · refine send_wp (fun hf => by rw [hfetch] at hf; cases hf) (fun a g' s' henv => ?_)
      (fun e g' s' henv => ?_)
    · obtain ⟨-, hstay, rfl⟩ := henv
      refine Or.inr ⟨?_, hstay hdown⟩
      simp [StopPhase.next, hread, hanswer]
    · obtain ⟨-, hstay, rfl⟩ := henv
      simp only [StopPhase.next, hread, Bool.false_eq_true, if_false]
      split
      · exact Or.inr ⟨Or.inl rfl, hstay hdown⟩
      · exact Or.inr ⟨rfl, hstay hdown⟩

variable (cfg : Config)

/-- The jobs of a claimed batch: the scan goes on, or an error ended it. -/
lemma reclaimTasks_phase : ∀ (claimed : List (EntryId × Option Fields)) {g : StopPhase} {s : Self},
    g.InScan s → (reclaimTasks cfg claimed).wp stopContract (fun _ g s => g.InScan s)
      (fun _ g s => g.Settled s) g s
  | [], _, _, h => h
  | (messageId, none) :: claimed, g, s, h => by
      rw [reclaimTasks, Co.wp_bind]
      exact Co.wp_mono (send_inScan rfl rfl h) (fun _ _ _ h => reclaimTasks_phase claimed h)
        (fun _ _ _ h => h)
  | (messageId, some fields) :: claimed, g, s, h => by
      simp only [reclaimTasks, deliveryCount, Co.wp_bind, wp_exceptException, Co.wp_pure]
      refine Co.wp_mono (send_inScan rfl rfl h) (fun _ _ _ h => reclaimTasks_phase claimed h)
        (fun e g' s' h => ?_)
      cases e with
      | cancelled => exact h
      | exception e => exact reclaimTasks_phase claimed h

lemma takeOver_phase (claimed : List (EntryId × Option Fields)) (h : g.InScan s) :
    (takeOver cfg claimed).wp stopContract (fun _ g s => g.InScan s) (fun _ g s => g.Settled s)
      g s := by
  rw [takeOver]
  split
  · exact h
  · simp only [handleReclaimed, Co.wp_bind, wp_writeLog]
    refine Co.wp_mono (reclaimTasks_phase cfg claimed h) (fun tasks g' s' h => ?_)
      (fun _ _ _ h => h)
    rw [gatherTasks]
    split
    · exact h
    · exact Co.wp_mono (send_inScan rfl rfl h) (fun _ _ _ h => h) (fun _ _ _ h => h)

lemma StopPhase.InScan.atScan (h : g.InScan s) : g.AtScan s := h.imp_left fun h => ⟨false, h⟩

/-- With the flag up, `stop()` lies ahead. -/
lemma StopPhase.AtScan.live (h : g.AtScan s) (hup : s.isRunning = true) :
    ∃ afterRead, g = .live afterRead := by
  rcases h with h | ⟨-, hdown⟩
  · exact h
  · rw [hup] at hdown
    cases hdown

lemma StopPhase.Settled.live (h : g.Settled s) (hup : s.isRunning = true) :
    ∃ afterRead, g = .live afterRead := by
  rcases h with h | ⟨-, hdown⟩
  · exact h
  · rw [hup] at hdown
    cases hdown

lemma reclaimPending_phase : ∀ (fuel : ℕ) (startId : EntryId) (reclaimed : ℕ) {g : StopPhase}
    {s : Self}, g.AtScan s → (reclaimPending cfg fuel startId reclaimed).wp stopContract
      (fun _ g s => g.AtScan s) (fun _ g s => g.Settled s) g s
  | 0, _, _, g, s, h => by
      rw [reclaimPending, Co.wp_bind, Co.wp_get]
      dsimp only
      split
      · obtain ⟨afterRead, rfl⟩ := h.live ‹_›
        exact rfl
      · exact h
  | fuel + 1, startId, reclaimed, g, s, h => by
      rw [reclaimPending, Co.wp_bind, Co.wp_get]
      dsimp only
      split
      · obtain ⟨afterRead, rfl⟩ := h.live ‹_›
        rw [Co.wp_bind]
        refine send_live rfl (fun answer g' s' h => ?_) (fun e g' s' _ h => ?_)
        · have hscan : g'.InScan s' := by
            rcases h with rfl | ⟨hdown, hg⟩
            · exact Or.inl rfl
            · obtain rfl := Option.some.inj hg
              exact Or.inr ⟨rfl, hdown⟩
          obtain ⟨nextId, claimed⟩ := answer
          dsimp only
          rw [Co.wp_bind]
          refine Co.wp_mono (takeOver_phase cfg claimed hscan) (fun _ g'' s'' h => ?_)
            (fun _ _ _ h => h)
          split
          · exact h.atScan
          · exact reclaimPending_phase fuel nextId _ h.atScan
        · rcases h with rfl | ⟨hdown, hg⟩
          · exact Or.inl ⟨_, rfl⟩
          · obtain rfl := Option.some.inj hg
            exact Or.inr ⟨Or.inl rfl, hdown⟩
      · exact h

/-- The reclaim of a pass. -/
lemma reclaimIfDue_phase (fuel : ℕ) (lastReclaim : Option ℚ) (h : g.AtScan s) :
    (reclaimIfDue cfg fuel lastReclaim).wp stopContract (fun _ g s => g.AtScan s)
      (fun _ g s => g.Settled s) g s := by
  rw [reclaimIfDue, Co.wp_bind, Co.wp_get]
  dsimp only
  split
  · rw [Co.wp_bind]
    exact Co.wp_mono (reclaimPending_phase cfg fuel .zero 0 h) (fun _ _ _ h => h)
      (fun _ _ _ h => h)
  · exact h

/-- The read after a scan: if `stop()` has landed in the scan, this is one read too many. -/
lemma xreadgroup_phase (h : g.AtScan s) :
    (xreadgroup cfg).wp stopContract
      (fun _ g s => g = .live true ∨ (g = .halted ∨ g = .overread) ∧ s.isRunning = false)
      (fun _ g s => g.Settled s) g s := by
  rcases h with ⟨afterRead, rfl⟩ | ⟨rfl, hdown⟩
  · refine send_live rfl (fun a g' s' h => ?_) (fun e g' s' _ h => ?_)
    · rcases h with rfl | ⟨hdown, hg⟩
      · exact Or.inl rfl
      · obtain rfl := Option.some.inj hg
        exact Or.inr ⟨Or.inl rfl, hdown⟩
    · rcases h with rfl | ⟨hdown, hg⟩
      · exact Or.inl ⟨_, rfl⟩
      · obtain rfl := Option.some.inj hg
        exact Or.inr ⟨Or.inl rfl, hdown⟩
  · refine send_wp (fun _ => rfl) (fun a g' s' henv => ?_) (fun e g' s' henv => ?_)
    · obtain ⟨-, hstay, rfl⟩ := henv
      exact Or.inr ⟨Or.inr rfl, hstay hdown⟩
    · obtain ⟨-, hstay, rfl⟩ := henv
      exact Or.inr ⟨Or.inr rfl, hstay hdown⟩

/-- Outside of a scan `stop()` is obeyed at once. -/
lemma send_settled {b : Bool} {c : Command} (hcreate : c.isCreate = false)
    (hfetch : c.isFetch = false) (hscan : c.inScan b = false)
    (h : g = .live b ∨ (g = .halted ∨ g = .overread) ∧ s.isRunning = false) :
    (send c).wp stopContract (fun _ g s => g.Settled s) (fun _ g s => g.Settled s) g s := by
  have hland : ∀ (r : Except Raised c.Answer) (g' : StopPhase) (s' : Self), g' = .live c.isRead
      ∨ s'.isRunning = false ∧ (StopPhase.live b).land c r = some g' → g'.Settled s' := by
    intro r g' s' h
    simp only [StopPhase.land, hscan, Bool.false_eq_true, if_false, Option.some.injEq] at h
    rcases h with rfl | ⟨hdown, rfl⟩
    · exact Or.inl ⟨_, rfl⟩
    · exact Or.inr ⟨Or.inl rfl, hdown⟩
  rcases h with rfl | ⟨rfl | rfl, hdown⟩
  · exact send_live hcreate (fun a => hland (.ok a)) (fun e g' s' _ => hland (.error e) g' s')
  · exact send_wp hfetch (fun _ _ _ henv => Or.inr ⟨Or.inl henv.2.2, henv.2.1 hdown⟩)
      (fun _ _ _ henv => Or.inr ⟨Or.inl henv.2.2, henv.2.1 hdown⟩)
  · exact send_wp hfetch (fun _ _ _ henv => Or.inr ⟨Or.inr henv.2.2, henv.2.1 hdown⟩)
      (fun _ _ _ henv => Or.inr ⟨Or.inr henv.2.2, henv.2.1 hdown⟩)

variable [StandardLibrary]

lemma onLoopError_phase (failures : ℕ) (e : Raised) (h : g.Settled s) :
    (onLoopError cfg failures e).wp stopContract (fun _ g s => g.Settled s)
      (fun _ g s => g.Settled s) g s := by
  have hdown : ∀ {log : List LogLine}, g.Settled { s with isRunning := false, log := log } :=
    h.imp_right fun h => ⟨h.1, rfl⟩
  cases e with
  | cancelled => exact hdown
  | exception e =>
      simp only [onLoopError]
      cases loopDelay cfg (failures + 1) with
      | error e => exact h
      | ok delay =>
          dsimp only
          cases retryNote cfg (failures + 1) delay with
          | error e => exact h
          | ok note =>
              dsimp only
              rw [Co.wp_bind, wp_writeLog]
              split
              · exact hdown
              · rw [Co.wp_bind]
                rcases h with ⟨afterRead, rfl⟩ | h
                · exact send_settled rfl rfl rfl (Or.inl rfl)
                · exact send_settled (b := true) rfl rfl rfl (Or.inr h)

lemma runPass_phase (fuel : ℕ) (locals : RunLocals) (h : g.AtScan s) :
    (runPass cfg fuel locals).wp stopContract (fun _ g s => g.Settled s)
      (fun _ g s => g.Settled s) g s := by
  have herror : ∀ failures lastReclaim e g s, g.Settled s → (do
      return ⟨← onLoopError cfg failures e, lastReclaim⟩ : Consumer RunLocals).wp stopContract
      (fun _ g s => g.Settled s) (fun _ g s => g.Settled s) g s := by
    intro failures lastReclaim e g s h
    rw [Co.wp_bind]
    exact onLoopError_phase cfg failures e h
  rw [runPass, Co.wp_bind, Co.wp_attempt]
  refine Co.wp_mono (reclaimIfDue_phase cfg fuel locals.lastReclaim h) (fun lastReclaim g' s' h => ?_)
    (herror _ _)
  dsimp only
  rw [Co.wp_bind, Co.wp_attempt]
  refine Co.wp_mono (xreadgroup_phase cfg h) (fun response g' s' h => ?_) (herror _ _)
  dsimp only
  rw [Co.wp_bind, Co.wp_attempt, gatherTasks]
  split
  · exact h.imp_left fun h => ⟨true, h⟩
  · exact Co.wp_mono (send_settled rfl rfl rfl h) (fun _ _ _ h => h) (herror _ _)

lemma runLoop_phase : ∀ (fuel : ℕ) (locals : RunLocals) {g : StopPhase} {s : Self},
    g.Settled s → (runLoop cfg fuel locals).wp stopContract (fun _ g s => g.Settled s)
      (fun _ g s => g.Settled s) g s
  | 0, _, g, s, h => by
      rw [runLoop, Co.wp_bind, Co.wp_get]
      dsimp only
      split
      · obtain ⟨afterRead, rfl⟩ := h.live ‹_›
        exact rfl
      · exact h
  | fuel + 1, locals, g, s, h => by
      rw [runLoop, Co.wp_bind, Co.wp_get]
      dsimp only
      split
      · obtain ⟨afterRead, rfl⟩ := h.live ‹_›
        rw [Co.wp_bind]
        exact Co.wp_mono (runPass_phase cfg (fuel + 1) locals (Or.inl ⟨afterRead, rfl⟩))
          (fun locals' _ _ h => runLoop_phase fuel locals' h) (fun _ _ _ h => h)
      · exact h

/-- **`run` obeys the phases.** -/
theorem run_phase (fuel : ℕ) (s : Self) :
    (run cfg fuel).wp stopContract (fun _ g s => g.Settled s) (fun _ g s => g.Settled s)
      .creating s := by
  have hstart : ∀ s, (do
      .modify fun self => { self with isRunning := true }
      writeLog .info noRequestId ("[Consumer] Starting " ++ cfg.consumerName ++ " listening to "
        ++ cfg.streamName ++ "...")
      runLoop cfg fuel ⟨0, none⟩ : Consumer Unit).wp stopContract (fun _ g s => g.Settled s)
      (fun _ g s => g.Settled s) (.live false) s :=
    fun s => runLoop_phase cfg fuel _ (Or.inl ⟨false, rfl⟩)
  rw [run, Co.wp_bind, ensureConsumerGroup, wp_exceptException, Co.wp_bind]
  refine send_wp rfl (fun a g' s' henv => ?_) (fun e g' s' henv => ?_)
  · rcases henv.2 with rfl | ⟨-, hg⟩
    · exact hstart _
    · cases hg
  · cases e with
    | cancelled =>
        rcases henv.2 with rfl | ⟨hdown, hg⟩
        · exact Or.inl ⟨_, rfl⟩
        · obtain rfl := Option.some.inj hg
          exact Or.inr ⟨Or.inl rfl, hdown⟩
    | exception e =>
        dsimp only
        split
        · rw [wp_writeLog]
          rcases henv.2 with rfl | ⟨-, hg⟩
          · exact hstart _
          · simp [StopPhase.land, endsCreation, ‹_ ∧ _›] at hg
        · rcases henv.2 with rfl | ⟨hdown, hg⟩
          · exact Or.inl ⟨_, rfl⟩
          · simp only [StopPhase.land, Option.ite_none_right_eq_some, Option.some.injEq] at hg
            exact Or.inr ⟨Or.inl hg.2.symm, hdown⟩

end Phases

/-! ## Where `stop()` is obeyed -/

/-- The exchange before was an `XREADGROUP`. -/
def afterRead (pre : List (Exchange consumerSig)) : Bool :=
  pre.getLast?.any fun x => Command.isRead x.command

/-- Before the next `XREADGROUP` an await ends the scan with an error. -/
def ScanFails (post : List (Exchange consumerSig)) : Prop :=
  ∃ ys y zs, post = ys ++ y :: zs ∧ (∀ z ∈ ys, Command.isRead z.command = false)
    ∧ Command.isRead y.command = false ∧ endsScan y.command y.answer = true

/-- `stop()` lands in the await `x`: not in the creation of the group, unless that fails; not in
a scan, unless the await or a later one ends the scan with an error. -/
structure StopHeeded (pre : List (Exchange consumerSig)) (x : Exchange consumerSig)
    (post : List (Exchange consumerSig)) : Prop where
  creation : pre = [] → endsCreation x.answer = true
  scan : pre ≠ [] → Command.inScan (afterRead pre) x.command = true →
    endsScan x.command x.answer = true ∨ ScanFails post

/-- The phase before the await in which `stop()` lands. -/
def phaseBefore (pre : List (Exchange consumerSig)) : StopPhase :=
  pre.foldl (fun _ x => .live (Command.isRead x.command)) .creating

lemma phaseBefore_eq (pre : List (Exchange consumerSig)) :
    phaseBefore pre = if pre = [] then .creating else .live (afterRead pre) := by
  rcases List.eq_nil_or_concat pre with rfl | ⟨ys, y, rfl⟩
  · rfl
  · simp [phaseBefore, afterRead]

/-- Nothing is asked of the awaits before. -/
lemma admits_before (pre : List (Exchange consumerSig))
    (hpossible : ∀ y ∈ pre, Command.Possible y.command y.answer) :
    stopContract.Admits .creating pre (phaseBefore pre) := by
  have hfold : ∀ (tr : List (Exchange consumerSig)) (g : StopPhase), g.ahead = true →
      (∀ y ∈ tr, Command.Possible y.command y.answer) →
      stopContract.Admits g tr (tr.foldl (fun _ x => .live (Command.isRead x.command)) g) := by
    intro tr
    induction tr with
    | nil => exact fun g _ _ => .nil g
    | cons x tr ih =>
        intro g hg htr
        refine .cons ⟨htr x (List.mem_cons_self ..), ?_⟩
          (ih _ rfl fun y hy => htr y (List.mem_cons_of_mem _ hy))
        rw [if_pos hg]
        exact Or.inl rfl
  exact hfold pre .creating rfl hpossible

section Traces

variable {g : StopPhase} {p q : Program consumerSig Unit} {post : List (Exchange consumerSig)}

lemma StopPhase.next_ahead (hg : g.ahead = false) (c : Command) (r : Except Raised c.Answer) :
    (g.next c r).ahead = false := by
  cases g with
  | creating => cases hg
  | live afterRead => cases hg
  | halted => rfl
  | overread => rfl
  | scanning =>
      rw [StopPhase.next]
      split
      · rfl
      · split <;> rfl

/-- A run after `stop()`, while nobody raises the flag. -/
lemma run_stopped {φ : Unit → StopPhase → Self → Prop} {ψ : Raised → StopPhase → Self → Prop}
    (hg : g.ahead = false) (h : p.wp stopContract φ ψ g) (hrun : Run p post q)
    (hpossible : ∀ y ∈ post, Command.Possible y.command y.answer)
    (hstay : ∀ y ∈ post, y.before.isRunning = false → y.after.isRunning = false) :
    Obeys StopPhase.Allowed StopPhase.next g post
      ∧ q.wp stopContract φ ψ (watch StopPhase.next g post)
      ∧ (watch StopPhase.next g post).ahead = false := by
  induction hrun generalizing g with
  | nil => exact ⟨trivial, h, hg⟩
  | cons r s' _ ih =>
      have hnext := h.2 r _ s' ⟨hpossible _ (List.mem_cons_self ..), by
        rw [hg]
        exact ⟨hstay _ (List.mem_cons_self ..), rfl⟩⟩
      obtain ⟨hobeys, hq, hahead⟩ := ih (StopPhase.next_ahead hg _ r) hnext
        (fun y hy => hpossible y (List.mem_cons_of_mem _ hy))
        (fun y hy => hstay y (List.mem_cons_of_mem _ hy))
      exact ⟨⟨h.1, hobeys⟩, hq, hahead⟩

lemma obeys_halted (h : Obeys StopPhase.Allowed StopPhase.next .halted post) :
    (∀ y ∈ post, Command.isFetch y.command = false)
      ∧ watch StopPhase.next .halted post = .halted := by
  induction post with
  | nil => exact ⟨by simp, rfl⟩
  | cons x post ih =>
      obtain ⟨hall, hwatch⟩ := ih h.2
      refine ⟨fun y hy => ?_, hwatch⟩
      rcases List.mem_cons.mp hy with rfl | hy
      · exact h.1
      · exact hall y hy

lemma ScanFails.cons {x : Exchange consumerSig} (hx : Command.isRead x.command = false) :
    ScanFails (x :: post) ↔ endsScan x.command x.answer = true ∨ ScanFails post := by
  constructor
  · rintro ⟨ys, y, zs, heq, hys, hy, hends⟩
    cases ys with
    | nil =>
        obtain ⟨rfl, -⟩ := List.cons.inj heq
        exact Or.inl hends
    | cons z ys =>
        obtain ⟨-, rfl⟩ := List.cons.inj heq
        exact Or.inr ⟨ys, y, zs, rfl, fun w hw => hys w (List.mem_cons_of_mem _ hw), hy, hends⟩
  · rintro (hends | ⟨ys, y, zs, rfl, hys, hy, hends⟩)
    · exact ⟨[], x, post, rfl, by simp, hx, hends⟩
    · refine ⟨x :: ys, y, zs, rfl, fun w hw => ?_, hy, hends⟩
      rcases List.mem_cons.mp hw with rfl | hw
      · exact hx
      · exact hys w hw

lemma not_scanFails_of_read {x : Exchange consumerSig} (hx : Command.isRead x.command = true) :
    ¬ ScanFails (x :: post) := by
  rintro ⟨ys, y, zs, heq, hys, hy, -⟩
  cases ys with
  | nil =>
      obtain ⟨rfl, -⟩ := List.cons.inj heq
      rw [hx] at hy
      cases hy
  | cons z ys =>
      obtain ⟨rfl, -⟩ := List.cons.inj heq
      have hfirst := hys x (List.mem_cons_self ..)
      rw [hx] at hfirst
      cases hfirst

/-- After `stop()` in a scan: the scan fails and nothing is fetched; or it has not ended yet; or
it ends and one more read is sent. -/
lemma obeys_scanning (h : Obeys StopPhase.Allowed StopPhase.next .scanning post) :
    (ScanFails post ∧ (∀ y ∈ post, Command.isFetch y.command = false)
        ∧ watch StopPhase.next .scanning post = .halted)
      ∨ (¬ ScanFails post ∧ watch StopPhase.next .scanning post = .scanning)
      ∨ (¬ ScanFails post ∧ ∃ y ∈ post, Command.isFetch y.command = true) := by
  induction post with
  | nil =>
      refine Or.inr (Or.inl ⟨?_, rfl⟩)
      rintro ⟨ys, y, zs, heq, -⟩
      simp at heq
  | cons x post ih =>
      obtain ⟨hx, hrest⟩ := h
      cases hread : Command.isRead x.command with
      | true =>
          have hfetch : Command.isFetch x.command = true := by
            obtain ⟨c, s, r, s'⟩ := x
            cases c with
            | xreadgroup => rfl
            | xgroupCreate | xautoclaim | xpendingRange | xadd | xack | processMessage | acquire
            | sleep | gather => cases hread
          exact Or.inr (Or.inr ⟨not_scanFails_of_read hread, x, List.mem_cons_self .., hfetch⟩)
      | false =>
          have hfetch : Command.isFetch x.command = false := by
            cases hf : Command.isFetch x.command with
            | false => rfl
            | true =>
                have hr : Command.isRead x.command = true := hx hf
                rw [hread] at hr
                cases hr
          have hmem : ∀ {post}, (∀ y ∈ post, Command.isFetch y.command = false) →
              ∀ y ∈ x :: post, Command.isFetch y.command = false := by
            intro post hall y hy
            rcases List.mem_cons.mp hy with rfl | hy
            · exact hfetch
            · exact hall y hy
          rw [ScanFails.cons hread, watch_cons]
          cases hends : endsScan x.command x.answer with
          | true =>
              have hnext : StopPhase.scanning.next x.command x.answer = .halted := by
                simp [StopPhase.next, hread, hends]
              rw [hnext] at hrest ⊢
              obtain ⟨hall, hwatch⟩ := obeys_halted hrest
              exact Or.inl ⟨Or.inl rfl, hmem hall, hwatch⟩
          | false =>
              have hnext : StopPhase.scanning.next x.command x.answer = .scanning := by
                simp [StopPhase.next, hread, hends]
              rw [hnext] at hrest ⊢
              rcases ih hrest with ⟨hfails, hall, hwatch⟩ | ⟨hfails, hwatch⟩
                | ⟨hfails, y, hy, hyf⟩
              · exact Or.inl ⟨Or.inr hfails, hmem hall, hwatch⟩
              · exact Or.inr (Or.inl ⟨by simp [hfails], hwatch⟩)
              · exact Or.inr (Or.inr ⟨by simp [hfails], y, List.mem_cons_of_mem _ hy, hyf⟩)

lemma StopPhase.land_ahead {g g' : StopPhase} {c : Command} {r : Except Raised c.Answer}
    (h : g.land c r = some g') : g.ahead = true ∧ g'.ahead = false := by
  cases g with
  | creating =>
      rw [StopPhase.land] at h
      split at h
      · obtain rfl := Option.some.inj h
        exact ⟨rfl, rfl⟩
      · cases h
  | live afterRead =>
      rw [StopPhase.land] at h
      split at h
      · split at h
        · obtain rfl := Option.some.inj h
          exact ⟨rfl, rfl⟩
        · obtain rfl := Option.some.inj h
          exact ⟨rfl, rfl⟩
      · obtain rfl := Option.some.inj h
        exact ⟨rfl, rfl⟩
  | halted => cases h
  | scanning => cases h
  | overread => cases h

/-- Halted at the end: nothing was fetched, nothing will be, and the run ends. -/
lemma ends_halted {φ : Unit → StopPhase → Self → Prop} {ψ : Raised → StopPhase → Self → Prop}
    (hq : q.wp stopContract φ ψ .halted)
    (hall : ∀ y ∈ post, Command.isFetch y.command = false) :
    (∀ c ∈ commands post q, Command.isFetch c = false) ∧ q ≠ .spent := by
  refine ⟨fun c hc => ?_, ?_⟩
  · rcases List.mem_append.mp hc with hc | hc
    · obtain ⟨y, hy, rfl⟩ := List.mem_map.mp hc
      exact hall y hy
    · cases q with
      | done r s => simp at hc
      | spent => simp at hc
      | await c' s k =>
          obtain rfl : c = c' := by simpa using hc
          exact hq.1
  · rintro rfl
    cases hq

/-- A run does not end in a scan. -/
lemma not_ended_scanning {r : Except Raised Unit} {s : Self} :
    ¬ (Program.done r s : Program consumerSig Unit).wp stopContract (fun _ g s => g.Settled s)
      (fun _ g s => g.Settled s) .scanning := by
  intro h
  have hsettled : StopPhase.scanning.Settled s := by
    cases r with
    | ok a => exact h
    | error e => exact h
  rcases hsettled with ⟨_, hlive⟩ | ⟨hlive | hlive, -⟩
  · cases hlive
  · cases hlive
  · cases hlive

/-- Under the condition `P` nothing more is fetched and the run goes on to its end; and a run that
has ended has fetched nothing more under this condition only. -/
def HaltsUnder (post : List (Exchange consumerSig)) (q : Program consumerSig Unit) (P : Prop) :
    Prop :=
  (P → (∀ c ∈ commands post q, Command.isFetch c = false) ∧ q ≠ .spent)
    ∧ ∀ r s, q = .done (S := consumerSig) r s →
      ((∀ c ∈ commands post q, Command.isFetch c = false) ↔ P)

/-- `stop()` has halted the run. -/
lemma haltsUnder_halted {P : Prop} (hP : P)
    (hobeys : Obeys StopPhase.Allowed StopPhase.next .halted post)
    (hq : q.wp stopContract (fun _ g s => g.Settled s) (fun _ g s => g.Settled s)
      (watch StopPhase.next .halted post)) : HaltsUnder post q P := by
  obtain ⟨hall, hwatch⟩ := obeys_halted hobeys
  rw [hwatch] at hq
  have hend := ends_halted hq hall
  exact ⟨fun _ => hend, fun _ _ _ => iff_of_true hend.1 hP⟩

/-- Something was or will be fetched, or the run goes on beyond its unfolding. -/
lemma haltsUnder_fetches {P : Prop} (hP : ¬ P)
    (hfetches : q = .spent ∨ ∃ c ∈ commands post q, Command.isFetch c = true) :
    HaltsUnder post q P := by
  refine ⟨fun h => absurd h hP, fun r s hq => iff_of_false (fun hall => ?_) hP⟩
  rcases hfetches with rfl | ⟨c, hc, hfetch⟩
  · cases hq
  · rw [hall c hc] at hfetch
    cases hfetch

/-- `stop()` has come in a scan that goes on: it is obeyed if the scan fails. -/
lemma haltsUnder_scanning (hobeys : Obeys StopPhase.Allowed StopPhase.next .scanning post)
    (hq : q.wp stopContract (fun _ g s => g.Settled s) (fun _ g s => g.Settled s)
      (watch StopPhase.next .scanning post)) : HaltsUnder post q (ScanFails post) := by
  rcases obeys_scanning hobeys with ⟨hfails, hall, hwatch⟩ | ⟨hfails, hwatch⟩
    | ⟨hfails, y, hy, hfetch⟩
  · rw [hwatch] at hq
    have hend := ends_halted hq hall
    exact ⟨fun _ => hend, fun _ _ _ => iff_of_true hend.1 hfails⟩
  · refine ⟨fun h => absurd h hfails, fun r s hdone => ?_⟩
    subst hdone
    rw [hwatch] at hq
    exact absurd hq not_ended_scanning
  · have hy' : y.command ∈ commands post q := List.mem_append_left _ (List.mem_map_of_mem hy)
    exact haltsUnder_fetches hfails (Or.inr ⟨_, hy', hfetch⟩)

/-- What the phases say of the rest of a run, once `stop()` has landed in the phase `g`. -/
lemma land_stopped {φ : Unit → StopPhase → Self → Prop} {ψ : Raised → StopPhase → Self → Prop}
    {g' : StopPhase} {c : Command} {s₀ s₁ : Self} {r : Except Raised c.Answer}
    {k : Except Raised c.Answer → Self → Program consumerSig Unit}
    (hp : (Program.await (S := consumerSig) c s₀ k).wp stopContract φ ψ g)
    (hland : g.land c r = some g') (hstop : s₁.isRunning = false) (hpossible₀ : c.Possible r)
    (hrun : Run (k r s₁) post q)
    (hpossible : ∀ y ∈ post, Command.Possible y.command y.answer)
    (hstay : ∀ y ∈ post, y.before.isRunning = false → y.after.isRunning = false) :
    Obeys StopPhase.Allowed StopPhase.next g' post
      ∧ q.wp stopContract φ ψ (watch StopPhase.next g' post) := by
  obtain ⟨hahead, hdown⟩ := StopPhase.land_ahead hland
  have hk := hp.2 r g' s₁ ⟨hpossible₀, by rw [if_pos hahead]; exact Or.inr ⟨hstop, hland⟩⟩
  obtain ⟨hobeys, hq, -⟩ := run_stopped hdown hk hrun hpossible hstay
  exact ⟨hobeys, hq⟩

end Traces

section Obeyed

variable [StandardLibrary] (cfg : Config) (fuel : ℕ) (s : Self)
  {pre post : List (Exchange consumerSig)} {x : Exchange consumerSig}
  {q : Program consumerSig Unit}

/-- Once the group exists `run` raises the flag and scans: what `stop()` did meanwhile is lost. -/
lemma created_fetches (hrun : Run (run cfg fuel s) (x :: post) q)
    (hx : endsCreation x.answer = false) :
    q = .spent ∨ ∃ c ∈ commands post q, Command.isFetch c = true := by
  have hloop : ∀ s, Run ((do
      .modify fun self => { self with isRunning := true }
      writeLog .info noRequestId ("[Consumer] Starting " ++ cfg.consumerName ++ " listening to "
        ++ cfg.streamName ++ "...")
      runLoop cfg fuel ⟨0, none⟩ : Consumer Unit) s) post q →
      q = .spent ∨ ∃ c ∈ commands post q, Command.isFetch c = true := by
    intro s hrun
    cases fuel with
    | zero => exact Or.inl (run_spent_iff.mp hrun).2
    | succ fuel =>
        have hhead := hrun.head_commands
        exact Or.inr ⟨_, List.mem_of_head? hhead, rfl⟩
  obtain ⟨r, s', rfl, hnext⟩ := run_await_cons_iff.mp hrun
  cases r with
  | ok a => exact hloop _ hnext
  | error e =>
      cases e with
      | cancelled => cases hx
      | exception e =>
          have hbusy : e.cls = .responseError ∧ isBusyGroup e = true := by
            simpa [endsCreation] using hx
          dsimp only [Co.raise, Program.andThen] at hnext
          rw [if_pos hbusy] at hnext
          exact hloop _ hnext

/-- **Where `stop()` is obeyed.**  `stop()` is called during the await `x` of a run, and nobody
but `run` itself raises the flag.  If the call lands neither in the creation of the group nor in
a scan (or an error ends these), nothing is fetched after it and the run goes on to its end; and
a run that has ended has fetched nothing after it only in that case. -/
theorem stop_obeyed_iff (hrun : Run (run cfg fuel s) (pre ++ x :: post) q)
    (hpossible : ∀ y ∈ pre ++ x :: post, Command.Possible y.command y.answer)
    (hstop : x.after.isRunning = false)
    (hstay : ∀ y ∈ post, y.before.isRunning = false → y.after.isRunning = false) :
    (StopHeeded pre x post → (∀ c ∈ commands post q, Command.isFetch c = false) ∧ q ≠ .spent)
      ∧ ∀ r s', q = .done (S := consumerSig) r s' →
        ((∀ c ∈ commands post q, Command.isFetch c = false) ↔ StopHeeded pre x post) := by
  obtain ⟨p, hpre, hpost⟩ := run_append_iff.mp hrun
  have hp := Program.wp_run (run_phase cfg fuel s) hpre
    (admits_before pre fun y hy => hpossible y (List.mem_append_left _ hy))
  cases p with
  | done r s' => cases hpost
  | spent => cases hpost
  | await c s₀ k =>
      obtain ⟨r, s₁, rfl, hnext⟩ := run_await_cons_iff.mp hpost
      have hpossible₀ := hpossible _ (List.mem_append_right _ (List.mem_cons_self ..))
      have hpossible₁ : ∀ y ∈ post, Command.Possible y.command y.answer := fun y hy =>
        hpossible y (List.mem_append_right _ (List.mem_cons_of_mem _ hy))
      rw [phaseBefore_eq] at hp
      show HaltsUnder post q _
      by_cases hfirst : pre = []
      · -- in the creation of the group
        subst hfirst
        cases hends : endsCreation r with
        | true =>
            have hland : StopPhase.creating.land c r = some .halted := by
              simp [StopPhase.land, hends]
            obtain ⟨hobeys, hq⟩ := land_stopped hp hland hstop hpossible₀ hnext hpossible₁ hstay
            exact haltsUnder_halted ⟨fun _ => hends, fun h => absurd rfl h⟩ hobeys hq
        | false =>
            refine haltsUnder_fetches (fun h => ?_) (created_fetches cfg fuel s hrun hends)
            have hcreation := h.creation rfl
            rw [hends] at hcreation
            cases hcreation
      · rw [if_neg hfirst] at hp
        cases hscan : c.inScan (afterRead pre) with
        | false =>
            have hland : (StopPhase.live (afterRead pre)).land c r = some .halted := by
              simp [StopPhase.land, hscan]
            obtain ⟨hobeys, hq⟩ := land_stopped hp hland hstop hpossible₀ hnext hpossible₁ hstay
            refine haltsUnder_halted ⟨fun h => absurd h hfirst, fun _ h => ?_⟩ hobeys hq
            rw [hscan] at h
            cases h
        | true =>
            cases hends : endsScan c r with
            | true =>
                have hland : (StopPhase.live (afterRead pre)).land c r = some .halted := by
                  simp [StopPhase.land, hscan, hends]
                obtain ⟨hobeys, hq⟩ := land_stopped hp hland hstop hpossible₀ hnext hpossible₁ hstay
                exact haltsUnder_halted ⟨fun h => absurd h hfirst, fun _ _ => Or.inl hends⟩ hobeys
                  hq
            | false =>
                -- in a scan that goes on
                have hland : (StopPhase.live (afterRead pre)).land c r = some .scanning := by
                  simp [StopPhase.land, hscan, hends]
                obtain ⟨hobeys, hq⟩ := land_stopped hp hland hstop hpossible₀ hnext hpossible₁ hstay
                have hheeded : StopHeeded pre ⟨c, s₀, r, s₁⟩ post ↔ ScanFails post := by
                  constructor
                  · intro h
                    exact (h.scan hfirst hscan).resolve_left (by simp [hends])
                  · exact fun h => ⟨fun h => absurd h hfirst, fun _ _ => Or.inr h⟩
                rw [hheeded]
                exact haltsUnder_scanning hobeys hq

end Obeyed

section Solo

attribute [local instance] plainLibrary

/-- `stop()` in an `XREADGROUP`: the run ends without another one. -/
theorem stop_obeyed_reading : ∃ tr x r s',
    Run (run soloConfig 2 (Self.init soloConfig 0)) (tr ++ [x]) (.done (S := consumerSig) r s')
      ∧ x.command.isRead ∧ x.after.isRunning = false ∧ StopHeeded tr x [] := by
  let s := Self.init soloConfig 0
  let up : Self := { s with isRunning := true }
  have hrun : ∃ s₁ s₂ r s', Run (run soloConfig 2 s)
      ([⟨Command.xgroupCreate "events" "users" "0" true, s, .ok (), s⟩,
        ⟨Command.xautoclaim "events" "users" "worker" 120000 .zero 10, s₁, .ok (.zero, []), up⟩]
        ++ [⟨Command.xreadgroup "users" "worker" "events" 10 5000, s₂, .ok [], s⟩])
      (.done (S := consumerSig) r s') :=
    ⟨_, _, _, _, .cons _ _ (.cons _ _ (.cons _ _ (.nil _)))⟩
  obtain ⟨s₁, s₂, r, s', hrun⟩ := hrun
  refine ⟨_, _, r, s', hrun, rfl, rfl, ?_⟩
  refine ((stop_obeyed_iff soloConfig 2 s hrun ?_ rfl (by simp)).2 r s' rfl).mp ?_
  · simp [Command.Possible]
  · simp [commands]

/-- `stop()` while the group is being created, and `stop()` in a reclaim scan: in both cases the
consumer fetches once more, and it is the run of a consumer that was told to stop. -/
theorem stop_overlooked :
    (∃ x q, Run (run soloConfig 2 (Self.init soloConfig 0)) [x] q
      ∧ x.command.isCreate ∧ x.after.isRunning = false
      ∧ ∃ c, q.command? = some c ∧ Command.isFetch c = true)
    ∧ ∃ y x q, Run (run soloConfig 2 (Self.init soloConfig 0)) [y, x] q
      ∧ x.command.inScan false ∧ x.before.isRunning = true ∧ x.after.isRunning = false
      ∧ ∃ c, q.command? = some c ∧ Command.isFetch c = true := by
  let s := Self.init soloConfig 0
  refine ⟨⟨⟨Command.xgroupCreate "events" "users" "0" true, s, .ok (), s⟩, _,
      .cons _ _ (.nil _), rfl, rfl, _, rfl, rfl⟩,
    ⟨Command.xgroupCreate "events" "users" "0" true, s, .ok (), s⟩,
      ⟨Command.xautoclaim "events" "users" "worker" 120000 .zero 10, _, .ok (.zero, []), s⟩, _,
      .cons _ _ (.cons _ _ (.nil _)), rfl, rfl, rfl, _, rfl, rfl⟩

end Solo

end Atsig
