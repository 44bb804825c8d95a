import AtsigCommon.Redis.Group
import AtsigCommon.Redis.Rules
import Mathlib.Data.Finset.Card
import Mathlib.Data.Prod.Lex

/-!
# The scan of `_reclaim_pending`

`_reclaim_pending` calls `XAUTOCLAIM` again and again, each time from the cursor that the last call
gave, until the cursor is `0-0` or does not move.  Between two calls anything may happen to the
pending entries: the batch is handled, other consumers claim and ACK, new entries become pending.

`Pel` is what Redis holds when it executes a call, and `Pel.Claims` what `XAUTOCLAIM` does with it.
A `ScanMoment` is an await of the scan with the pending entries at that moment.

* `spans_cursor` — the calls partition the ids: what a call goes over lies before the cursor it
  gives, and the next call starts there.
* `ScanState` — the invariant at the head of the loop, with the number of entries that may still
  become pending behind the cursor as the measure.
* `reclaim_scan_exact` — the scan ends, hands no entry to a handler twice, and takes every entry
  that is pending and idle when the scan goes over it.
-/

namespace Atsig

open Coroutine Python

/-! ## Ids in order -/

/-- Stream ids are ordered by time, then by sequence number. -/
def EntryId.key (e : EntryId) : ℕ ×ₗ ℕ := toLex (e.ms, e.seq)

lemma EntryId.zero_key_le (e : EntryId) : EntryId.zero.key ≤ e.key := by
  rw [EntryId.key, EntryId.key, Prod.Lex.toLex_le_toLex]
  rcases Nat.eq_zero_or_pos e.ms with h | h
  · exact Or.inr ⟨h.symm, Nat.zero_le _⟩
  · exact Or.inl h

/-- The ids that a call goes over: from its start to the cursor it gives, or to the end. -/
def Spans (startId nextId e : EntryId) : Prop :=
  startId.key ≤ e.key ∧ (nextId = .zero ∨ e.key < nextId.key)

instance (startId nextId e : EntryId) : Decidable (Spans startId nextId e) :=
  inferInstanceAs (Decidable (_ ∧ _))

/-- What a call goes over lies before the cursor that it gives. -/
lemma spans_cursor {startId nextId e : EntryId} (hnext : nextId ≠ .zero) :
    Spans startId nextId e ↔ startId.key ≤ e.key ∧ e.key < nextId.key := by
  simp only [Spans, hnext, false_or]

/-! ## The pending entries at a moment -/

/-- The pending entries of the group, and for how long each has been idle. -/
structure Pel where
  pending : Finset EntryId
  idle : EntryId → ℕ

/-- `XAUTOCLAIM` from `startId`: it goes over pending entries in the order of their ids, gives those
that are idle long enough, and the first pending id that it did not get to; with a `count` of at
least one it gets to one entry at least. -/
structure Pel.Claims (pel : Pel) (minIdleTime : ℕ) (startId : EntryId) (count : ℕ)
    (nextId : EntryId) (claimed : List (EntryId × Option Fields)) : Prop where
  sorted : (claimed.map fun m => m.1.key).Pairwise (· < ·)
  mem_iff : ∀ e, e ∈ claimed.map Prod.fst
    ↔ e ∈ pel.pending ∧ Spans startId nextId e ∧ minIdleTime ≤ pel.idle e
  length_le : claimed.length ≤ count
  cursor : nextId ≠ .zero → nextId ∈ pel.pending
  progress : 1 ≤ count → nextId ≠ .zero → ∃ e ∈ pel.pending, Spans startId nextId e

lemma Pel.Claims.nodup {pel : Pel} {minIdleTime count : ℕ} {startId nextId : EntryId}
    {claimed : List (EntryId × Option Fields)}
    (h : pel.Claims minIdleTime startId count nextId claimed) :
    (claimed.map Prod.fst).Nodup := by
  refine List.Nodup.of_map EntryId.key ?_
  rw [List.map_map]
  exact h.sorted.imp ne_of_lt

/-- The cursor moves forward. -/
lemma Pel.Claims.key_lt {pel : Pel} {minIdleTime count : ℕ} {startId nextId : EntryId}
    {claimed : List (EntryId × Option Fields)}
    (h : pel.Claims minIdleTime startId count nextId claimed) (hcount : 1 ≤ count)
    (hnext : nextId ≠ .zero) : startId.key < nextId.key := by
  obtain ⟨e, -, hspans⟩ := h.progress hcount hnext
  rw [spans_cursor hnext] at hspans
  exact lt_of_le_of_lt hspans.1 hspans.2

/-- How Redis answers the calls of a scan of which no `XAUTOCLAIM` and no `XACK` fails. -/
def Pel.Answers (pel : Pel) : (c : Command) → Except Raised c.Answer → Prop
  | .xautoclaim _ _ _ minIdleTime startId count, .ok (nextId, claimed) =>
      pel.Claims minIdleTime startId count nextId claimed
  | .xpendingRange .., r => r ≠ .error .cancelled
  | _, .ok _ => True
  | _, .error _ => False

/-- An await of the scan, with the pending entries at that moment. -/
abbrev ScanMoment := Moment consumerSig Pel

/-- The scan goes on undisturbed: Redis answers, nobody calls `stop()`, and only entries of `ever`
become pending. -/
structure Undisturbed (ever : Finset EntryId) (m : ScanMoment) : Prop where
  answers : m.world.Answers m.exchange.command m.exchange.answer
  running : m.exchange.after.isRunning
  pending : m.world.pending ⊆ ever

/-- The call of the moment is an `XAUTOCLAIM` that goes over `e`. -/
def GoesOver (m : ScanMoment) (e : EntryId) : Prop :=
  match m.exchange.command, m.exchange.answer with
  | .xautoclaim _ _ _ _ startId _, .ok (nextId, _) => Spans startId nextId e
  | _, _ => False

/-! ## What a scan has done -/

/-- The entries that a call gives to the scan. -/
def claimedOf : (c : Command) → Except Raised c.Answer → List (EntryId × Option Fields)
  | .xautoclaim .., .ok (_, claimed) => claimed
  | _, _ => []

/-- The entries that a command hands to handlers. -/
def Command.handlerIds : Command → List EntryId
  | .gather jobs => jobs.map Job.messageId
  | _ => []

/-- The entry that a command ACKs. -/
def Command.ackIds : Command → List EntryId
  | .xack _ _ e => [e]
  | _ => []

/-- The entries of a batch that still have their fields. -/
def keptIds (claimed : List (EntryId × Option Fields)) : List EntryId :=
  (claimed.filter fun m => m.2.isSome).map Prod.fst

/-- The entries of a batch that were trimmed. -/
def trimmedIds (claimed : List (EntryId × Option Fields)) : List EntryId :=
  (claimed.filter fun m => m.2.isNone).map Prod.fst

/-- The entries that the calls of a log gave. -/
def taken (log : List ScanMoment) : List (EntryId × Option Fields) :=
  log.flatMap fun m => claimedOf m.exchange.command m.exchange.answer

/-- The entries that a log handed to handlers. -/
def handlerIds (log : List ScanMoment) : List EntryId :=
  log.flatMap fun m => m.exchange.command.handlerIds

/-- The entries that a log ACKed. -/
def ackIds (log : List ScanMoment) : List EntryId :=
  log.flatMap fun m => m.exchange.command.ackIds

section Lists

variable (log new : List ScanMoment) (m : ScanMoment)
  (claimed claimed' : List (EntryId × Option Fields))

@[simp] lemma taken_append : taken (log ++ new) = taken log ++ taken new := List.flatMap_append

@[simp] lemma handlerIds_append : handlerIds (log ++ new) = handlerIds log ++ handlerIds new :=
  List.flatMap_append

@[simp] lemma ackIds_append : ackIds (log ++ new) = ackIds log ++ ackIds new :=
  List.flatMap_append

@[simp] lemma taken_singleton : taken [m] = claimedOf m.exchange.command m.exchange.answer :=
  List.flatMap_singleton ..

@[simp] lemma handlerIds_singleton : handlerIds [m] = m.exchange.command.handlerIds :=
  List.flatMap_singleton ..

@[simp] lemma ackIds_singleton : ackIds [m] = m.exchange.command.ackIds :=
  List.flatMap_singleton ..

@[simp] lemma keptIds_append :
    keptIds (claimed ++ claimed') = keptIds claimed ++ keptIds claimed' := by
  rw [keptIds, List.filter_append, List.map_append, keptIds, keptIds]

@[simp] lemma trimmedIds_append :
    trimmedIds (claimed ++ claimed') = trimmedIds claimed ++ trimmedIds claimed' := by
  rw [trimmedIds, List.filter_append, List.map_append, trimmedIds, trimmedIds]

lemma keptIds_sublist : (keptIds claimed).Sublist (claimed.map Prod.fst) :=
  List.filter_sublist.map _

end Lists

/-! ## The contract of a scan -/

/-- No entry is handed to a handler that was handed to one before. -/
def HandsOnce (log : List ScanMoment) (c : Command) : Prop :=
  ∀ jobs, c = .gather jobs → (handlerIds log ++ jobs.map Job.messageId).Nodup

/-- The contract of a scan that nobody disturbs. -/
abbrev scanContract (ever : Finset EntryId) : Contract consumerSig (List ScanMoment) :=
  .logged HandsOnce (Undisturbed ever)

/-- What a scan that has gone over the ids before `bound` has done. -/
structure ScannedTo (cfg : Config) (log : List ScanMoment) (bound : EntryId → Prop) : Prop where
  /-- The entries that still had their fields went to handlers, in the order they were given. -/
  handed : handlerIds log = keptIds (taken log)
  /-- The trimmed ones were ACKed. -/
  acked : ackIds log = trimmedIds (taken log)
  /-- No entry was given twice. -/
  nodup : ((taken log).map Prod.fst).Nodup
  /-- Every id before the bound was gone over by some call, which gave it if it was pending and
  idle for long enough at that moment. -/
  complete : ∀ e, bound e → ∃ m ∈ log, GoesOver m e
    ∧ (e ∈ m.world.pending → cfg.reclaimIdleMs ≤ m.world.idle e → e ∈ (taken log).map Prod.fst)

/-- The whole scan. -/
abbrev Scanned (cfg : Config) (log : List ScanMoment) : Prop := ScannedTo cfg log fun _ => True

/-- The invariant at the head of the loop: the entries taken lie before the cursor, and the fuel
that is left exceeds the number of entries that can still be found from the cursor on. -/
structure ScanState (cfg : Config) (ever : Finset EntryId) (fuel : ℕ) (startId : EntryId)
    (reclaimed : ℕ) (log : List ScanMoment) : Prop where
  scanned : ScannedTo cfg log fun e => e.key < startId.key
  count : reclaimed = (taken log).length
  behind : ∀ e ∈ (taken log).map Prod.fst, e.key < startId.key
  fuel : (ever.filter fun e => startId.key ≤ e.key).card < fuel

section Scan

variable {cfg : Config} {ever : Finset EntryId}

/-- The rule of the await for a scan: the log grows by the moment of the answer. -/
lemma send_scan {c : Command} {φ : c.Answer → List ScanMoment → Self → Prop}
    {ψ : Raised → List ScanMoment → Self → Prop} {log : List ScanMoment} {s : Self}
    (hmay : HandsOnce log c)
    (hok : ∀ (pel : Pel) (a : c.Answer) (s' : Self), pel.Answers c (.ok a) → pel.pending ⊆ ever →
      s'.isRunning → φ a (log ++ [⟨pel, ⟨c, s, .ok a, s'⟩⟩]) s')
    (herr : ∀ (pel : Pel) (e : Raised) (s' : Self), pel.Answers c (.error e) → s'.isRunning →
      ψ e (log ++ [⟨pel, ⟨c, s, .error e, s'⟩⟩]) s') :
    (send c).wp (scanContract ever) φ ψ log s := by
  refine send_wp hmay (fun a log' s' henv => ?_) (fun e log' s' henv => ?_)
  · obtain ⟨pel, hfaithful, rfl⟩ := henv
    exact hok pel a s' hfaithful.answers hfaithful.pending hfaithful.running
  · obtain ⟨pel, hfaithful, rfl⟩ := henv
    exact herr pel e s' hfaithful.answers hfaithful.running

/-- `_delivery_count` never fails here, and takes, hands on and ACKs nothing. -/
lemma deliveryCount_scan (messageId : EntryId) {log : List ScanMoment} {s : Self}
    {φ : Option ℕ → List ScanMoment → Self → Prop}
    (h : ∀ deliveries new s', taken new = [] → handlerIds new = [] → ackIds new = [] →
      s'.isRunning → φ deliveries (log ++ new) s') :
    (deliveryCount cfg messageId).wp (scanContract ever) φ (fun _ _ _ => False) log s := by
  rw [deliveryCount, wp_exceptException, Co.wp_bind]
  refine send_scan nofun (fun pel rows s' _ _ hs => ?_) (fun pel e s' hanswers hs => ?_)
  · exact h rows.head? _ s' rfl rfl rfl hs
  · cases e with
    | cancelled => exact absurd rfl hanswers
    | exception e => exact h none _ s' rfl rfl rfl hs

/-- The loop of `_handle_reclaimed`: every entry gets a job, or an ACK when it was trimmed. -/
lemma reclaimTasks_scan : ∀ (claimed : List (EntryId × Option Fields)) (log : List ScanMoment)
    (s : Self), s.isRunning →
    (reclaimTasks cfg claimed).wp (scanContract ever)
      (fun tasks log' s' => s'.isRunning ∧ ∃ new, log' = log ++ new
        ∧ taken new = [] ∧ handlerIds new = []
        ∧ tasks.map Job.messageId = keptIds claimed ∧ ackIds new = trimmedIds claimed)
      (fun _ _ _ => False) log s
  | [], log, s, hs => ⟨hs, [], (List.append_nil log).symm, rfl, rfl, rfl, rfl⟩
  | (messageId, none) :: claimed, log, s, hs => by
      rw [reclaimTasks, Co.wp_bind]
      refine send_scan nofun (fun pel a s' _ _ hs' => ?_) (fun _ _ _ h _ => h)
      refine Co.wp_mono (reclaimTasks_scan claimed _ s' hs') ?_ (fun _ _ _ h => h)
      rintro tasks log' s'' ⟨hs'', new, rfl, htaken, hhanded, hkept, htrimmed⟩
      exact ⟨hs'', _ :: new, List.append_assoc .., htaken, hhanded, hkept,
        congrArg (messageId :: ·) htrimmed⟩
  | (messageId, some fields) :: claimed, log, s, hs => by
      rw [reclaimTasks, Co.wp_bind]
      refine deliveryCount_scan messageId fun deliveries first s' htaken hhanded hacked hs' => ?_
      rw [Co.wp_bind]
      refine Co.wp_mono (reclaimTasks_scan claimed _ s' hs') ?_ (fun _ _ _ h => h)
      rintro tasks log' s'' ⟨hs'', new, rfl, htaken', hhanded', hkept, htrimmed⟩
      refine ⟨hs'', first ++ new, List.append_assoc .., ?_, ?_, ?_, ?_⟩
      · rw [taken_append, htaken, htaken', List.append_nil]
      · rw [handlerIds_append, hhanded, hhanded', List.append_nil]
      · rw [List.map_cons, reclaimJob_messageId, hkept]
        rfl
      · rw [ackIds_append, hacked, htrimmed]
        rfl

/-- `if claimed:` — the entries that still have their fields go to handlers, the trimmed ones are
ACKed. -/
lemma takeOver_scan {claimed : List (EntryId × Option Fields)} {log : List ScanMoment} {s : Self}
    (hs : s.isRunning) (hnodup : (handlerIds log ++ claimed.map Prod.fst).Nodup) :
    (takeOver cfg claimed).wp (scanContract ever)
      (fun _ log' s' => s'.isRunning ∧ ∃ new, log' = log ++ new ∧ taken new = []
        ∧ handlerIds new = keptIds claimed ∧ ackIds new = trimmedIds claimed)
      (fun _ _ _ => False) log s := by
  rw [takeOver]
  split
  · have hnil : claimed = [] := List.isEmpty_iff.mp ‹_›
    subst hnil
    exact ⟨hs, [], (List.append_nil log).symm, rfl, rfl, rfl⟩
  · rw [Co.wp_bind, wp_writeLog, handleReclaimed, Co.wp_bind]
    refine Co.wp_mono (reclaimTasks_scan claimed log _ hs) ?_ (fun _ _ _ h => h)
    rintro tasks log' s' ⟨hs', new, rfl, htaken, hhanded, hkept, htrimmed⟩
    rw [gatherTasks]
    split
    · have hnil : tasks = [] := List.isEmpty_iff.mp ‹_›
      subst hnil
      exact ⟨hs', new, rfl, htaken, hhanded.trans hkept, htrimmed⟩
    · refine send_scan ?_ (fun pel a s'' _ _ hs'' => ?_) (fun _ _ _ h _ => h)
      · intro jobs hjobs
        obtain rfl : tasks = jobs := by injection hjobs
        rw [handlerIds_append, hhanded, List.append_nil, hkept]
        exact hnodup.sublist ((List.Sublist.refl _).append (keptIds_sublist claimed))
      · refine ⟨hs'', new ++ [_], List.append_assoc .., ?_, ?_, ?_⟩
        · rw [taken_append, htaken, taken_singleton]
          rfl
        · rw [handlerIds_append, hhanded, handlerIds_singleton]
          exact hkept
        · rw [ackIds_append, htrimmed, ackIds_singleton]
          exact List.append_nil _

/-- What a call from the cursor gives was not given before. -/
lemma ScanState.disjoint {fuel reclaimed : ℕ} {pel : Pel} {startId nextId : EntryId}
    {claimed : List (EntryId × Option Fields)} {log : List ScanMoment}
    (h : ScanState cfg ever fuel startId reclaimed log)
    (hclaims : pel.Claims cfg.reclaimIdleMs startId cfg.batchSize nextId claimed) :
    ((taken log).map Prod.fst).Disjoint (claimed.map Prod.fst) := by
  intro e he he'
  have hspans := ((hclaims.mem_iff e).mp he').2.1
  exact absurd (h.behind e he) (not_lt.mpr hspans.1)

/-- The moment in which Redis answers the call of a pass. -/
abbrev claimMoment (cfg : Config) (pel : Pel) (startId nextId : EntryId)
    (claimed : List (EntryId × Option Fields)) (s s' : Self) : ScanMoment :=
  ⟨pel, ⟨.xautoclaim cfg.streamName cfg.groupName cfg.consumerName cfg.reclaimIdleMs startId
    cfg.batchSize, s, .ok (nextId, claimed), s'⟩⟩

/-- One pass of the loop: the batch is taken over, and the scan has gone over everything before
the cursor that the call gave. -/
lemma ScanState.pass {fuel reclaimed : ℕ} {pel : Pel} {startId nextId : EntryId}
    {claimed : List (EntryId × Option Fields)} {s s' : Self} {log new : List ScanMoment}
    (h : ScanState cfg ever fuel startId reclaimed log)
    (hclaims : pel.Claims cfg.reclaimIdleMs startId cfg.batchSize nextId claimed)
    (hhanded : handlerIds new = keptIds claimed) (hacked : ackIds new = trimmedIds claimed)
    (heq : taken (log ++ [claimMoment cfg pel startId nextId claimed s s'] ++ new)
      = taken log ++ claimed) :
    ScannedTo cfg (log ++ [claimMoment cfg pel startId nextId claimed s s'] ++ new)
      fun e => nextId = .zero ∨ e.key < nextId.key := by
  refine ⟨?_, ?_, ?_, ?_⟩
  · rw [heq, keptIds_append, handlerIds_append, handlerIds_append, h.scanned.handed, hhanded]
    exact congrArg (· ++ keptIds claimed) (List.append_nil _)
  · rw [heq, trimmedIds_append, ackIds_append, ackIds_append, h.scanned.acked, hacked]
    exact congrArg (· ++ trimmedIds claimed) (List.append_nil _)
  · rw [heq, List.map_append]
    exact h.scanned.nodup.append hclaims.nodup (h.disjoint hclaims)
  · intro e he
    rw [heq, List.map_append]
    by_cases hstart : e.key < startId.key
    · obtain ⟨m', hm', hover, hgiven⟩ := h.scanned.complete e hstart
      refine ⟨m', by simp [hm'], hover, fun hpending hidle => ?_⟩
      exact List.mem_append_left _ (hgiven hpending hidle)
    · have hspans : Spans startId nextId e := ⟨not_lt.mp hstart, he⟩
      refine ⟨claimMoment cfg pel startId nextId claimed s s', by simp, hspans, ?_⟩
      intro hpending hidle
      exact List.mem_append_right _ ((hclaims.mem_iff e).mpr ⟨hpending, hspans, hidle⟩)

/-- Behind the cursor there are fewer entries than before. -/
lemma card_behind_lt {startId nextId : EntryId} (hkey : startId.key < nextId.key) {e : EntryId}
    (he : e ∈ ever) (hspans : startId.key ≤ e.key ∧ e.key < nextId.key) :
    (ever.filter fun e => nextId.key ≤ e.key).card
      < (ever.filter fun e => startId.key ≤ e.key).card := by
  refine Finset.card_lt_card (Finset.ssubset_iff_of_subset ?_ |>.mpr ⟨e, ?_, ?_⟩)
  · intro e' he'
    rw [Finset.mem_filter] at he' ⊢
    exact ⟨he'.1, hkey.le.trans he'.2⟩
  · exact Finset.mem_filter.mpr ⟨he, hspans.1⟩
  · intro he'
    exact absurd (Finset.mem_filter.mp he').2 (not_le.mpr hspans.2)

/-- **The loop.**  From a state of the invariant the scan ends, having gone over everything; the
induction is on the fuel, which the entries ahead of the cursor never use up. -/
lemma reclaimPending_scan (hbatch : 1 ≤ cfg.batchSize) : ∀ (fuel : ℕ) (startId : EntryId)
    (reclaimed : ℕ) (log : List ScanMoment) (s : Self), s.isRunning →
    ScanState cfg ever fuel startId reclaimed log →
    (reclaimPending cfg fuel startId reclaimed).wp (scanContract ever)
      (fun n log' _ => n = (taken log').length ∧ Scanned cfg log') (fun _ _ _ => False) log s
  | 0, _, _, _, _, _, h => absurd h.fuel (Nat.not_lt_zero _)
  | fuel + 1, startId, reclaimed, log, s, hs, h => by
      rw [reclaimPending, Co.wp_bind, Co.wp_get]
      dsimp only
      rw [if_pos hs, Co.wp_bind]
      refine send_scan nofun (fun pel answer s' hclaims hpending hs' => ?_) (fun _ _ _ h _ => h)
      obtain ⟨nextId, claimed⟩ := answer
      rw [Co.wp_bind]
      have hnodup : (handlerIds (log ++ [claimMoment cfg pel startId nextId claimed s s'])
          ++ claimed.map Prod.fst).Nodup := by
        have hclaim : handlerIds [claimMoment cfg pel startId nextId claimed s s'] = [] := rfl
        rw [handlerIds_append, hclaim, h.scanned.handed, List.append_nil]
        refine (h.scanned.nodup.sublist (keptIds_sublist _)).append hclaims.nodup ?_
        exact List.disjoint_of_subset_left (keptIds_sublist _).subset (h.disjoint hclaims)
      refine Co.wp_mono (takeOver_scan hs' hnodup) ?_ (fun _ _ _ h => h)
      rintro _ log' s'' ⟨hs'', new, rfl, htaken, hhanded, hacked⟩
      have heq : taken (log ++ [claimMoment cfg pel startId nextId claimed s s'] ++ new)
          = taken log ++ claimed := by
        rw [taken_append, taken_append, taken_singleton, htaken, List.append_nil]
        rfl
      have hcount : reclaimed + claimed.length
          = (taken (log ++ [claimMoment cfg pel startId nextId claimed s s'] ++ new)).length := by
        rw [heq, List.length_append, h.count]
      have hscanned := h.pass hclaims hhanded hacked heq
      dsimp only
      split
      · rename_i hend
        have hzero : nextId = .zero := by
          by_contra hnext
          have hkey := hclaims.key_lt hbatch hnext
          rw [hend.resolve_left hnext] at hkey
          exact lt_irrefl _ hkey
        exact ⟨hcount, hscanned.handed, hscanned.acked, hscanned.nodup,
          fun e _ => hscanned.complete e (Or.inl hzero)⟩
      · rename_i hend
        have hnext : nextId ≠ .zero := fun hzero => hend (Or.inl hzero)
        refine reclaimPending_scan hbatch fuel nextId _ _ s'' hs'' ⟨?_, hcount, ?_, ?_⟩
        · exact ⟨hscanned.handed, hscanned.acked, hscanned.nodup,
            fun e he => hscanned.complete e (Or.inr he)⟩
        · intro e he
          rw [heq, List.map_append, List.mem_append] at he
          rcases he with he | he
          · exact (h.behind e he).trans (hclaims.key_lt hbatch hnext)
          · have hspans := ((hclaims.mem_iff e).mp he).2.1
            exact ((spans_cursor hnext).mp hspans).2
        · obtain ⟨e, he, hspans⟩ := hclaims.progress hbatch hnext
          have hlt := card_behind_lt (hclaims.key_lt hbatch hnext) (hpending he)
            ((spans_cursor hnext).mp hspans)
          have hfuel := h.fuel
          omega

/-- Before the first call nothing is behind the cursor. -/
lemma ScanState.init {fuel : ℕ} (hfuel : ever.card < fuel) :
    ScanState cfg ever fuel .zero 0 [] where
  scanned := ⟨rfl, rfl, List.nodup_nil,
    fun e he => absurd he (not_lt.mpr (EntryId.zero_key_le e))⟩
  count := rfl
  behind := by
    intro e he
    cases he
  fuel := lt_of_le_of_lt (Finset.card_filter_le _ _) hfuel

lemma HandsOnce.nodup {log : List ScanMoment} {c : Command} (h : HandsOnce log c)
    (hlog : (handlerIds log).Nodup) : (handlerIds log ++ c.handlerIds).Nodup := by
  cases c with
  | gather jobs => exact h jobs rfl
  | xgroupCreate | xreadgroup | xautoclaim | xpendingRange | xadd | xack | processMessage | acquire
    | sleep =>
      show (handlerIds log ++ []).Nodup
      rw [List.append_nil]
      exact hlog

/-- The handlers of a log, when no command of it hands on an entry again. -/
lemma handlerIds_nodup {log : List ScanMoment}
    (h : ∀ pre m post, log = pre ++ m :: post → HandsOnce pre m.exchange.command) :
    (handlerIds log).Nodup := by
  induction log using List.reverseRecOn with
  | nil => exact List.nodup_nil
  | append_singleton log m ih =>
      have hlog := ih fun pre m' post heq => h pre m' (post ++ [m]) (by simp [heq])
      rw [handlerIds_append, handlerIds_singleton]
      exact (h log m [] rfl).nodup hlog

/-- **A reclaim scan is complete and takes each entry once.**  Whatever happens to the pending
entries between two calls, as long as the ones that ever become pending are finitely many: the
scan never outruns a fuel above their number, no entry is handed to a handler twice, and when the
scan ends, its result is the number of entries taken and it has gone over every id. -/
theorem reclaim_scan_exact (cfg : Config) (ever : Finset EntryId) (fuel : ℕ) (s : Self)
    (ms : List ScanMoment) (q : Program consumerSig ℕ) (hbatch : 1 ≤ cfg.batchSize)
    (hfuel : ever.card < fuel) (hs : s.isRunning) (hms : ∀ m ∈ ms, Undisturbed ever m)
    (hrun : Run (reclaimPending cfg fuel .zero 0 s) (ms.map Moment.exchange) q) :
    q ≠ .spent
      ∧ ((commands (ms.map Moment.exchange) q).flatMap Command.handlerIds).Nodup
      ∧ ∀ r s', q = .done r s' → r = .ok (taken ms).length ∧ Scanned cfg ms := by
  have hwp : (reclaimPending cfg fuel .zero 0 s).wp (scanContract ever)
      (fun n log' _ => n = (taken log').length ∧ Scanned cfg log') (fun _ _ _ => False) [] :=
    reclaimPending_scan hbatch fuel .zero 0 [] s hs (.init hfuel)
  have hq := Program.wp_log hwp hrun hms
  have hnodup : (handlerIds ms).Nodup := handlerIds_nodup fun pre m post heq => by
    subst heq
    exact Program.wp_log_may hwp hrun hms
  refine ⟨?_, ?_, ?_⟩
  · rintro rfl
    exact hq
  · rw [commands, List.flatMap_append, List.flatMap_map, List.flatMap_map]
    cases q with
    | done r s' =>
        rw [Program.command?_done, Option.toList_none, List.flatMap_nil, List.append_nil]
        exact hnodup
    | spent => exact hq.elim
    | await c s' k =>
        rw [Program.command?_await, Option.toList_some, List.flatMap_singleton]
        exact hq.1.nodup hnodup
  · rintro r s' rfl
    cases r with
    | ok n => exact ⟨congrArg Except.ok hq.1, hq.2⟩
    | error e => exact hq.elim

end Scan

/-! ## The cursor on the wire

The model's cursors are ids; the source compares texts, which are `str` or `bytes` as the client
is configured, the first one always being `str`.
-/

/-- An id as a client gives it. -/
def EntryId.wire (asBytes : Bool) (e : EntryId) : Text :=
  if asBytes then .bytes (toString e).toUTF8 else .str (toString e)

/-- `next_id in ("0-0", b"0-0") or next_id == start_id` -/
def cursorEnds (nextId startId : Text) : Prop :=
  (nextId = .str "0-0" ∨ nextId = .bytes "0-0".toUTF8) ∨ nextId = startId

lemma toDigits_injective : Function.Injective (Nat.toDigits 10) := by
  intro m n h
  rw [← Nat.ofDigitChars_ten_toDigits (n := m), h, Nat.ofDigitChars_ten_toDigits]

/-- The two parts of an id can be told apart: no digit is a hyphen. -/
lemma EntryId.toString_injective : Function.Injective (toString : EntryId → String) := by
  intro a b h
  have hdigits : ∀ n, ∀ c ∈ Nat.toDigits 10 n, c.isDigit := fun n c hc =>
    Nat.isDigit_of_mem_toDigits (by decide) (by decide) hc
  have hparts : ∀ m n, ((Nat.toDigits 10 m ++ '-' :: Nat.toDigits 10 n).takeWhile Char.isDigit,
      (Nat.toDigits 10 m ++ '-' :: Nat.toDigits 10 n).dropWhile Char.isDigit)
      = (Nat.toDigits 10 m, '-' :: Nat.toDigits 10 n) := by
    intro m n
    rw [List.takeWhile_append_of_pos (hdigits m), List.dropWhile_append_of_pos (hdigits m)]
    simp
  have hlist : Nat.toDigits 10 a.ms ++ '-' :: Nat.toDigits 10 a.seq
      = Nat.toDigits 10 b.ms ++ '-' :: Nat.toDigits 10 b.seq := by
    have := congrArg String.toList h
    simpa [toString, Nat.toList_repr] using this
  have hpair := hparts a.ms a.seq
  rw [hlist, hparts b.ms b.seq, Prod.mk.injEq, List.cons.injEq] at hpair
  obtain ⟨hms, -, hseq⟩ := hpair
  cases a
  cases b
  rw [EntryId.mk.injEq]
  exact ⟨(toDigits_injective hms).symm, (toDigits_injective hseq).symm⟩

lemma EntryId.wire_injective (asBytes : Bool) : Function.Injective (EntryId.wire asBytes) := by
  intro a b h
  cases asBytes with
  | false => exact EntryId.toString_injective (Text.str.inj h)
  | true =>
      have hbytes := Text.bytes.inj h
      exact EntryId.toString_injective (String.toByteArray_inj.mp hbytes)

/-- **The exit test of the source is the test on ids**, in either form, also at the first call,
whose `start_id` is a `str` whatever the client gives. -/
theorem cursorEnds_wire (asBytes : Bool) (nextId startId : EntryId) {startText : Text}
    (hstart : startText = startId.wire asBytes
      ∨ (startId = .zero ∧ startText = EntryId.zero.wire false)) :
    cursorEnds (nextId.wire asBytes) startText ↔ nextId = .zero ∨ nextId = startId := by
  have hzero : nextId.wire asBytes = .str "0-0" ∨ nextId.wire asBytes = .bytes "0-0".toUTF8
      ↔ nextId = .zero := by
    have hwire : EntryId.zero.wire asBytes
        = if asBytes then .bytes "0-0".toUTF8 else .str "0-0" := by
      with_unfolding_all rfl
    rw [← (EntryId.wire_injective asBytes).eq_iff, hwire]
    cases asBytes with
    | false => exact or_iff_left nofun
    | true => exact or_iff_right nofun
  rw [cursorEnds, hzero]
  rcases hstart with rfl | ⟨rfl, rfl⟩
  · rw [(EntryId.wire_injective asBytes).eq_iff]
  · rw [or_self]
    refine ⟨fun h => h.elim id fun h => hzero.mp (Or.inl h), Or.inl⟩

/-! A scan in batches of one, with one entry to handle and one that was trimmed. -/

/-- A consumer that takes over one entry at a time. -/
def singlyConfig : Config := { soloConfig with batchSize := 1 }

/-- Two entries that have been idle for a long time. -/
def twoPending : Pel := ⟨{⟨1, 0⟩, ⟨2, 0⟩}, fun _ => 200000⟩

/-- A running consumer. -/
def runningSelf : Self := ⟨true, 10, 0, []⟩

/-- The same consumer after the log line of a reclaimed batch. -/
def warnedSelf : Self :=
  { runningSelf with log := [⟨.warning, noRequestId,
      "[Consumer] Reclaimed " ++ toString 1 ++ " pending message(s) of '" ++ "events" ++ "'."⟩] }

/-- The awaits of the scan. -/
def pingScan : List ScanMoment :=
  [claimMoment singlyConfig twoPending .zero ⟨2, 0⟩ [(⟨1, 0⟩, some pingFields)] runningSelf
      runningSelf,
    ⟨twoPending, ⟨.xpendingRange "events" "users" ⟨1, 0⟩ ⟨1, 0⟩ 1, warnedSelf, .ok [1],
      runningSelf⟩⟩,
    ⟨twoPending, ⟨.gather [.handleMessage ⟨1, 0⟩ pingFields], runningSelf, .ok (), runningSelf⟩⟩,
    claimMoment singlyConfig twoPending ⟨2, 0⟩ .zero [(⟨2, 0⟩, none)] runningSelf runningSelf,
    ⟨twoPending, ⟨.xack "events" "users" ⟨2, 0⟩, warnedSelf, .ok (), runningSelf⟩⟩]

/-- A call that gives one of the two entries. -/
lemma twoPending_claims {startId nextId e : EntryId} {fields : Option Fields}
    (hmem : ∀ e' ∈ twoPending.pending, Spans startId nextId e' ↔ e' = e)
    (he : e ∈ twoPending.pending) (hnext : nextId ≠ .zero → nextId ∈ twoPending.pending) :
    twoPending.Claims 120000 startId 1 nextId [(e, fields)] where
  sorted := List.pairwise_singleton _ _
  mem_iff e' := by
    rw [List.map_singleton, List.mem_singleton]
    constructor
    · rintro rfl
      have hidle : (120000 : ℕ) ≤ 200000 := by decide
      exact ⟨he, (hmem _ he).mpr rfl, hidle⟩
    · rintro ⟨he', hspans, -⟩
      exact (hmem e' he').mp hspans
  length_le := le_rfl
  cursor := hnext
  progress _ _ := ⟨e, he, (hmem e he).mpr rfl⟩

lemma pingScan_undisturbed : ∀ m ∈ pingScan, Undisturbed twoPending.pending m := by
  have hfirst : twoPending.Claims 120000 .zero 1 ⟨2, 0⟩ [(⟨1, 0⟩, some pingFields)] :=
    twoPending_claims (by decide) (by decide) (by decide)
  have hsecond : twoPending.Claims 120000 ⟨2, 0⟩ 1 .zero [(⟨2, 0⟩, none)] :=
    twoPending_claims (by decide) (by decide) (by decide)
  simp only [pingScan, List.forall_mem_cons, List.not_mem_nil, false_implies, implies_true,
    and_true]
  exact ⟨⟨hfirst, rfl, subset_rfl⟩, ⟨nofun, rfl, subset_rfl⟩, ⟨trivial, rfl, subset_rfl⟩,
    ⟨hsecond, rfl, subset_rfl⟩, ⟨trivial, rfl, subset_rfl⟩⟩

theorem reclaim_scan_exact_ping :
    Run (reclaimPending singlyConfig 3 .zero 0 runningSelf) (pingScan.map Moment.exchange)
        (.done (.ok 2) runningSelf)
      ∧ handlerIds pingScan = [⟨1, 0⟩] ∧ ackIds pingScan = [⟨2, 0⟩]
      ∧ Scanned singlyConfig pingScan := by
  have hrun : Run (reclaimPending singlyConfig 3 .zero 0 runningSelf)
      (pingScan.map Moment.exchange) (.done (.ok 2) runningSelf) := by
    with_unfolding_all
      exact .cons _ _ (.cons _ _ (.cons _ _ (.cons _ _ (.cons _ _ (.nil _)))))
  refine ⟨hrun, rfl, rfl, ?_⟩
  exact ((reclaim_scan_exact singlyConfig twoPending.pending 3 runningSelf pingScan _ (by decide)
    (by decide) rfl pingScan_undisturbed hrun).2.2 _ _ rfl).2

end Atsig
