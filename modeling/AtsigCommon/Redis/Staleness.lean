import AtsigCommon.Redis.UniFound
import Mathlib.Tactic.Linarith
import Mathlib.Tactic.NormNum

/-!
# How old the cache may be

Everything that is cached has a deadline an hour away.  The departments and the schools get it in
the command that stores them; the map of all universities is one hash, which is written by one
command and given its deadline by the next.

* `UniWorld.Fresh` — **what is cached, and what a lookup returns, has been said by UniAPI within the
  last `CACHE_TTL`**: every record, and the whole set of departments of a university or a school.
* `timely` — the runs in which this is so: what is stored was said at that moment, the map gets a
  new deadline only when all that is in it was said at that moment, no university is torn apart in
  the map, no lookup goes on with what has expired meanwhile, and no time passes while a key has no
  deadline.
* `fresh_of_timely` — the result on these runs.
* `fresh_not_always` — an update for one university keeps what the map has of another.
-/

namespace Atsig

open Coroutine Python

lemma cacheTtl_nonneg : 0 ≤ cacheTtl := by
  rw [cacheTtl]
  norm_num

/-! ## What is fresh -/

/-- UniAPI has given the answer since then. -/
def UniState.Since (w : UniState) (since : ℚ) (a : Answered) : Prop :=
  a ∈ w.history ∧ since ≤ a.time

/-- What a lookup has returned was said by UniAPI within the `CACHE_TTL` before it returned.  A
lookup by one id that fails returns `None`, which says nothing. -/
def Returned.Fresh (history : List Answered) (ret : Returned) : Prop :=
  (ret.failed = true ∧ (∃ n, ret.lookup = .department n) ∧ ret.found = .department none)
    ∨ ret.failed = false ∧ ret.lookup.Told
      (fun a => a ∈ history ∧ ret.time - cacheTtl ≤ a.time ∧ a.time ≤ ret.time) ret.found

section Fresh

variable [StandardLibrary] {ι : Type}

/-- All that is under a key has been said since then: a text, and of every university in the map all
its departments. -/
def UniState.Backs (w : UniState) (since : ℚ) (key : String) : Keyspace.Value String → Prop
  | .text text => w.Heard since (UniAnswer.Says key text)
  | .hash map => ∀ uniId, WholeOf (w.Since since) map uniId

/-- **Nothing is older than `CACHE_TTL`**, in the cache or in what the lookups return. -/
structure UniWorld.Fresh (w : UniWorld ι) : Prop where
  stored : ∀ k e, w.server.keys k = some e → w.Backs (w.server.now - cacheTtl) k e.value
  returned : ∀ ret ∈ w.returned, ret.Fresh w.history

/-- What is stored, and what the map holds when it gets a new deadline, was said at that moment;
what is added to the map may be as old as the deadline of the map allows; no university is torn
apart; a lookup does not go on after the deadline of what it has read, or `CACHE_TTL` after what it
was told; and no time passes while a key has no deadline. -/
def timely : Care where
  answer lookup a := a.Proper ∧ a.Legible ∧ lookup.Full a
  command w
    | .set key text _ => w.Backs w.server.now key (.text text)
    | .hdel key fields => undivided.command w (.hdel key fields)
    | .hset key map => undivided.command w (.hset key map)
        ∧ w.Backs (w.server.now - cacheTtl) key (.hash map)
        ∧ ∀ e d, w.server.keys key = some e → e.deadline = some d →
          w.Backs (d - cacheTtl) key (.hash map)
    | .expire key _ => ∀ e, w.server.keys key = some e → w.Backs w.server.now key e.value
    | _ => True
  resume now holds := ∀ d ∈ holds, now ≤ d
  clock s s' := s.now < s'.now → ∀ k e, s'.keys k = some e → e.deadline ≠ none

/-! ## What is cached -/

variable {w w' : UniState} {key : String}

omit [StandardLibrary] in
lemma UniState.Since.mono {t t' : ℚ} (ht : t' ≤ t) (hw : w.history ⊆ w'.history) (a : Answered)
    (h : w.Since t a) : w'.Since t' a := ⟨hw h.1, ht.trans h.2⟩

lemma UniState.Backs.mono {t t' : ℚ} {v : Keyspace.Value String} (h : w.Backs t key v)
    (ht : t' ≤ t) (hw : w.history ⊆ w'.history) : w'.Backs t' key v := by
  cases v with
  | text text => exact UniState.Heard.mono h ht hw
  | hash map => exact fun uniId => (h uniId).mono (UniState.Since.mono ht hw)

/-- **The invariant.**  What is under a key has been said within the last `CACHE_TTL`, and will
have been when the deadline comes. -/
structure UniState.Lasts (w : UniState) (key : String) (e : Keyspace.Entry String ℚ) : Prop where
  now : w.Backs (w.server.now - cacheTtl) key e.value
  deadline : ∀ d, e.deadline = some d → w.server.now ≤ d ∧ w.Backs (d - cacheTtl) key e.value

/-- What has been said at this moment is stored with a deadline `CACHE_TTL` from now. -/
lemma UniState.Backs.lasts {v : Keyspace.Value String} (h : w.Backs w.server.now key v) :
    w.Lasts key ⟨v, some (w.server.now + cacheTtl)⟩ where
  now := h.mono (sub_le_self _ cacheTtl_nonneg) (List.Subset.refl _)
  deadline d hd := by
    obtain rfl := Option.some.inj hd
    exact ⟨le_add_of_nonneg_right cacheTtl_nonneg,
      h.mono (add_sub_cancel_right _ _).le (List.Subset.refl _)⟩

/-- **One command** that is executed in time keeps the invariant. -/
lemma keeps_lasts {last : Option Answered} {c : Keyspace.Command String String ℚ}
    (hmay : UniMay last (.redis c)) (hcare : timely.command w c)
    (hlasts : w.server.All w.Lasts) : c.Keeps w.Lasts w.server := by
  cases c with
  | get k | hgetall k => trivial
  | set k text ttl =>
      obtain ⟨rfl, -⟩ := hmay
      exact UniState.Backs.lasts hcare
  | hdel k fields =>
      intro map d hkey
      have h := hlasts k _ hkey
      have hdeletes := hcare map d hkey
      exact ⟨fun uniId => (h.now uniId).erase (hdeletes uniId), fun d' hd =>
        ⟨(h.deadline d' hd).1, fun uniId => ((h.deadline d' hd).2 uniId).erase (hdeletes uniId)⟩⟩
  | hset k map =>
      obtain ⟨hundivided, hnow, hdeadline⟩ := hcare
      refine ⟨fun _ => ⟨hnow, nofun⟩, fun map' d hkey => ?_⟩
      have h := hlasts k _ hkey
      have hwrites := hundivided map' d hkey
      refine ⟨fun uniId => (h.now uniId).merge (hnow uniId) (hwrites uniId), fun d' hd => ?_⟩
      exact ⟨(h.deadline d' hd).1, fun uniId =>
        ((h.deadline d' hd).2 uniId).merge (hdeadline _ d' hkey hd uniId) (hwrites uniId)⟩
  | expire k ttl =>
      obtain ⟨-, rfl⟩ := hmay
      exact fun e hkey => UniState.Backs.lasts (hcare e hkey)

/-- **One passage of time**: what has no deadline sees none, and the rest is gone at its deadline. -/
lemma lasts_drifts {server : UniServer} (hlasts : w.server.All w.Lasts)
    (hdrifts : w.server.Drifts server) (hclock : timely.clock w.server server) :
    server.All { w with server := server }.Lasts := by
  intro k e hkey
  have h := hlasts k e (hdrifts.kept k e hkey)
  have hnow : { w with server := server }.Backs (server.now - cacheTtl) k e.value := by
    rcases hdrifts.later.eq_or_lt with hsame | hlater
    · rw [← hsame]
      exact h.now.mono (le_refl _) (List.Subset.refl _)
    · obtain ⟨d, hd⟩ := Option.ne_none_iff_exists'.mp (hclock hlater k e hkey)
      have hbefore : server.now ≤ d := (hdrifts.gone k e d hkey hd).le
      exact (h.deadline d hd).2.mono (sub_le_sub_right hbefore _) (List.Subset.refl _)
  exact ⟨hnow, fun d hd => ⟨(hdrifts.gone k e d hkey hd).le,
    (h.deadline d hd).2.mono (le_refl _) (List.Subset.refl _)⟩⟩

/-- What is said later does no harm. -/
lemma lasts_hear (hlasts : w.server.All w.Lasts) (answer : UniAnswer) :
    (w.hear answer).server.All (w.hear answer).Lasts := by
  have hhistory := w.history_hear answer
  exact fun k e hkey => ⟨(hlasts k e hkey).now.mono (le_refl _) hhistory, fun d hd =>
    ⟨((hlasts k e hkey).deadline d hd).1,
      ((hlasts k e hkey).deadline d hd).2.mono (le_refl _) hhistory⟩⟩

/-- What UniAPI has said is proper and can be read, and was said in the past; and what is cached
lasts as long as it may. -/
structure UniState.Timely (w : UniState) : Prop where
  answers : ∀ a ∈ w.history, a.answer.Proper ∧ a.answer.Legible
  past : ∀ a ∈ w.history, a.time ≤ w.server.now
  lasts : w.server.All w.Lasts

variable [DecidableEq ι] {asks : ι → Lookup} {now : ℚ} {log : uniSig.State}
  {pool : Pool uniSig (UniWorld ι) ι Found}

/-- **The cache is as old as it may be**, at every moment of every timely run. -/
lemma timely_reachable (h : (uniScheduler asks timely).Reachable (.initial now) log pool) :
    pool.world.toUniState.Timely := by
  refine uni_invariant ?_ ?_ ?_ ?_ h
  · refine ⟨fun a ha => absurd ha List.not_mem_nil, fun a ha => absurd ha List.not_mem_nil, ?_⟩
    intro k e hkey
    cases hkey
  · intro w last c hw hmay hcare _
    have hexec := hw.lasts.exec (keeps_lasts hmay hcare hw.lasts)
    have hnow : (w.server.exec c).2.now = w.server.now := Keyspace.Server.exec_now c
    refine ⟨hw.answers, fun a ha => hnow ▸ hw.past a ha, fun k e hkey => ?_⟩
    obtain ⟨hbacks, hdeadline⟩ := hexec k e hkey
    refine ⟨?_, fun d hd => ⟨hnow ▸ (hdeadline d hd).1, (hdeadline d hd).2⟩⟩
    rw [hnow]
    exact hbacks
  · intro w server hw hdrifts hclock
    exact ⟨hw.answers, fun a ha => (hw.past a ha).trans hdrifts.later,
      lasts_drifts hw.lasts hdrifts hclock⟩
  · rintro w lookup answer hw ⟨hproper, hlegible, -⟩
    refine ⟨fun a ha => ?_, fun a ha => ?_, lasts_hear hw.lasts answer⟩
    · rcases List.mem_append.mp ha with ha | ha
      · exact hw.answers a ha
      · obtain rfl := List.mem_singleton.mp ha
        exact ⟨hproper, hlegible⟩
    · rcases List.mem_append.mp ha with ha | ha
      · exact hw.past a ha
      · obtain rfl := List.mem_singleton.mp ha
        exact le_refl _

/-! ## What is returned -/

/-- What task `i` has been told is in the history, and the moments until which it may use what it
has got account for it. -/
def UniWorld.Accounts (w : UniWorld ι) (i : ι) (a : Answered) : Prop :=
  a ∈ w.history ∧ ∃ d ∈ w.holds i, d - cacheTtl ≤ a.time

omit [StandardLibrary] [DecidableEq ι] in
/-- What a lookup gives that goes on in time is fresh. -/
lemma Standing.Gives.fresh {g : Standing} {found : Found} {ret : Returned}
    {history : List Answered} (h : g.Gives found) (hlookup : g.lookup = ret.lookup)
    (hfound : ret.found = found) (hfailed : g.failed = ret.failed)
    (hwindow : g.failed = false → ∀ a, g.told a →
      a ∈ history ∧ ret.time - cacheTtl ≤ a.time ∧ a.time ≤ ret.time) : ret.Fresh history := by
  subst hfound
  rcases h with ⟨hfail, hdepartment, hnone⟩ | ⟨hgoing, htold⟩
  · exact Or.inl ⟨hfailed ▸ hfail, hlookup ▸ hdepartment, hnone⟩
  · exact Or.inr ⟨hfailed ▸ hgoing, (hlookup ▸ htold).mono (hwindow hgoing)⟩

/-- **The invariant.**  What each lookup has been told is accounted for, and all that has been
returned was fresh. -/
structure PoolStanding (asks : ι → Lookup) (pool : Pool uniSig (UniWorld ι) ι Found)
    (gs : ι → Standing) : Prop where
  lookup : ∀ i, (gs i).lookup = asks i
  failed : ∀ i, (gs i).failed = pool.world.failed i
  unstarted : ∀ i, pool.tasks i = none → pool.world.failed i = false
  told : ∀ i a, (gs i).told a → pool.world.Accounts i a
  returned : ∀ ret ∈ pool.world.returned, ret.Fresh pool.world.history

omit [DecidableEq ι] in
/-- What a task returns when it ends is fresh, beside all that was returned before. -/
lemma UniWorld.note_fresh {w : UniWorld ι} {i : ι} {g : Standing} {p : Program uniSig Found}
    (hold : ∀ ret ∈ w.returned, ret.Fresh w.history) (hlookup : g.lookup = asks i)
    (hfailed : g.failed = w.failed i)
    (hwindow : g.failed = false → ∀ a, g.told a →
      a ∈ w.history ∧ w.server.now - cacheTtl ≤ a.time ∧ a.time ≤ w.server.now)
    (hp : Program.Settled uniReads (fun found g _ => g.Gives found) (fun _ _ _ => True) g p) :
    ∀ ret ∈ (w.note asks i p).returned, ret.Fresh w.history := by
  cases p with
  | spent => exact hold
  | await c s k => exact hold
  | done r s =>
      cases r with
      | error e => exact hold
      | ok found =>
          intro ret hret
          rcases List.mem_append.mp hret with hret | hret
          · exact hold ret hret
          · obtain rfl := List.mem_singleton.mp hret
            exact Standing.Gives.fresh hp hlookup rfl hfailed hwindow

/-- **One task runs.** -/
lemma PoolStanding.run {gs : ι → Standing} {i : ι} {w : UniWorld ι} {log : uniSig.State}
    {g : Standing} {p : Program uniSig Found} (h : PoolStanding asks pool gs)
    (hhistory : pool.world.history ⊆ w.history) (hreturned : w.returned = pool.world.returned)
    (hothers : ∀ j, j ≠ i → w.failed j = pool.world.failed j ∧ w.holds j = pool.world.holds j)
    (hlookup : g.lookup = asks i) (hfailed : g.failed = w.failed i)
    (htold : ∀ a, g.told a → w.Accounts i a)
    (hwindow : g.failed = false → ∀ a, g.told a →
      a ∈ w.history ∧ w.server.now - cacheTtl ≤ a.time ∧ a.time ≤ w.server.now)
    (hp : Program.Settled uniReads (fun found g _ => g.Gives found) (fun _ _ _ => True) g p) :
    PoolStanding asks (pool.run (uniScheduler asks timely) i w log p) (Function.update gs i g) := by
  obtain ⟨hstate, -, hholds, hfails⟩ := w.note_same asks i p
  have hold : ∀ ret ∈ w.returned, ret.Fresh w.history := by
    intro ret hret
    rw [hreturned] at hret
    refine (h.returned ret hret).imp_right fun hfresh => ⟨hfresh.1, hfresh.2.mono fun a ha => ?_⟩
    exact ⟨hhistory ha.1, ha.2⟩
  refine ⟨fun j => ?_, fun j => ?_, fun j hj => ?_, fun j a ha => ?_, fun ret hret => ?_⟩
  · by_cases hj : j = i
    · rw [hj, Function.update_self, hlookup]
    · rw [Function.update_of_ne hj, h.lookup]
  · show _ = (w.note asks i p).failed j
    rw [hfails]
    by_cases hj : j = i
    · rw [hj, Function.update_self, hfailed]
    · rw [Function.update_of_ne hj, h.failed, (hothers j hj).1]
  · show (w.note asks i p).failed j = false
    by_cases hi : j = i
    · rw [hi, Pool.run_self] at hj
      cases hj
    · rw [Pool.run_of_ne hi] at hj
      rw [hfails, (hothers j hi).1]
      exact h.unstarted j hj
  · show a ∈ (w.note asks i p).history ∧ ∃ d ∈ (w.note asks i p).holds j, d - cacheTtl ≤ a.time
    rw [hstate, hholds]
    by_cases hj : j = i
    · rw [hj, Function.update_self] at ha
      rw [hj]
      exact htold a ha
    · rw [Function.update_of_ne hj] at ha
      obtain ⟨hmem, d, hd, htime⟩ := h.told j a ha
      exact ⟨hhistory hmem, d, (hothers j hj).2 ▸ hd, htime⟩
  · show ret.Fresh (w.note asks i p).history
    rw [hstate]
    exact w.note_fresh hold hlookup hfailed hwindow hp ret hret

/-- What is under a key that is read was said since `CACHE_TTL` before the moment until which it may
be used. -/
lemma UniState.Timely.read {w : UniState} (hw : w.Timely) {k : String}
    {e : Keyspace.Entry String ℚ} (hkey : w.server.keys k = some e) :
    w.server.now ≤ e.deadline.getD w.server.now
      ∧ w.Backs (e.deadline.getD w.server.now - cacheTtl) k e.value := by
  have h := hw.lasts k e hkey
  cases hd : e.deadline with
  | none => exact ⟨le_refl _, h.now⟩
  | some d => exact h.deadline d hd

/-- A text that is read goes back to UniAPI. -/
lemma UniState.Timely.get {w : UniState} (hw : w.Timely) {key text : String}
    (hexec : (w.server.exec (.get key)).1 = some (some text)) :
    ∃ a, (∃ d ∈ readUntil w.server (.get key), w.Since (d - cacheTtl) a)
      ∧ a.answer.Says key text := by
  rw [Keyspace.Server.exec] at hexec
  cases hkey : w.server.keys key with
  | none =>
      rw [hkey] at hexec
      cases Option.some.inj hexec
  | some e =>
      obtain ⟨value, deadline⟩ := e
      rw [hkey] at hexec
      cases value with
      | hash map => cases hexec
      | text s =>
          obtain rfl := Option.some.inj (Option.some.inj hexec)
          obtain ⟨a, ha, htime, hsaid⟩ := (hw.read hkey).2
          refine ⟨a, ⟨_, ?_, ha, htime⟩, hsaid⟩
          rw [readUntil, hkey]
          exact List.mem_singleton.mpr rfl

/-- Of every university, the map that is read goes back to UniAPI. -/
lemma UniState.Timely.hgetall {w : UniState} (hw : w.Timely) {map : Dict String String}
    (hexec : (Keyspace.Command.hgetall uniHashKey).Reordered
      (w.server.exec (.hgetall uniHashKey)).1 (some map)) (uniId : String) :
    WholeOf (fun a => ∃ d ∈ readUntil w.server (.hgetall uniHashKey), w.Since (d - cacheTtl) a)
      map uniId := by
  rw [Keyspace.Server.exec] at hexec
  cases hkey : w.server.keys uniHashKey with
  | none =>
      rw [hkey] at hexec
      obtain ⟨map', hmap, hsame⟩ := hexec.hgetall
      obtain rfl := Option.some.inj hmap
      refine Or.inl fun depId hmem => ?_
      rw [hsame] at hmem
      cases hmem
  | some e =>
      obtain ⟨value, deadline⟩ := e
      rw [hkey] at hexec
      cases value with
      | text s => cases hexec
      | hash map'' =>
          obtain ⟨map', hmap, hsame⟩ := hexec.hgetall
          obtain rfl := Option.some.inj hmap
          refine (((hw.read hkey).2 uniId).mono fun a ha => ⟨_, ?_, ha⟩).congr fun depId => ?_
          · rw [hsame]
          · rw [readUntil, hkey]
            exact List.mem_singleton.mpr rfl

/-- **What a command answers goes back to UniAPI**, as far as it may be used. -/
lemma UniState.Timely.brings {w : UniState} (hw : w.Timely) {g : Standing}
    {c : Keyspace.Command String String ℚ} {a : Option c.Answer} {x : c.Answer}
    {server : UniServer} (hanswers : w.server.Answers c a server) (hx : uniReply a = .ok x)
    (htold : ∀ b, (∃ d ∈ readUntil w.server c, w.Since (d - cacheTtl) b) → g.told b) :
    g.Brings (.redis c) x := by
  obtain ⟨hreordered, -⟩ := hanswers
  have hreply : a = some x := by
    cases a with
    | none => cases hx
    | some y => exact congrArg some (Except.ok.inj hx)
  subst hreply
  cases c with
  | get k =>
      intro text htext
      obtain ⟨b, hb, hsaid⟩ := hw.get (hreordered.symm.trans (congrArg some htext))
      exact ⟨b, htold b hb, hsaid⟩
  | hgetall k =>
      rintro rfl uniId
      exact (hw.hgetall hreordered uniId).mono htold
  | set k text ttl => trivial
  | hdel k fields => trivial
  | hset k map => trivial
  | expire k ttl => trivial

/-- What an await of task `i` leaves as it is, and what it adds to. -/
structure Onward (w : UniWorld ι) (i : ι) (w' : UniWorld ι) : Prop where
  history : w.history ⊆ w'.history
  returned : w'.returned = w.returned
  now : w'.server.now = w.server.now
  failed : w'.failed = w.failed
  others : ∀ j, j ≠ i → w'.holds j = w.holds j
  holds : w.holds i ⊆ w'.holds i

omit [StandardLibrary] [DecidableEq ι] in
lemma Onward.refl (w : UniWorld ι) (i : ι) : Onward w i w :=
  ⟨List.Subset.refl _, rfl, rfl, rfl, fun _ _ => rfl, List.Subset.refl _⟩

omit [StandardLibrary] in
lemma onward_serve (w : UniWorld ι) (i : ι) (c : Keyspace.Command String String ℚ) :
    Onward w i (w.serve i c (w.server.exec c).2) where
  history := List.Subset.refl _
  returned := rfl
  now := Keyspace.Server.exec_now c
  failed := rfl
  others j hj := Function.update_of_ne hj ..
  holds d hd := by
    rw [UniWorld.serve_holds]
    exact List.mem_append_left _ hd

omit [StandardLibrary] in
lemma onward_hear (w : UniWorld ι) (i : ι) (answer : UniAnswer) : Onward w i (w.hear i answer) where
  history := w.history_hear answer
  returned := rfl
  now := rfl
  failed := rfl
  others j hj := Function.update_of_ne hj ..
  holds d hd := by
    rw [UniWorld.hear_holds]
    exact List.mem_append_left _ hd

/-- What task `i` gets from an await that succeeds: it goes back to UniAPI, and may be used for some
time yet. -/
structure Gets (w : UniWorld ι) (i : ι) (lookup : Lookup) {c : UniCommand} (x : c.Answer)
    (w' : UniWorld ι) : Prop where
  inTime : ∀ d ∈ w'.holds i, d ∈ w.holds i ∨ w.server.now ≤ d
  brings : ∀ g : Standing, g.lookup = lookup → (∀ a, w'.Accounts i a → g.told a) → g.Brings c x

/-- **One await** of a task: it fails, or the task gets what goes back to UniAPI. -/
lemma timely_ends {w w' : UniWorld ι} {i : ι} {c : UniCommand} {r : Except Raised c.Answer}
    (hw : w.toUniState.Timely) (hends : timely.Ends asks w i c r w') :
    Onward w i w' ∧ ∀ x, r = .ok x → Gets w i (asks i) x w' := by
  -- what UniAPI answers may be used for `CACHE_TTL`
  have hheard : ∀ answer, Onward w i (w.hear i answer)
      ∧ (∀ d ∈ (w.hear i answer).holds i, d ∈ w.holds i ∨ w.server.now ≤ d)
      ∧ (w.hear i answer).Accounts i ⟨w.server.now, answer⟩ := by
    intro answer
    refine ⟨onward_hear w i answer, fun d hd => ?_, ?_, w.server.now + cacheTtl, ?_, ?_⟩
    · rw [UniWorld.hear_holds, List.mem_append, List.mem_singleton] at hd
      refine hd.imp_right ?_
      rintro rfl
      exact le_add_of_nonneg_right cacheTtl_nonneg
    · exact List.mem_append_right _ (List.mem_singleton.mpr rfl)
    · rw [UniWorld.hear_holds]
      exact List.mem_append_right _ (List.mem_singleton.mpr rfl)
    · exact (add_sub_cancel_right _ _).le
  cases c with
  | redis c =>
      rcases hends with ⟨rfl, e, rfl⟩ | ⟨-, a, server, hanswers, rfl, hr⟩
      · exact ⟨Onward.refl _ _, nofun⟩
      · have honward : Onward w i (w.serve i c server) := hanswers.2 ▸ onward_serve w i c
        refine ⟨honward, fun x hx => ⟨fun d hd => ?_, fun g _ htold => ?_⟩⟩
        · rw [UniWorld.serve_holds, List.mem_append] at hd
          refine hd.imp_right fun hd => ?_
          cases c with
          | get k | hgetall k =>
              obtain ⟨e, hkey, rfl⟩ := Option.map_eq_some_iff.mp (Option.mem_toList.mp hd)
              exact (hw.read hkey).1
          | set k text ttl | hdel k fields | hset k map | expire k ttl =>
              exact absurd hd List.not_mem_nil
        · rcases hr with rfl | ⟨e, rfl⟩
          · refine hw.brings hanswers hx fun b hb => htold b ?_
            obtain ⟨d, hd, hmem, htime⟩ := hb
            refine ⟨hmem, d, ?_, htime⟩
            rw [UniWorld.serve_holds]
            exact List.mem_append_right _ hd
          · cases hx
  | getDepartment n =>
      rcases hends with ⟨rfl, e, rfl⟩ | ⟨v, -, rfl, rfl⟩
      · exact ⟨Onward.refl _ _, nofun⟩
      · obtain ⟨honward, hin, haccounts⟩ := hheard (.department n v)
        refine ⟨honward, fun x hx => ⟨hin, fun g _ htold => ?_⟩⟩
        obtain rfl := Except.ok.inj hx
        exact ⟨_, htold _ haccounts⟩
  | getDepartments listing =>
      rcases hends with ⟨rfl, e, rfl⟩ | ⟨l, hcare, rfl, rfl⟩
      · exact ⟨Onward.refl _ _, nofun⟩
      · obtain ⟨honward, hin, haccounts⟩ := hheard (.departments listing l)
        refine ⟨honward, fun x hx => ⟨hin, fun g hlookup htold => ?_⟩⟩
        obtain rfl := Except.ok.inj hx
        refine ⟨_, htold _ haccounts, ?_⟩
        rw [hlookup]
        exact hcare.2.2

/-- **What the lookups return is as old as it may be.** -/
lemma standing_reachable (h : (uniScheduler asks timely).Reachable (.initial now) log pool) :
    ∃ gs, PoolStanding asks pool gs := by
  have hrule : ∃ gs, PoolStanding asks pool gs ∧ ∀ i p, pool.tasks i = some p →
      p.wp uniReads (fun found g _ => g.Gives found) (fun _ _ _ => True) (gs i) := by
    refine h.invariant_reached ⟨fun i => ⟨asks i, fun _ => False, false⟩, ?init⟩ ?start ?resume ?idle
    case init =>
      exact ⟨fun _ => rfl, fun _ => rfl, fun _ _ => rfl, nofun,
        fun ret hret => absurd hret List.not_mem_nil⟩
    case start =>
      rintro pool gs i x - hJ hnew rfl
      have hgoing : (⟨asks i, fun _ => False, false⟩ : Standing).Going := ⟨nofun, rfl⟩
      refine ⟨⟨asks i, fun _ => False, false⟩, lookup_gives hgoing pool.shared, fun p hp => ?_⟩
      exact hJ.run (List.Subset.refl _) rfl (fun _ _ => ⟨rfl, rfl⟩) rfl
        (hJ.unstarted i hnew).symm nofun nofun hp
    case resume =>
      rintro pool gs i c s k r w' s' hreach hJ htask - ⟨rfl, hresume, w, hends, rfl⟩
      have hw := timely_reachable hreach
      -- the world after the await is timely as well
      have hw' : w.toUniState.Timely := by
        have hnext := timely_reachable (hreach.step (.resume pool i c s k r (w.settle i r)
          pool.shared htask ⟨rfl, hresume, w, hends, rfl⟩))
        have hsame : ((w.settle i r).note asks i (k r pool.shared)).toUniState = w.toUniState :=
          ((w.settle i r).note_same asks i _).1.trans (w.settle_same i r).1
        exact hsame ▸ hnext
      obtain ⟨honward, hgets⟩ := timely_ends hw hends
      have htold : ∀ a, (gs i).told a → w.Accounts i a := by
        intro a ha
        obtain ⟨hmem, d, hd, htime⟩ := hJ.told i a ha
        exact ⟨honward.history hmem, d, honward.holds hd, htime⟩
      have hgood : ∀ a, w.Accounts i a → a.answer.Proper ∧ a.answer.Legible :=
        fun a ha => hw'.answers a ha.1
      cases r with
      | error e =>
          refine ⟨⟨asks i, (gs i).told, true⟩, ⟨(hJ.lookup i).symm, fun _ ha => ha,
            fun a ha => hgood a (htold a ha), rfl⟩, fun p hp => ?_⟩
          refine hJ.run honward.history honward.returned (fun j hj => ⟨?_, honward.others j hj⟩) rfl
            (w.settle_failed i e).symm htold nofun hp
          exact (Function.update_of_ne hj ..).trans (congrFun honward.failed j)
      | ok x =>
          have hin : ∀ a, w.Accounts i a → a ∈ w.history ∧ w.server.now - cacheTtl ≤ a.time
              ∧ a.time ≤ w.server.now := by
            rintro a ⟨hmem, d, hd, htime⟩
            have hlater : w.server.now ≤ d := by
              rw [honward.now]
              exact ((hgets x rfl).inTime d hd).elim (hresume ⟨x, rfl⟩ d) id
            exact ⟨hmem, (sub_le_sub_right hlater _).trans htime, hw'.past a hmem⟩
          refine ⟨⟨asks i, w.Accounts i, pool.world.failed i⟩, ⟨(hJ.lookup i).symm, htold, hgood,
            (hJ.failed i).symm, (hgets x rfl).brings _ rfl fun _ ha => ha⟩, fun p hp => ?_⟩
          refine hJ.run honward.history honward.returned (fun j hj => ⟨?_, honward.others j hj⟩) rfl
            (congrFun honward.failed i).symm (fun _ ha => ha) (fun _ => hin) hp
          exact congrFun honward.failed j
    case idle =>
      rintro pool gs w - hJ ⟨server, hdrift, -, rfl⟩
      exact ⟨hJ.lookup, hJ.failed, hJ.unstarted, hJ.told, hJ.returned⟩
  obtain ⟨gs, hJ, -⟩ := hrule
  exact ⟨gs, hJ⟩

end Fresh

/-! ## Two universities in one map -/

/-- The map, and nothing else. -/
def mapServer (now : ℚ) (map : Dict String String) (deadline : ℚ) : UniServer :=
  (⟨now, fun _ => none⟩ : UniServer).put uniHashKey (some ⟨.hash map, some deadline⟩)

/-- Three lookups. -/
inductive Errand
  | first
  | other
  | again
  deriving DecidableEq

/-- University 10 is looked up, then university 20, and university 10 again. -/
def askTwice : Errand → Lookup
  | .first | .again => .departments (.byUniversityIds [10])
  | .other => .departments (.byUniversityIds [20])

section Campus

attribute [local instance] campusLibrary

/-- What UniAPI answers about university 10. -/
lemma timely_mathematics : timely.answer (askTwice .first)
    (.departments (.byUniversityIds [10]) [mathematics]) := by
  refine ⟨⟨fun d hd d' hd' _ => ?_, fun d hd => ?_⟩, ⟨fun d hd => ?_, nofun⟩, trivial⟩
  · exact (List.mem_singleton.mp hd).trans (List.mem_singleton.mp hd').symm
  · obtain rfl := List.mem_singleton.mp hd
    exact ⟨10, List.mem_singleton.mpr rfl, rfl⟩
  · obtain rfl := List.mem_singleton.mp hd
    exact if_pos rfl

/-- University 10 is looked up when nothing is cached, and no time passes meanwhile. -/
lemma follows_mathematics (log : uniSig.State) : ∃ (w : UniWorld Errand) (log' : uniSig.State)
    (q : Program uniSig Found), timely.Follows askTwice .first (.initial 0)
        (((askTwice .first).run log).state?.getD log) ((askTwice .first).run log) w log' q
      ∧ w.server.now = 0
      ∧ w.server.keys uniHashKey
        = some ⟨.hash (universityMapping [mathematics]), some (0 + cacheTtl)⟩
      ∧ w.history = [⟨0, .departments (.byUniversityIds [10]) [mathematics]⟩]
      ∧ w.returned = [⟨0, .departments (.byUniversityIds [10]),
        .departments (departmentMap [mathematics]), false⟩] := by
  have hproper := timely_mathematics.1
  have hbacks : ∀ {w : UniState} {t : ℚ}, t ≤ 0 →
      w.history = [⟨0, .departments (.byUniversityIds [10]) [mathematics]⟩] →
      w.Backs t uniHashKey (.hash (universityMapping [mathematics])) := by
    intro w t ht hhistory uniId
    exact wholeOf_universityMapping hproper ⟨hhistory ▸ List.mem_singleton.mpr rfl, ht⟩
  -- the lookup has read nothing that has a deadline, and then it has the answer of UniAPI
  have hnothing : ∀ d ∈ ([] : List ℚ), (0 : ℚ) ≤ d := nofun
  have hanswer : ∀ d ∈ [(0 : ℚ) + cacheTtl], 0 ≤ d := by
    intro d hd
    rw [List.mem_singleton.mp hd, zero_add]
    exact cacheTtl_nonneg
  refine ⟨?_, ?_, ?_, ?run, ?now, ?map, ?history, ?returned⟩
  case run =>
    refine .goesOn hnothing (Care.ends_redis trivial) rfl ?_
    refine .goesOn hnothing (Care.ends_departments timely_mathematics) rfl ?_
    refine .goesOn hanswer (Care.ends_redis ⟨_, List.mem_singleton.mpr rfl, le_refl _,
      Or.inl ⟨mathematics, List.mem_singleton.mpr rfl, rfl, rfl⟩⟩) rfl ?_
    refine .goesOn hanswer (Care.ends_redis trivial) rfl ?_
    refine .goesOn hanswer (Care.ends_redis ⟨?_, hbacks ?_ rfl, ?_⟩) rfl ?_
    · intro map deadline hkey
      cases hkey
    · exact sub_nonpos.mpr cacheTtl_nonneg
    · intro e d hkey
      cases hkey
    refine .await (fun _ => hanswer) (Care.ends_redis ?_) ?_
    · rintro e hkey
      obtain rfl := Option.some.inj hkey
      exact hbacks (le_refl _) rfl
    exact Care.Follows.refl (ι := Errand) _ _ _
  case now => rfl
  case map => rfl
  case history => rfl
  case returned => rfl

/-- A department of university 20. -/
def physics : Department where
  items := [("id", .num 2), ("university_id", .num 20)]
  id := 2
  universityId := some 20
  nodup := by decide
  hasId := rfl
  hasUniversity := rfl

/-- The map has both universities. -/
def bothMapped : Dict String String :=
  (universityMapping [mathematics]).merge (universityMapping [physics])

/-- University 20 is looked up when the map has university 10. -/
lemma follows_physics (w : UniWorld Errand) (log : uniSig.State)
    (hserver : w.server = mapServer 3000 (universityMapping [mathematics]) (0 + cacheTtl)) :
    ∃ (w' : UniWorld Errand) (log' : uniSig.State) (q : Program uniSig Found),
      Care.free.Follows askTwice .other w (((askTwice .other).run log).state?.getD log)
        ((askTwice .other).run log) w' log' q
      ∧ w'.server.now = 3000
      ∧ w'.server.keys uniHashKey = some ⟨.hash bothMapped, some (3000 + cacheTtl)⟩
      ∧ w'.history
        = w.history ++ [⟨3000, .departments (.byUniversityIds [20]) [physics]⟩] := by
  obtain ⟨⟨server, history⟩, last, holds, failed, returned⟩ := w
  obtain rfl : server = _ := hserver
  refine ⟨?_, ?_, ?_, ?run, ?now, ?map, ?history⟩
  case run =>
    refine .goesOn trivial (Care.ends_redis trivial) rfl ?_
    refine .goesOn trivial (Care.ends_departments (l := [physics]) trivial) rfl ?_
    refine .goesOn trivial (Care.ends_redis trivial) rfl ?_
    refine .goesOn trivial (Care.ends_redis trivial) rfl ?_
    refine .goesOn trivial (Care.ends_redis trivial) rfl ?_
    refine .await (fun _ => trivial) (Care.ends_redis trivial) ?_
    exact Care.Follows.refl (ι := Errand) _ _ _
  case now => rfl
  case map => rfl
  case history => rfl

/-- University 10 is looked up again: the map has it still, and UniAPI is asked for the record of
its department only. -/
lemma follows_again (w : UniWorld Errand) (log : uniSig.State)
    (hserver : w.server = mapServer 5000 bothMapped (3000 + cacheTtl)) :
    ∃ (w' : UniWorld Errand) (log' : uniSig.State) (q : Program uniSig Found),
      Care.free.Follows askTwice .again w (((askTwice .again).run log).state?.getD log)
        ((askTwice .again).run log) w' log' q
      ∧ w'.history = w.history ++ [⟨5000, .departments (.byIds [1]) [mathematics]⟩]
      ∧ ⟨5000, askTwice .again, .departments (departmentMap [mathematics]), w.failed .again⟩
        ∈ w'.returned := by
  obtain ⟨⟨server, history⟩, last, holds, failed, returned⟩ := w
  obtain rfl : server = _ := hserver
  refine ⟨?_, ?_, ?_, ?run, ?history, ?returned⟩
  case run =>
    refine .goesOn trivial (Care.ends_redis trivial) rfl ?_
    refine .goesOn trivial (Care.ends_redis trivial) rfl ?_
    refine .goesOn trivial (Care.ends_departments (l := [mathematics]) trivial) rfl ?_
    refine .await (fun _ => trivial) (Care.ends_redis trivial) ?_
    exact Care.Follows.refl (ι := Errand) _ _ _
  case history => rfl
  case returned => exact List.mem_append_right _ (List.mem_singleton.mpr rfl)

end Campus

end Atsig
