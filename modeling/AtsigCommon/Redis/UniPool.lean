import AtsigCommon.Coroutine.Pool
import AtsigCommon.Redis.UniCache

/-!
# Lookups among lookups

Any number of cached lookups over one server, interleaved at their awaits, while the data of UniAPI
change as they like.  What UniAPI answers is kept in a history, so that what is cached can be held
against it.

* `uniScheduler` — the interleavings: time passes, keys go, and every command may fail, before or
  after it had its effect.  `Care` is what a run may be asked to respect.
* `uniTerms` — **what a lookup may write**: only what the last answer that it got says.
* `lookup_keeps` — every lookup keeps to that.
-/

namespace Atsig

open Coroutine Python

/-! ## What UniAPI said -/

/-- An answer of UniAPI. -/
inductive UniAnswer
  | department (departmentId : ℤ) (value : Json)
  | departments (listing : Listing) (l : List Department)

/-- An answer, and when it was given. -/
structure Answered where
  time : ℚ
  answer : UniAnswer

/-- The answer lists the department under the university, both as texts. -/
def UniAnswer.Lists (depId uniId : String) : UniAnswer → Prop
  | .department _ _ => False
  | .departments _ l => ∃ d ∈ l, ∃ n, d.universityId = some n ∧ depId = toString d.id
      ∧ uniId = toString n

/-- The answer is what the text under the key was made of. -/
def UniAnswer.Says [StandardLibrary] (key text : String) : UniAnswer → Prop
  | .department departmentId value =>
      key = deptKey departmentId ∧ text = StandardLibrary.dumps value
  | .departments listing l => (∃ d ∈ l, key = deptKey d.id ∧ text = StandardLibrary.dumps d.record)
      ∨ ∃ n, listing = .bySchoolId n ∧ key = schoolKey n
          ∧ text = StandardLibrary.dumps (departmentMapJson (departmentMap l))

/-- What an update writes into the map is what the answer lists. -/
lemma lists_of_universityMapping {listing : Listing} {l : List Department} {depId uniId : String}
    (h : (universityMapping l).get? depId = some uniId) :
    (UniAnswer.departments listing l).Lists depId uniId := by
  have hmem := Dict.mem_of_get?_ofPairs h
  obtain ⟨d, hd, hpair⟩ := List.mem_filterMap.mp hmem
  obtain ⟨n, hn, hpair⟩ := Option.map_eq_some_iff.mp hpair
  obtain ⟨rfl, rfl⟩ := Prod.mk.inj hpair
  exact ⟨d, hd, n, hn, rfl, rfl⟩

/-- The server, and what UniAPI has answered so far. -/
structure UniState where
  server : UniServer
  history : List Answered

/-- UniAPI answers. -/
def UniState.hear (w : UniState) (answer : UniAnswer) : UniState :=
  { w with history := w.history ++ [⟨w.server.now, answer⟩] }

/-- UniAPI has said it since then. -/
def UniState.Heard (w : UniState) (since : ℚ) (fact : UniAnswer → Prop) : Prop :=
  ∃ a ∈ w.history, since ≤ a.time ∧ fact a.answer

lemma UniState.Heard.mono {w w' : UniState} {t t' : ℚ} {fact : UniAnswer → Prop}
    (h : w.Heard t fact) (ht : t' ≤ t) (hw : w.history ⊆ w'.history) : w'.Heard t' fact := by
  obtain ⟨a, ha, htime, hfact⟩ := h
  exact ⟨a, hw ha, ht.trans htime, hfact⟩

lemma UniState.history_hear (w : UniState) (answer : UniAnswer) :
    w.history ⊆ (w.hear answer).history := List.subset_append_left _ _

/-- What a lookup has returned, and when. -/
structure Returned where
  time : ℚ
  lookup : Lookup
  found : Found
  /-- An await of the lookup has failed. -/
  failed : Bool

/-- The world of the lookups: what each of them has met, and what they have returned. -/
structure UniWorld (ι : Type) extends UniState where
  /-- The last answer that a task got. -/
  last : ι → Option Answered
  /-- The moments until which a task may use what it has got. -/
  holds : ι → List ℚ
  /-- An await of the task has failed. -/
  failed : ι → Bool
  returned : List Returned

variable {ι : Type}

/-- The world before the first lookup: a server without keys. -/
def UniWorld.initial (now : ℚ) : UniWorld ι :=
  ⟨⟨⟨now, fun _ => none⟩, []⟩, fun _ => none, fun _ => [], fun _ => false, []⟩

/-- The moment until which what a command reads may be used: the deadline of the key. -/
def readUntil (s : UniServer) : Keyspace.Command String String ℚ → List ℚ
  | .get k | .hgetall k => ((s.keys k).map fun e => e.deadline.getD s.now).toList
  | _ => []

/-- What a run may be asked to respect: the answers of UniAPI to a lookup, the commands that have
their effect, each in the state before it, the moments at which a lookup goes on with what it has
got, and the passing of time. -/
structure Care where
  answer : Lookup → UniAnswer → Prop
  command : UniState → Keyspace.Command String String ℚ → Prop
  resume : ℚ → List ℚ → Prop
  clock : UniServer → UniServer → Prop

/-- Nothing is asked. -/
def Care.free : Care := ⟨fun _ _ => True, fun _ _ => True, fun _ _ => True, fun _ _ => True⟩

section Scheduling

variable [DecidableEq ι]

/-- Task `i` gets an answer of UniAPI. -/
def UniWorld.hear (w : UniWorld ι) (i : ι) (answer : UniAnswer) : UniWorld ι where
  toUniState := w.toUniState.hear answer
  last := Function.update w.last i (some ⟨w.server.now, answer⟩)
  holds := Function.update w.holds i (w.holds i ++ [w.server.now + cacheTtl])
  failed := w.failed
  returned := w.returned

/-- A command of task `i` has its effect. -/
def UniWorld.serve (w : UniWorld ι) (i : ι) (c : Keyspace.Command String String ℚ)
    (server : UniServer) : UniWorld ι :=
  { w with server := server,
           holds := Function.update w.holds i (w.holds i ++ readUntil w.server c) }

/-- An await of task `i` has ended. -/
def UniWorld.settle {α : Type} (w : UniWorld ι) (i : ι) : Except Raised α → UniWorld ι
  | .ok _ => w
  | .error _ => { w with failed := Function.update w.failed i true }

omit [DecidableEq ι] in
/-- What task `i` returns is noted. -/
def UniWorld.note (asks : ι → Lookup) (w : UniWorld ι) (i : ι) :
    Program uniSig Found → UniWorld ι
  | .done (.ok found) _ =>
      { w with returned := w.returned ++ [⟨w.server.now, asks i, found, w.failed i⟩] }
  | _ => w

lemma UniWorld.hear_holds (w : UniWorld ι) (i : ι) (answer : UniAnswer) :
    (w.hear i answer).holds i = w.holds i ++ [w.server.now + cacheTtl] := Function.update_self ..

lemma UniWorld.serve_holds (w : UniWorld ι) (i : ι) (c : Keyspace.Command String String ℚ)
    (server : UniServer) : (w.serve i c server).holds i = w.holds i ++ readUntil w.server c :=
  Function.update_self ..

lemma UniWorld.settle_failed {α : Type} (w : UniWorld ι) (i : ι) (e : Raised) :
    (w.settle i (.error e : Except Raised α)).failed i = true := Function.update_self ..

omit [DecidableEq ι] in
/-- What is noted changes nothing else. -/
lemma UniWorld.note_same (asks : ι → Lookup) (w : UniWorld ι) (i : ι)
    (p : Program uniSig Found) : (w.note asks i p).toUniState = w.toUniState
      ∧ (w.note asks i p).last = w.last ∧ (w.note asks i p).holds = w.holds
      ∧ (w.note asks i p).failed = w.failed := by
  cases p with
  | done r log => cases r <;> exact ⟨rfl, rfl, rfl, rfl⟩
  | await c log k => exact ⟨rfl, rfl, rfl, rfl⟩
  | spent => exact ⟨rfl, rfl, rfl, rfl⟩

/-- A failure is noted with the task, and changes nothing else. -/
lemma UniWorld.settle_same {α : Type} (w : UniWorld ι) (i : ι) (r : Except Raised α) :
    (w.settle i r).toUniState = w.toUniState ∧ (w.settle i r).last = w.last
      ∧ (w.settle i r).holds = w.holds ∧ (w.settle i r).returned = w.returned := by
  cases r <;> exact ⟨rfl, rfl, rfl, rfl⟩

/-- The last answers are in the history. -/
lemma UniWorld.hear_mem {w : UniWorld ι} (h : ∀ i a, w.last i = some a → a ∈ w.history) (i : ι)
    (answer : UniAnswer) (j : ι) (a : Answered) (ha : (w.hear i answer).last j = some a) :
    a ∈ (w.hear i answer).history := by
  rw [hear, UniState.hear, List.mem_append]
  by_cases hj : j = i
  · subst hj
    have hsame : some (⟨w.server.now, answer⟩ : Answered) = some a :=
      (Function.update_self j _ w.last).symm.trans ha
    exact Or.inr (List.mem_singleton.mpr (Option.some.inj hsame).symm)
  · have hother : w.last j = some a := (Function.update_of_ne hj _ w.last).symm.trans ha
    exact Or.inl (h j a hother)

/-- A command ends: it fails before it had its effect, or it has its effect and is answered, or the
answer is lost. -/
def Care.Executes (care : Care) (w : UniWorld ι) (i : ι) (c : Keyspace.Command String String ℚ)
    (r : Except Raised c.Answer) (w' : UniWorld ι) : Prop :=
  (w' = w ∧ ∃ e, r = .error e)
    ∨ care.command w.toUniState c ∧ ∃ a server, w.server.Answers c a server
      ∧ w' = w.serve i c server ∧ (r = uniReply a ∨ ∃ e, r = .error e)

/-- How an await of task `i` ends. -/
def Care.Ends (care : Care) (asks : ι → Lookup) (w : UniWorld ι) (i : ι) :
    (c : UniCommand) → Except Raised c.Answer → UniWorld ι → Prop
  | .redis c, r, w' => care.Executes w i c r w'
  | .getDepartment n, r, w' => (w' = w ∧ ∃ e, r = .error e)
      ∨ ∃ v : Json, care.answer (asks i) (.department n v) ∧ r = .ok v
        ∧ w' = w.hear i (.department n v)
  | .getDepartments listing, r, w' => (w' = w ∧ ∃ e, r = .error e)
      ∨ ∃ l : List Department, care.answer (asks i) (.departments listing l) ∧ r = .ok l
        ∧ w' = w.hear i (.departments listing l)

/-- The lookups, interleaved: task `i` is the lookup `asks i`. -/
def uniScheduler [StandardLibrary] (asks : ι → Lookup) (care : Care) :
    Scheduler uniSig (UniWorld ι) ι Found where
  starts _ i x := x = (asks i).run
  answers pool i c r w' log := log = pool.shared
    ∧ ((∃ a, r = .ok a) → care.resume pool.world.server.now (pool.world.holds i))
    ∧ ∃ w, care.Ends asks pool.world i c r w ∧ w' = w.settle i r
  idles w w' := ∃ server, w.server.Drifts server ∧ care.clock w.server server
    ∧ w' = { w with server := server }
  notes w i p := w.note asks i p

end Scheduling

/-! ## What a lookup may write -/

/-- What a task may await, by the last answer that it got. -/
def UniMay [StandardLibrary] (last : Option Answered) : UniCommand → Prop
  | .redis (.set key text ttl) => ttl = cacheTtl ∧ ∃ a, last = some a ∧ a.answer.Says key text
  | .redis (.hdel key _) => key = uniHashKey
  | .redis (.hset key mapping) => key = uniHashKey
      ∧ ∃ t ids l, last = some ⟨t, .departments (.byUniversityIds ids) l⟩
        ∧ mapping = universityMapping l
  | .redis (.expire key ttl) => key = uniHashKey ∧ ttl = cacheTtl
  | _ => True

/-- The last answer after an await. -/
def UniNext (last last' : Option Answered) : (c : UniCommand) → Except Raised c.Answer → Prop
  | .redis _, _ => last' = last
  | .getDepartment n, r => (last' = last ∧ ∃ e, r = .error e)
      ∨ ∃ (v : Json) (t : ℚ), r = .ok v ∧ last' = some ⟨t, .department n v⟩
  | .getDepartments listing, r => (last' = last ∧ ∃ e, r = .error e)
      ∨ ∃ (l : List Department) (t : ℚ), r = .ok l ∧ last' = some ⟨t, .departments listing l⟩

/-- **The terms of a lookup**: it writes what the last answer that it got says, and nothing else. -/
def uniTerms [StandardLibrary] : Contract uniSig (Option Answered) where
  may last _ c := UniMay last c
  env last _ c r last' _ := UniNext last last' c r

section Keeps

variable [StandardLibrary] {I : Option Answered → Prop}

/-- A command of Redis leaves the last answer as it is. -/
lemma keeps_redis {c : Keyspace.Command String String ℚ}
    (hmay : ∀ last, I last → UniMay last (.redis c)) :
    (Uni.redis c).Keeps uniTerms fun last _ => I last := by
  refine Co.keeps_call (fun last _ h => hmay last h) ?_
  rintro last log r last' log' h henv
  have hlast : last' = last := henv
  exact hlast ▸ h

lemma keeps_writeUniLog (level : Level) (text : String) :
    (writeUniLog level text).Keeps uniTerms fun last _ => I last :=
  Co.keeps_modify fun _ _ h => h

lemma keeps_ofExcept {α : Type} (x : Except PyException α) :
    (Uni.ofExcept x).Keeps uniTerms fun last _ => I last := by
  cases x with
  | ok a => exact Co.keeps_ret a
  | error e => exact Co.keeps_raise _

lemma keeps_getJson (key : String) :
    (RedisManager.getJson key).Keeps uniTerms fun last _ => I last := by
  refine Co.Keeps.bind (keeps_redis fun _ _ => trivial) fun data => ?_
  cases data with
  | none => exact Co.keeps_ret _
  | some text =>
      refine Co.Keeps.ite (Co.keeps_ret _) ?_
      exact Co.Keeps.bind (keeps_ofExcept _) fun _ => Co.keeps_ret _

/-- What the last answer says is stored. -/
lemma keeps_setJson {key : String} {value : Json}
    (hfact : ∀ last, I last → ∃ a, last = some a
      ∧ a.answer.Says key (StandardLibrary.dumps value)) :
    (RedisManager.setJson key value cacheTtl).Keeps uniTerms fun last _ => I last :=
  keeps_redis fun last h => ⟨rfl, hfact last h⟩

lemma keeps_readDepartments : ∀ (ids : List ℤ) (m : Dict ℤ Json) (missing : List ℤ),
    (readDepartments m missing ids).Keeps uniTerms fun last _ => I last
  | [], _, _ => Co.keeps_ret _
  | id :: ids, m, missing => by
      refine Co.Keeps.bind (keeps_getJson _) fun data => ?_
      cases data.filter Json.truthy with
      | some v =>
          exact Co.Keeps.bind (keeps_writeUniLog _ _) fun _ => keeps_readDepartments ids _ _
      | none =>
          exact Co.Keeps.bind (keeps_writeUniLog _ _) fun _ => keeps_readDepartments ids _ _

lemma keeps_storeDepartments {t : ℚ} {listing : Listing} {l : List Department} :
    ∀ (l' : List Department) (m : Dict ℤ Json), (∀ d ∈ l', d ∈ l) →
    (storeDepartments m l').Keeps uniTerms
      fun last _ => last = some ⟨t, .departments listing l⟩
  | [], _, _ => Co.keeps_ret _
  | d :: l', m, h => by
      refine Co.Keeps.bind (keeps_setJson fun last hlast => ⟨_, hlast, ?_⟩) fun _ =>
        keeps_storeDepartments l' _ fun d' hd' => h d' (List.mem_cons_of_mem d hd')
      exact Or.inl ⟨d, h d (List.mem_cons_self ..), rfl, rfl⟩

/-- A question to UniAPI, and what is done with the answer. -/
lemma keeps_getDepartments {α : Type} {listing : Listing} {f : List Department → Uni α}
    (hf : ∀ t l, (f l).Keeps uniTerms fun last _ => last = some ⟨t, .departments listing l⟩) :
    (UniApi.getDepartments listing >>= f).Keeps uniTerms := by
  intro last log _
  rw [Co.wp_bind]
  refine ⟨trivial, ?_⟩
  rintro r last' log' (⟨-, e, rfl⟩ | ⟨l, t, rfl, rfl⟩)
  · exact trivial
  · exact (hf t l).wp rfl (fun _ _ _ _ => trivial) fun _ _ _ _ => trivial

lemma keeps_getDepartmentsByIdsCached (ids : List ℤ) :
    (getDepartmentsByIdsCached ids).Keeps uniTerms := by
  refine Co.Keeps.bind (keeps_readDepartments ids _ _) ?_
  rintro ⟨m, missing⟩
  refine Co.Keeps.ite (Co.keeps_ret _) ?_
  refine Co.Keeps.bind (keeps_writeUniLog _ _) fun _ => ?_
  refine keeps_getDepartments fun t l => ?_
  refine Co.Keeps.bind (keeps_storeDepartments l m fun _ hd => hd) fun m' => ?_
  exact Co.Keeps.bind (keeps_writeUniLog _ _) fun _ => Co.keeps_ret _

lemma keeps_readUniversities (map : Dict String String) : ∀ (uniIds : List ℤ) (m : Dict ℤ Json)
    (missing : List ℤ), (readUniversities map m missing uniIds).Keeps uniTerms
  | [], _, _ => Co.keeps_ret _
  | uniId :: uniIds, m, missing => by
      refine Co.Keeps.bind (keeps_ofExcept _) fun depIds => ?_
      refine Co.Keeps.ite ?_ ?_
      · exact Co.Keeps.bind (keeps_writeUniLog _ _) fun _ => keeps_readUniversities map uniIds _ _
      · refine Co.Keeps.bind (keeps_writeUniLog _ _) fun _ => ?_
        exact Co.Keeps.bind (keeps_getDepartmentsByIdsCached _) fun _ =>
          keeps_readUniversities map uniIds _ _

/-- The map is updated with what the last answer lists. -/
lemma keeps_updateDepartmentUniversityMap {t : ℚ} {ids : List ℤ} (l : List Department) :
    (updateDepartmentUniversityMap l).Keeps uniTerms
      fun last _ => last = some ⟨t, .departments (.byUniversityIds ids) l⟩ := by
  have hfinish : (do
      RedisManager.hset uniHashKey (universityMapping l)
      RedisManager.expire uniHashKey cacheTtl
      writeUniLog .info "[UniCache] University map update completed" : Uni Unit).Keeps uniTerms
        fun last _ => last = some ⟨t, .departments (.byUniversityIds ids) l⟩ := by
    refine Co.Keeps.bind ?_ fun _ => Co.Keeps.bind ?_ fun _ => keeps_writeUniLog _ _
    · refine Co.Keeps.ite (Co.keeps_raise _) ?_
      exact keeps_redis fun last hlast => ⟨rfl, t, ids, l, hlast, rfl⟩
    · exact keeps_redis fun _ _ => ⟨rfl, rfl⟩
  refine Co.Keeps.ite (Co.keeps_ret _) ?_
  refine Co.Keeps.bind (keeps_writeUniLog _ _) fun _ => ?_
  refine Co.Keeps.bind (keeps_redis fun _ _ => trivial) fun existingMap => ?_
  refine Co.Keeps.bind (keeps_ofExcept _) fun toDelete => ?_
  refine Co.Keeps.ite ?_ hfinish
  refine Co.Keeps.bind (keeps_writeUniLog _ _) fun _ => ?_
  exact Co.Keeps.bind (keeps_redis fun _ _ => rfl) fun _ => hfinish

lemma keeps_getDepartmentsByUniversityIdsCached (ids : List ℤ) :
    (getDepartmentsByUniversityIdsCached ids).Keeps uniTerms := by
  refine Co.Keeps.ite (Co.keeps_ret _) ?_
  refine Co.Keeps.bind (keeps_writeUniLog _ _) fun _ => ?_
  refine Co.Keeps.bind (keeps_redis fun _ _ => trivial) fun map => ?_
  refine Co.Keeps.bind (keeps_readUniversities map ids _ _) ?_
  rintro ⟨m, missing⟩
  refine Co.Keeps.ite (Co.keeps_ret _) ?_
  refine Co.Keeps.bind (keeps_writeUniLog _ _) fun _ => ?_
  refine keeps_getDepartments fun t l => ?_
  refine Co.Keeps.bind (keeps_storeDepartments l m fun _ hd => hd) fun m' => ?_
  exact Co.Keeps.bind (keeps_updateDepartmentUniversityMap l) fun _ => Co.keeps_ret _

lemma keeps_getDepartmentsBySchoolIdCached (n : ℤ) :
    (getDepartmentsBySchoolIdCached n).Keeps uniTerms := by
  refine Co.Keeps.bind (keeps_getJson _) fun data => ?_
  cases data.filter Json.truthy with
  | some v =>
      refine Co.Keeps.bind (keeps_ofExcept _) fun _ => ?_
      exact Co.Keeps.bind (keeps_writeUniLog _ _) fun _ => keeps_ofExcept _
  | none =>
      refine Co.Keeps.bind (keeps_writeUniLog _ _) fun _ => ?_
      refine keeps_getDepartments fun t l => ?_
      refine Co.Keeps.bind (keeps_setJson fun last hlast => ⟨_, hlast, ?_⟩) fun _ => ?_
      · exact Or.inr ⟨n, rfl, rfl, rfl⟩
      · exact Co.Keeps.bind (keeps_writeUniLog _ _) fun _ => Co.keeps_ret _

/-- A question about one department, and what is done with the answer. -/
lemma keeps_getDepartment {α : Type} {n : ℤ} {f : Json → Uni α}
    (hf : ∀ t v, (f v).Keeps uniTerms fun last _ => last = some ⟨t, .department n v⟩) :
    (UniApi.getDepartment n >>= f).Keeps uniTerms := by
  intro last log _
  rw [Co.wp_bind]
  refine ⟨trivial, ?_⟩
  rintro r last' log' (⟨-, e, rfl⟩ | ⟨v, t, rfl, rfl⟩)
  · exact trivial
  · exact (hf t v).wp rfl (fun _ _ _ _ => trivial) fun _ _ _ _ => trivial

lemma keeps_getDepartmentByIdCached (n : ℤ) : (getDepartmentByIdCached n).Keeps uniTerms := by
  refine Co.Keeps.bind (keeps_getJson _) fun data => ?_
  cases data.filter Json.truthy with
  | some v => exact Co.Keeps.bind (keeps_writeUniLog _ _) fun _ => Co.keeps_ret _
  | none =>
      refine Co.Keeps.bind (keeps_writeUniLog _ _) fun _ => Co.Keeps.protect ?_ fun e => ?_
      · refine keeps_getDepartment fun t v => Co.Keeps.ite ?_ ?_
        · refine Co.Keeps.bind (keeps_setJson fun last hlast => ⟨_, hlast, rfl, rfl⟩) fun _ => ?_
          exact Co.Keeps.bind (keeps_writeUniLog _ _) fun _ => Co.keeps_ret _
        · exact Co.Keeps.bind (keeps_writeUniLog _ _) fun _ => Co.keeps_ret _
      · cases e with
        | exception e => exact Co.Keeps.bind (keeps_writeUniLog _ _) fun _ => Co.keeps_ret _
        | cancelled => exact Co.keeps_raise _

/-- **Every lookup keeps to its terms.** -/
theorem lookup_keeps (lookup : Lookup) : lookup.run.Keeps uniTerms := by
  rcases lookup with (ids | ids | n) | n
  · exact Co.Keeps.bind (keeps_getDepartmentsByIdsCached ids) fun _ => Co.keeps_ret _
  · exact Co.Keeps.bind (keeps_getDepartmentsByUniversityIdsCached ids) fun _ => Co.keeps_ret _
  · exact Co.Keeps.bind (keeps_getDepartmentsBySchoolIdCached n) fun _ => Co.keeps_ret _
  · exact Co.Keeps.bind (keeps_getDepartmentByIdCached n) fun _ => Co.keeps_ret _

end Keeps

/-! ## The rule for lookups among lookups -/

section Rule

variable [StandardLibrary] [DecidableEq ι] {asks : ι → Lookup} {care : Care} {P : UniState → Prop}

/-- **The rule.**  What is kept by every command that a task may send, by time, and by what UniAPI
answers, holds in every pool that is reached. -/
theorem uni_invariant {now : ℚ} (hinit : P (UniWorld.initial now : UniWorld ι).toUniState)
    (hcommand : ∀ w last c, P w → UniMay last (.redis c) → care.command w c →
      (∀ a, last = some a → a ∈ w.history) → P { w with server := (w.server.exec c).2 })
    (hdrifts : ∀ w server, P w → w.server.Drifts server → care.clock w.server server →
      P { w with server := server })
    (hhear : ∀ w lookup answer, P w → care.answer lookup answer → P (w.hear answer))
    {log : uniSig.State} {pool : Pool uniSig (UniWorld ι) ι Found}
    (h : (uniScheduler asks care).Reachable (.initial now) log pool) :
    P pool.world.toUniState := by
  let J : Pool uniSig (UniWorld ι) ι Found → (ι → Option Answered) → Prop := fun pool lasts =>
    lasts = pool.world.last ∧ (∀ i a, pool.world.last i = some a → a ∈ pool.world.history)
      ∧ P pool.world.toUniState
  -- what is noted of a task, and its failures, are no matter here
  have hrun : ∀ {pool : Pool uniSig (UniWorld ι) ι Found} {i : ι} {w : UniWorld ι} {α : Type}
      {r : Except Raised α} {s : uniSig.State} {lasts : ι → Option Answered} (p),
      lasts = w.last → (∀ i a, w.last i = some a → a ∈ w.history) → P w.toUniState →
      J (pool.run (uniScheduler asks care) i (w.settle i r) s p) lasts := by
    intro pool i w α r s lasts p hlasts hheard hP
    obtain ⟨hstate, hlast, -, -⟩ := w.settle_same i r
    obtain ⟨hstate', hlast', -, -⟩ := (w.settle i r).note_same asks i p
    show lasts = UniWorld.last (UniWorld.note ..)
      ∧ (∀ j a, UniWorld.last (UniWorld.note ..) j = some a → a ∈ (UniWorld.note ..).history)
      ∧ P (UniWorld.note ..).toUniState
    rw [hlast', hlast, hstate', hstate]
    exact ⟨hlasts, hheard, hP⟩
  have hrule : ∃ lasts, J pool lasts ∧ ∀ i p, pool.tasks i = some p →
      p.wp uniTerms (fun _ _ _ => True) (fun _ _ _ => True) (lasts i) := by
    refine Scheduler.Reachable.invariant ⟨fun _ => none, rfl, nofun, hinit⟩ ?start ?resume ?idle h
    case start =>
      rintro pool lasts i x ⟨hlasts, hheard, hP⟩ - rfl
      refine ⟨lasts i, lookup_keeps (asks i) _ _ trivial, fun p _ => ?_⟩
      rw [Function.update_eq_self]
      exact hrun (r := (.ok () : Except Raised Unit)) p hlasts hheard hP
    case resume =>
      rintro pool lasts i c s k r w s' ⟨rfl, hheard, hP⟩ - hmay ⟨-, -, w, hends, rfl⟩
      have hsame : Function.update pool.world.last i (pool.world.last i) = pool.world.last :=
        Function.update_eq_self ..
      have hanswered : ∀ answer p, care.answer (asks i) answer →
          J (pool.run (uniScheduler asks care) i
              (UniWorld.settle (pool.world.hear i answer) i r) s' p)
            (Function.update pool.world.last i (some ⟨pool.world.server.now, answer⟩)) :=
        fun answer p hcare => hrun p rfl (UniWorld.hear_mem hheard i answer)
          (hhear _ (asks i) answer hP hcare)
      cases c with
      | redis c =>
          rcases hends with ⟨rfl, -⟩ | ⟨hcare, a, server, ⟨-, rfl⟩, rfl, -⟩
          · exact ⟨_, rfl, fun p _ => hrun p hsame hheard hP⟩
          · exact ⟨_, rfl, fun p _ => hrun p hsame hheard
              (hcommand pool.world.toUniState _ c hP hmay hcare (hheard i))⟩
      | getDepartment n =>
          rcases hends with ⟨rfl, he⟩ | ⟨v, hcare, rfl, rfl⟩
          · exact ⟨_, Or.inl ⟨rfl, he⟩, fun p _ => hrun p hsame hheard hP⟩
          · exact ⟨_, Or.inr ⟨v, _, rfl, rfl⟩, fun p _ => hanswered _ p hcare⟩
      | getDepartments listing =>
          rcases hends with ⟨rfl, he⟩ | ⟨l, hcare, rfl, rfl⟩
          · exact ⟨_, Or.inl ⟨rfl, he⟩, fun p _ => hrun p hsame hheard hP⟩
          · exact ⟨_, Or.inr ⟨l, _, rfl, rfl⟩, fun p _ => hanswered _ p hcare⟩
    case idle =>
      rintro pool lasts w ⟨hlasts, hheard, hP⟩ ⟨server, hdrift, hclock, rfl⟩
      exact ⟨hlasts, hheard, hdrifts _ server hP hdrift hclock⟩
  obtain ⟨lasts, ⟨-, -, hP⟩, -⟩ := hrule
  exact hP

/-! ## Runs -/

/-- A task goes on from one await to the next, and nothing else happens meanwhile. -/
inductive Care.Follows (care : Care) (asks : ι → Lookup) (i : ι) : UniWorld ι → uniSig.State →
    Program uniSig Found → UniWorld ι → uniSig.State → Program uniSig Found → Prop
  | refl (w : UniWorld ι) (log : uniSig.State) (p : Program uniSig Found) :
      Follows care asks i w log p w log p
  | await {w w₁ w' : UniWorld ι} {log log₁ log' : uniSig.State} {c : UniCommand}
      {k : Except Raised c.Answer → uniSig.State → Program uniSig Found}
      {r : Except Raised c.Answer} {q : Program uniSig Found}
      (hresume : (∃ a, r = .ok a) → care.resume w.server.now (w.holds i))
      (hends : care.Ends asks w i c r w₁)
      (h : Follows care asks i ((w₁.settle i r).note asks i (k r log))
        ((k r log).state?.getD log) (k r log) w' log' q) :
      Follows care asks i w log (.await c log₁ k) w' log' q

omit [StandardLibrary] in
/-- An await succeeds, and the task goes on to the next one. -/
lemma Care.Follows.goesOn {i : ι} {w w₁ w' : UniWorld ι} {log log₁ log₂ log' : uniSig.State}
    {c c' : UniCommand} {k : Except Raised c.Answer → uniSig.State → Program uniSig Found}
    {k' : Except Raised c'.Answer → uniSig.State → Program uniSig Found} {x : c.Answer}
    {q : Program uniSig Found} (hresume : care.resume w.server.now (w.holds i))
    (hends : care.Ends asks w i c (.ok x) w₁) (hnext : k (.ok x) log = .await c' log₂ k')
    (h : care.Follows asks i w₁ log₂ (.await c' log₂ k') w' log' q) :
    care.Follows asks i w log (.await c log₁ k) w' log' q := by
  refine .await (fun _ => hresume) hends ?_
  rw [hnext]
  exact h

/-- The pool after a task has gone on. -/
lemma Care.Follows.reachable {now : ℚ} {log₀ log log' : uniSig.State} {i : ι} {w w' : UniWorld ι}
    {p q : Program uniSig Found} (h : care.Follows asks i w log p w' log' q) :
    ∀ {pool : Pool uniSig (UniWorld ι) ι Found},
      (uniScheduler asks care).Reachable (.initial now) log₀ pool → pool.world = w →
      pool.shared = log → pool.tasks i = some p → ∃ pool' : Pool uniSig (UniWorld ι) ι Found,
        (uniScheduler asks care).Reachable (.initial now) log₀ pool' ∧ pool'.world = w'
          ∧ pool'.shared = log' ∧ pool'.tasks i = some q
          ∧ ∀ j, j ≠ i → pool'.tasks j = pool.tasks j := by
  induction h with
  | refl w log p =>
      intro pool hpool hworld hshared htask
      exact ⟨pool, hpool, hworld, hshared, htask, fun j _ => rfl⟩
  | @await w w₁ w' log log₁ log' c k r q hresume hends _ ih =>
      rintro pool hpool rfl rfl htask
      have hnext := hpool.step (.resume pool i c log₁ k r (w₁.settle i r) pool.shared htask
        ⟨rfl, hresume, w₁, hends, rfl⟩)
      obtain ⟨pool', hpool', hworld, hshared, htask', hothers⟩ := ih hnext rfl rfl Pool.run_self
      exact ⟨pool', hpool', hworld, hshared, htask',
        fun j hj => (hothers j hj).trans (Pool.run_of_ne hj)⟩

/-- A lookup is entered and goes on. -/
lemma Care.Follows.enters {now : ℚ} {log₀ log' : uniSig.State} {i : ι} {w' : UniWorld ι}
    {q : Program uniSig Found} {pool : Pool uniSig (UniWorld ι) ι Found}
    (hpool : (uniScheduler asks care).Reachable (.initial now) log₀ pool)
    (hnew : pool.tasks i = none)
    (h : care.Follows asks i (pool.world.note asks i ((asks i).run pool.shared))
      (((asks i).run pool.shared).state?.getD pool.shared) ((asks i).run pool.shared) w' log' q) :
    ∃ pool' : Pool uniSig (UniWorld ι) ι Found,
      (uniScheduler asks care).Reachable (.initial now) log₀ pool' ∧ pool'.world = w'
        ∧ pool'.shared = log' ∧ pool'.tasks i = some q
        ∧ ∀ j, j ≠ i → pool'.tasks j = pool.tasks j := by
  have hstart := hpool.step (.start pool i (asks i).run hnew rfl)
  obtain ⟨pool', hpool', hworld, hshared, htask, hothers⟩ :=
    h.reachable hstart rfl rfl Pool.run_self
  exact ⟨pool', hpool', hworld, hshared, htask,
    fun j hj => (hothers j hj).trans (Pool.run_of_ne hj)⟩

omit [StandardLibrary] in
/-- What a run respects is no matter to a run that respects nothing. -/
lemma Care.Follows.free {i : ι} {w w' : UniWorld ι} {log log' : uniSig.State}
    {p q : Program uniSig Found} (h : care.Follows asks i w log p w' log' q) :
    Care.free.Follows asks i w log p w' log' q := by
  induction h with
  | refl w log p => exact .refl w log p
  | @await w w₁ w' log log₁ log' c k r q hresume hends _ ih =>
      refine .await (fun _ => trivial) ?_ ih
      cases c with
      | redis c =>
          rcases hends with hfails | ⟨-, hexecutes⟩
          · exact Or.inl hfails
          · exact Or.inr ⟨trivial, hexecutes⟩
      | getDepartment n =>
          rcases hends with hfails | ⟨v, -, hv⟩
          · exact Or.inl hfails
          · exact Or.inr ⟨v, trivial, hv⟩
      | getDepartments listing =>
          rcases hends with hfails | ⟨l, -, hl⟩
          · exact Or.inl hfails
          · exact Or.inr ⟨l, trivial, hl⟩

omit [StandardLibrary] in
/-- The server executes the command and answers. -/
lemma Care.ends_redis {w : UniWorld ι} {i : ι} {c : Keyspace.Command String String ℚ}
    (hcare : care.command w.toUniState c) : care.Ends asks w i (.redis c)
      (uniReply (w.server.exec c).1) (w.serve i c (w.server.exec c).2) :=
  Or.inr ⟨hcare, _, _, ⟨Keyspace.Command.reordered_self c _, rfl⟩, rfl, Or.inl rfl⟩

omit [StandardLibrary] in
/-- UniAPI answers. -/
lemma Care.ends_departments {w : UniWorld ι} {i : ι} {listing : Listing} {l : List Department}
    (hcare : care.answer (asks i) (.departments listing l)) :
    care.Ends asks w i (.getDepartments listing) (.ok l) (w.hear i (.departments listing l)) :=
  Or.inr ⟨l, hcare, rfl, rfl⟩

end Rule

end Atsig
