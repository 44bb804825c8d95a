import AtsigCommon.Redis.Transparent
import AtsigCommon.Redis.UniMap

/-!
# What the lookups give

A lookup gives records and sets of departments: what it read in the cache and what UniAPI told it
itself.  If all that it reads goes back to answers of UniAPI, so does all that it gives.

* `Lookup.Told` — what a lookup gives, as far as UniAPI has told it: every record, and the whole set
  of the departments of a university or of a school.
* `uniReads` — the terms on which a lookup reads.
* `lookup_gives` — **what a lookup gives has been told**, on these terms.
-/

namespace Atsig

open Coroutine Python

/-! ## What UniAPI told -/

/-- The answer gives the record of the department. -/
def UniAnswer.Records (n : ℤ) (v : Json) : UniAnswer → Prop
  | .department m w => m = n ∧ w = v
  | .departments _ l => ∃ d ∈ l, d.id = n ∧ d.record = v

/-- The answer has the department among those of the university. -/
def UniAnswer.Has (uniId n : ℤ) : UniAnswer → Prop
  | .department _ _ => False
  | .departments _ l => ∃ d ∈ l, d.universityId = some uniId ∧ d.id = n

/-- UniAPI was asked for the department by its id, and did not give it. -/
def UniAnswer.Lacks (n : ℤ) : UniAnswer → Prop
  | .departments (.byIds ids) l => n ∈ ids ∧ ∀ d ∈ l, d.id ≠ n
  | _ => False

/-- The departments that are mapped to a university are those that the answer has. -/
lemma UniAnswer.lists_iff_has {a : UniAnswer} {uniId n : ℤ} :
    a.Lists (toString n) (toString uniId) ↔ a.Has uniId n := by
  cases a with
  | department m v => exact Iff.rfl
  | departments listing l =>
      constructor
      · rintro ⟨d, hd, m, hm, hid, huniversity⟩
        obtain rfl := toString_int_injective hid
        obtain rfl := toString_int_injective huniversity
        exact ⟨d, hd, hm, rfl⟩
      · rintro ⟨d, hd, hm, rfl⟩
        exact ⟨d, hd, uniId, hm, rfl, rfl⟩

/-- Every record in the dictionary has been told. -/
def Recorded (told : Answered → Prop) (m : Dict ℤ Json) : Prop :=
  ∀ n v, m.get? n = some v → ∃ a, told a ∧ a.answer.Records n v

/-- **What a lookup gives has been told.**  By ids: the records of departments that were asked for,
and UniAPI denied those that are missing.  By universities: records, and of every university the
departments that one answer about it has.  By school: the records of one answer about the school.
By one id: the record, or an answer that there is none. -/
def Lookup.Told (told : Answered → Prop) : Lookup → Found → Prop
  | .departments (.byIds ids), .departments m => Recorded told m
      ∧ (∀ n, m.get? n ≠ none → n ∈ ids)
      ∧ ∀ n ∈ ids, m.get? n = none → ∃ a, told a ∧ a.answer.Lacks n
  | .departments (.byUniversityIds ids), .departments m => Recorded told m
      ∧ ∃ source : ℤ → Answered,
        (∀ uniId ∈ ids, told (source uniId) ∧ (source uniId).answer.About uniId)
          ∧ ∀ n, m.get? n ≠ none ↔ ∃ uniId ∈ ids, (source uniId).answer.Has uniId n
  | .departments (.bySchoolId schoolId), .departments m =>
      ∃ t l, told ⟨t, .departments (.bySchoolId schoolId) l⟩ ∧ m = departmentMap l
  | .department n, .department (some v) => ∃ a, told a ∧ a.answer.Records n v
  | .department n, .department none =>
      ∃ t v, told ⟨t, .department n v⟩ ∧ v.truthy = false
  | _, _ => False

variable {told told' : Answered → Prop}

lemma Recorded.mono {m : Dict ℤ Json} (h : Recorded told m) (htold : ∀ a, told a → told' a) :
    Recorded told' m := by
  intro n v hn
  obtain ⟨a, ha, hrecords⟩ := h n v hn
  exact ⟨a, htold a ha, hrecords⟩

lemma Recorded.set {m : Dict ℤ Json} (h : Recorded told m) {n : ℤ} {v : Json}
    (hv : ∃ a, told a ∧ a.answer.Records n v) : Recorded told (m.set n v) := by
  intro n' v' hn'
  rw [Dict.get?_set] at hn'
  split_ifs at hn' with hsame
  · obtain rfl := Option.some.inj hn'
    exact hsame ▸ hv
  · exact h n' v' hn'

lemma Recorded.merge {m m' : Dict ℤ Json} (h : Recorded told m) (h' : Recorded told m') :
    Recorded told (m.merge m') := by
  intro n v hn
  rw [Dict.get?_merge] at hn
  rcases Option.or_eq_some_iff.mp hn with hn | ⟨-, hn⟩
  · exact h' n v hn
  · exact h n v hn

lemma recorded_empty : Recorded told .empty := by
  intro n v hn
  cases hn

/-- What is told by fewer answers is told by more. -/
lemma Lookup.Told.mono {lookup : Lookup} {found : Found} (h : lookup.Told told found)
    (htold : ∀ a, told a → told' a) : lookup.Told told' found := by
  rcases lookup with (ids | ids | n) | n <;> rcases found with m | v
  · obtain ⟨hrecords, hasked, hlacks⟩ := h
    refine ⟨hrecords.mono htold, hasked, fun n hn hnone => ?_⟩
    obtain ⟨a, ha, hlack⟩ := hlacks n hn hnone
    exact ⟨a, htold a ha, hlack⟩
  · exact h
  · obtain ⟨hrecords, source, hsource, hset⟩ := h
    exact ⟨hrecords.mono htold, source,
      fun uniId hn => ⟨htold _ (hsource uniId hn).1, (hsource uniId hn).2⟩, hset⟩
  · exact h
  · obtain ⟨t, l, hl, hm⟩ := h
    exact ⟨t, l, htold _ hl, hm⟩
  · exact h
  · exact h
  · cases v with
    | some v =>
        obtain ⟨a, ha, hrecords⟩ := h
        exact ⟨a, htold a ha, hrecords⟩
    | none =>
        obtain ⟨t, v, hv, hfalsy⟩ := h
        exact ⟨t, v, htold _ hv, hfalsy⟩

/-! ## The terms of reading -/

/-- A lookup by universities, asking for the records of departments that the map has, is given all
of them. -/
def Lookup.Full : Lookup → UniAnswer → Prop
  | .departments (.byUniversityIds _), .departments (.byIds ids) l =>
      ∀ n ∈ ids, ∃ d ∈ l, d.id = n
  | _, _ => True

section Reading

variable [StandardLibrary]

/-- `json.loads` undoes `json.dumps` on what the cache stores of the answer. -/
def UniAnswer.Legible : UniAnswer → Prop
  | .department _ v => LoadsDumps v
  | .departments listing l => (∀ d ∈ l, LoadsDumps d.record)
      ∧ ∀ n, listing = .bySchoolId n → LoadsDumps (departmentMapJson (departmentMap l))

/-- What a lookup has been told, by UniAPI or by the cache. -/
structure Standing where
  lookup : Lookup
  told : Answered → Prop
  /-- An await has failed. -/
  failed : Bool

/-- What an answer goes back to. -/
def Standing.Brings (g : Standing) : (c : UniCommand) → c.Answer → Prop
  | .redis (.get key), (data : Option String) =>
      ∀ text, data = some text → ∃ a, g.told a ∧ a.answer.Says key text
  | .redis (.hgetall key), (map : Dict String String) =>
      key = uniHashKey → ∀ uniId, WholeOf g.told map uniId
  | .getDepartment n, (v : Json) => ∃ t, g.told ⟨t, .department n v⟩
  | .getDepartments listing, (l : List Department) =>
      ∃ t, g.told ⟨t, .departments listing l⟩ ∧ g.lookup.Full (.departments listing l)
  | _, _ => True

/-- All that has been told is proper, and can be read. -/
def Standing.Good (g : Standing) : Prop :=
  ∀ a, g.told a → a.answer.Proper ∧ a.answer.Legible

/-- The standing after an await. -/
def Standing.Next (g g' : Standing) {c : UniCommand} : Except Raised c.Answer → Prop
  | .ok a => g'.failed = g.failed ∧ g'.Brings c a
  | .error _ => g'.failed = true

/-- **The terms of reading**: every answer goes back to what UniAPI told. -/
def uniReads : Contract uniSig Standing where
  may _ _ _ := True
  env g _ _ r g' _ := g'.lookup = g.lookup ∧ (∀ a, g.told a → g'.told a) ∧ g'.Good ∧ g.Next g' r

/-- What a lookup gives, or that it failed: then it gives nothing. -/
def Standing.Gives (g : Standing) (found : Found) : Prop :=
  (g.failed = true ∧ (∃ n, g.lookup = .department n) ∧ found = .department none)
    ∨ g.failed = false ∧ g.lookup.Told g.told found

/-- Nothing has failed so far. -/
def Standing.Going (g : Standing) : Prop := g.Good ∧ g.failed = false

/-- A later standing of a lookup that has not failed. -/
structure Standing.Later (g g' : Standing) : Prop where
  lookup : g'.lookup = g.lookup
  told : ∀ a, g.told a → g'.told a
  going : g'.Going

/-- The coroutine reads on these terms, and what it returns satisfies `φ`. -/
def Reads {α : Type} (x : Uni α) (φ : α → Standing → Prop) (g : Standing) : Prop :=
  ∀ log, x.wp uniReads (fun a g' _ => g.Later g' ∧ φ a g') (fun _ _ _ => True) g log

variable {α β : Type} {g g' g'' : Standing}

lemma Standing.Going.refl (h : g.Going) : g.Later g := ⟨rfl, fun _ ha => ha, h⟩

lemma Standing.Later.trans (h : g.Later g') (h' : g'.Later g'') : g.Later g'' :=
  ⟨h'.lookup.trans h.lookup, fun a ha => h'.told a (h.told a ha), h'.going⟩

/-- **The rule of an await.** -/
lemma call_reads {c : UniCommand} {φ : c.Answer → Standing → uniSig.State → Prop}
    {ψ : Raised → Standing → uniSig.State → Prop} {log : uniSig.State} (hg : g.Going)
    (hok : ∀ a g' log', g.Later g' → g'.Brings c a → φ a g' log')
    (herror : ∀ e g' log', g'.lookup = g.lookup → g'.failed = true → ψ e g' log') :
    (Co.call (S := uniSig) c).wp uniReads φ ψ g log := by
  rw [Co.wp_call]
  refine ⟨trivial, fun a g' log' henv => ?_, fun e g' log' henv => ?_⟩
  · obtain ⟨hlookup, htold, hgood, hfailed, hbrings⟩ := henv
    exact hok a g' log' ⟨hlookup, htold, hgood, hfailed.trans hg.2⟩ hbrings
  · exact herror e g' log' henv.1 henv.2.2.2

section Rules

variable {x : Uni α} {f : α → Uni β} {φ : α → Standing → Prop} {ψ : β → Standing → Prop}

lemma Reads.bind (hx : Reads x φ g) (hf : ∀ a g', g.Later g' → φ a g' → Reads (f a) ψ g') :
    Reads (x >>= f) ψ g := by
  intro log
  rw [Co.wp_bind]
  refine Co.wp_mono (hx log) (fun a g' log' h => ?_) fun _ _ _ h => h
  exact Co.wp_mono (hf a g' h.1 h.2 log') (fun b g'' _ h' => ⟨h.1.trans h'.1, h'.2⟩)
    fun _ _ _ h => h

lemma reads_ret {a : α} (hg : g.Going) (h : φ a g) : Reads (Co.ret a) φ g :=
  fun _ => ⟨hg.refl, h⟩

lemma reads_call {c : UniCommand} (hg : g.Going) :
    Reads (Co.call (S := uniSig) c) (fun a g' => g'.Brings c a) g :=
  fun _ => call_reads hg (fun _ _ _ hlater hbrings => ⟨hlater, hbrings⟩) fun _ _ _ _ _ => trivial

/-- Writing to the log is no await. -/
lemma reads_log_bind {level : Level} {text : String} {x : Uni β} (hx : Reads x ψ g) :
    Reads (writeUniLog level text >>= fun _ => x) ψ g := by
  intro log
  rw [Co.wp_bind, wp_writeUniLog]
  exact hx _

lemma Reads.ite {p : Prop} [Decidable p] {y : Uni α} (hx : Reads x φ g) (hy : Reads y φ g) :
    Reads (if p then x else y) φ g := by
  split
  · exact hx
  · exact hy

/-- A plain function, if it returns. -/
lemma reads_ofExcept {y : Except PyException α} (hg : g.Going) :
    Reads (Uni.ofExcept y) (fun a _ => y = .ok a) g := by
  cases y with
  | ok a => exact reads_ret hg rfl
  | error e => exact fun _ => trivial

end Rules

/-! ## The lookups by id -/

/-- `get_json`: what is read is a record that has been told. -/
lemma reads_getJson (hg : g.Going) (key : String) : Reads (RedisManager.getJson key)
    (fun data g' => ∀ v, data = some v → ∃ text a, StandardLibrary.loads text = .ok v ∧ g'.told a
      ∧ a.answer.Says key text) g := by
  refine Reads.bind (reads_call hg) fun data g' hlater hbrings => ?_
  cases data with
  | none => exact reads_ret hlater.going nofun
  | some text =>
      obtain ⟨a, ha, hsaid⟩ := hbrings text rfl
      dsimp only
      split_ifs with hempty
      · exact reads_ret hlater.going nofun
      · refine Reads.bind (reads_ofExcept hlater.going) fun v g'' hlater' hloads => ?_
        refine reads_ret hlater'.going fun v' hv' => ?_
        obtain rfl := Option.some.inj hv'
        exact ⟨text, a, hloads, hlater'.told a ha, hsaid⟩

/-- The text of a department is that of its record. -/
lemma Standing.Good.records (hgood : g.Good) {a : Answered} (ha : g.told a) {n : ℤ}
    {text : String} {v : Json} (hsaid : a.answer.Says (deptKey n) text)
    (hloads : StandardLibrary.loads text = .ok v) : a.answer.Records n v := by
  obtain ⟨t, answer⟩ := a
  have hlegible := (hgood _ ha).2
  cases answer with
  | department m w =>
      obtain ⟨hkey, rfl⟩ := hsaid
      have hsame : Except.ok w = .ok v := hlegible.symm.trans hloads
      exact ⟨(deptKey_injective hkey).symm, Except.ok.inj hsame⟩
  | departments listing l =>
      rcases hsaid with ⟨d, hd, hkey, rfl⟩ | ⟨m, -, hkey, -⟩
      · have hsame : Except.ok d.record = .ok v := (hlegible.1 d hd).symm.trans hloads
        exact ⟨d, hd, (deptKey_injective hkey).symm, Except.ok.inj hsame⟩
      · exact absurd hkey (deptKey_ne_schoolKey _ _)

/-- `get_json`, of a department. -/
lemma reads_getJson_department (hg : g.Going) (n : ℤ) :
    Reads (RedisManager.getJson (deptKey n)) (fun data g' => ∀ v,
      data.filter Json.truthy = some v → ∃ a, g'.told a ∧ a.answer.Records n v) g := by
  intro log
  refine Co.wp_mono (reads_getJson hg (deptKey n) log) (fun data g' _ h => ⟨h.1, fun v hv => ?_⟩)
    fun _ _ _ h => h
  obtain ⟨text, a, hloads, ha, hsaid⟩ := h.2 v (Option.filter_eq_some_iff.mp hv).1
  exact ⟨a, ha, h.1.going.1.records ha hsaid hloads⟩

/-- The loop over the ids: some are found, and the others are missing. -/
lemma reads_readDepartments : ∀ (ids : List ℤ) (m : Dict ℤ Json) (missing : List ℤ)
    {g : Standing}, g.Going → Recorded g.told m →
    Reads (readDepartments m missing ids) (fun r g' => Recorded g'.told r.1
      ∧ ∃ hits new : List ℤ, r.2 = missing ++ new ∧ (∀ n, n ∈ ids ↔ n ∈ hits ∨ n ∈ new)
        ∧ ∀ n, r.1.get? n ≠ none ↔ m.get? n ≠ none ∨ n ∈ hits) g
  | [], m, missing, g, hg, hm =>
      reads_ret hg ⟨hm, [], [], (List.append_nil _).symm, by simp, by simp⟩
  | id :: ids, m, missing, g, hg, hm => by
      refine Reads.bind (reads_getJson_department hg id) fun data g' hlater hdata => ?_
      cases hv : data.filter Json.truthy with
      | some v =>
          have hset : Recorded g'.told (m.set id v) := (hm.mono hlater.told).set (hdata v hv)
          refine reads_log_bind fun log => ?_
          refine Co.wp_mono (reads_readDepartments ids (m.set id v) missing hlater.going hset log)
            (fun r g'' _ h => ⟨h.1, h.2.1, ?_⟩) fun _ _ _ h => h
          obtain ⟨hits, new, hmissing, hids, hkeys⟩ := h.2.2
          refine ⟨id :: hits, new, hmissing, fun n => ?_, fun n => (hkeys n).trans ?_⟩
          · rw [List.mem_cons, hids, List.mem_cons, or_assoc]
          · rw [Dict.get?_set, List.mem_cons]
            by_cases hn : n = id
            · simp [hn]
            · simp [hn]
      | none =>
          refine reads_log_bind fun log => ?_
          refine Co.wp_mono (reads_readDepartments ids m (missing ++ [id]) hlater.going
            (hm.mono hlater.told) log) (fun r g'' _ h => ⟨h.1, h.2.1, ?_⟩) fun _ _ _ h => h
          obtain ⟨hits, new, hmissing, hids, hkeys⟩ := h.2.2
          refine ⟨hits, id :: new, by simp [hmissing], fun n => ?_, hkeys⟩
          rw [List.mem_cons, hids, List.mem_cons, or_left_comm]

/-- The loop over what UniAPI has given. -/
lemma reads_storeDepartments {t : ℚ} {listing : Listing} {l : List Department} :
    ∀ (l' : List Department) (m : Dict ℤ Json) {g : Standing}, (∀ d ∈ l', d ∈ l) → g.Going →
    g.told ⟨t, .departments listing l⟩ → Recorded g.told m →
    Reads (storeDepartments m l') (fun m' g' => Recorded g'.told m'
      ∧ ∀ n, m'.get? n ≠ none ↔ m.get? n ≠ none ∨ ∃ d ∈ l', d.id = n) g
  | [], m, g, _, hg, _, hm => reads_ret hg ⟨hm, by simp⟩
  | d :: l', m, g, hl, hg, htold, hm => by
      refine Reads.bind (reads_call hg) fun _ g' hlater _ => ?_
      have hrecord : ∃ a, g'.told a ∧ a.answer.Records d.id d.record :=
        ⟨_, hlater.told _ htold, d, hl d (List.mem_cons_self ..), rfl, rfl⟩
      have hset : Recorded g'.told (m.set d.id d.record) := (hm.mono hlater.told).set hrecord
      have hothers : ∀ d' ∈ l', d' ∈ l := fun d' hd' => hl d' (List.mem_cons_of_mem d hd')
      intro log
      refine Co.wp_mono (reads_storeDepartments l' _ hothers hlater.going (hlater.told _ htold) hset
        log) (fun m' g'' _ h => ⟨h.1, h.2.1, fun n => ?_⟩) fun _ _ _ h => h
      rw [h.2.2 n, Dict.get?_set]
      by_cases hn : n = d.id
      · simp [hn]
      · have hne : ¬ d.id = n := fun h => hn h.symm
        simp [hn, hne]

/-- What a lookup by ids gives. -/
structure ByIds (ids : List ℤ) (m : Dict ℤ Json) (g : Standing) : Prop where
  records : Recorded g.told m
  asked : ∀ n, m.get? n ≠ none → n ∈ ids
  lacks : ∀ n ∈ ids, m.get? n = none → ∃ a, g.told a ∧ a.answer.Lacks n
  /-- A lookup by universities misses nothing. -/
  full : ∀ uniIds, g.lookup = .departments (.byUniversityIds uniIds) → ∀ n ∈ ids, m.get? n ≠ none

/-- **By ids.** -/
lemma reads_getDepartmentsByIdsCached (hg : g.Going) (ids : List ℤ) :
    Reads (getDepartmentsByIdsCached ids) (ByIds ids) g := by
  refine Reads.bind (reads_readDepartments ids .empty [] hg recorded_empty) ?_
  rintro ⟨m, new⟩ g₁ hlater₁ ⟨hm, hits, new, rfl, hids, hkeys⟩
  simp only [Dict.get?_empty, ne_eq, not_true_eq_false, false_or] at hm hkeys ⊢
  split_ifs with hnew
  · rw [List.isEmpty_iff] at hnew
    subst hnew
    have hall : ∀ n ∈ ids, m.get? n ≠ none := fun n hn =>
      (hkeys n).mpr (((hids n).mp hn).resolve_right List.not_mem_nil)
    exact reads_ret hlater₁.going ⟨hm, fun n hn => (hids n).mpr (Or.inl ((hkeys n).mp hn)),
      fun n hn hnone => absurd hnone (hall n hn), fun _ _ => hall⟩
  · refine reads_log_bind ?_
    refine Reads.bind (reads_call hlater₁.going) fun l g₂ hlater₂ hbrings => ?_
    obtain ⟨t, htold, hfull⟩ := hbrings
    refine Reads.bind (reads_storeDepartments l m (fun _ hd => hd) hlater₂.going htold
      (hm.mono hlater₂.told)) fun m' g₃ hlater₃ h => ?_
    obtain ⟨hm', hkeys'⟩ := h
    have htold' : g₃.told ⟨t, .departments (.byIds new) l⟩ := hlater₃.told _ htold
    have hproper := (hlater₃.going.1 _ htold').1
    refine reads_log_bind (reads_ret hlater₃.going ⟨hm', fun n hn => ?_, fun n hn hnone => ?_,
      fun uniIds hlookup n hn => ?_⟩)
    · rcases (hkeys' n).mp hn with hn | ⟨d, hd, rfl⟩
      · exact (hids n).mpr (Or.inl ((hkeys n).mp hn))
      · exact (hids _).mpr (Or.inr (hproper.2 d hd))
    · have hmissing : n ∉ hits ∧ ∀ d ∈ l, d.id ≠ n := by
        refine ⟨fun hhit => (hkeys' n).mpr (Or.inl ((hkeys n).mpr hhit)) hnone, ?_⟩
        exact fun d hd hid => (hkeys' n).mpr (Or.inr ⟨d, hd, hid⟩) hnone
      exact ⟨_, htold', ((hids n).mp hn).resolve_left hmissing.1, hmissing.2⟩
    · rw [hkeys']
      rcases (hids n).mp hn with hhit | hmissing
      · exact Or.inl ((hkeys n).mpr hhit)
      · rw [hlater₃.lookup] at hlookup
        rw [hlookup] at hfull
        exact Or.inr (hfull n hmissing)

/-! ## The lookups by university -/

/-- The map has departments of the university. -/
def Mapped (map : Dict String String) (uniId : ℤ) : Prop :=
  ∃ depId, map.get? depId = some (toString uniId)

omit [StandardLibrary] in
/-- The departments of a university that a whole map has. -/
lemma uniDepIds_whole {map : Dict String String} (hmap : ∀ uniId, WholeOf told map uniId)
    (uniId : ℤ) : ∃ depIds, uniDepIds uniId map = .ok depIds
      ∧ (∀ n, n ∈ depIds ↔ map.get? (toString n) = some (toString uniId))
      ∧ (depIds = [] ↔ ¬ Mapped map uniId) := by
  have hitems : ∀ x ∈ map.items, ∃ n m : ℤ, x.1 = toString n ∧ x.2 = toString m := by
    rintro ⟨f, v⟩ hx
    rcases hmap v with hnone | ⟨m, a, rfl, -, -, hlists⟩
    · exact absurd (Dict.get?_eq_some_iff.mpr hx) (hnone f)
    · have hlisted := (hlists f).mp (Dict.get?_eq_some_iff.mpr hx)
      obtain ⟨t, answer⟩ := a
      cases answer with
      | department n w => exact absurd hlisted id
      | departments listing l =>
          obtain ⟨d, -, -, -, hid, -⟩ := hlisted
          exact ⟨d.id, m, hid, rfl⟩
  obtain ⟨depIds, hdepIds, hmem⟩ := comprehendIf_ok
    (fun _ uId => (parseInt uId).map fun n => decide (n = uniId))
    (fun depId _ => parseInt depId) map.items
    (fun x hx => by
      obtain ⟨n, m, -, hm⟩ := hitems x hx
      exact ⟨_, by rw [hm, parseInt_toString]; rfl⟩)
    fun x hx _ => by
      obtain ⟨n, m, hn, -⟩ := hitems x hx
      exact ⟨n, by rw [hn, parseInt_toString]⟩
  have hlisted : ∀ n, n ∈ depIds ↔ map.get? (toString n) = some (toString uniId) := by
    refine fun n => (hmem n).trans ⟨?_, fun hn => ?_⟩
    · rintro ⟨⟨f, v⟩, hx, hp, hf⟩
      obtain ⟨n', m, rfl, rfl⟩ := hitems _ hx
      rw [parseInt_toString] at hp hf
      obtain rfl : m = uniId := of_decide_eq_true (Except.ok.inj hp)
      obtain rfl := Except.ok.inj hf
      exact Dict.get?_eq_some_iff.mpr hx
    · refine ⟨_, Dict.get?_eq_some_iff.mp hn, ?_, parseInt_toString n⟩
      rw [parseInt_toString]
      exact congrArg Except.ok (decide_eq_true rfl)
  refine ⟨depIds, hdepIds, hlisted, ?_, fun hunmapped => ?_⟩
  · rintro rfl ⟨f, hf⟩
    obtain ⟨n, m, rfl, -⟩ := hitems _ (Dict.get?_eq_some_iff.mp hf)
    exact absurd ((hlisted n).mpr hf) List.not_mem_nil
  · exact List.eq_nil_iff_forall_not_mem.mpr fun n hn => hunmapped ⟨_, (hlisted n).mp hn⟩

/-- The loop over the universities: those that are in the map are found, with all departments that
it has of them, and the others are missing. -/
lemma reads_readUniversities {map : Dict String String} {uniIds : List ℤ} :
    ∀ (ids : List ℤ) (m : Dict ℤ Json) (missing : List ℤ) {g : Standing}, g.Going →
    g.lookup = .departments (.byUniversityIds uniIds) → (∀ uniId, WholeOf g.told map uniId) →
    Recorded g.told m →
    Reads (readUniversities map m missing ids) (fun r g' => Recorded g'.told r.1
      ∧ ∃ hits new : List ℤ, r.2 = missing ++ new ∧ (∀ n, n ∈ ids ↔ n ∈ hits ∨ n ∈ new)
        ∧ (∀ n ∈ hits, Mapped map n) ∧ (∀ n ∈ new, ¬ Mapped map n)
        ∧ ∀ n, r.1.get? n ≠ none ↔ m.get? n ≠ none
          ∨ ∃ uniId ∈ hits, map.get? (toString n) = some (toString uniId)) g
  | [], m, missing, g, hg, _, _, hm =>
      reads_ret hg ⟨hm, [], [], (List.append_nil _).symm, by simp, by simp, by simp, by simp⟩
  | uniId :: ids, m, missing, g, hg, hlookup, hmap, hm => by
      obtain ⟨depIds, hdepIds, hlisted, hnil⟩ := uniDepIds_whole hmap uniId
      rw [readUniversities, hdepIds, Uni.ofExcept_ok]
      show Reads (ite (depIds.isEmpty = true) _ _) _ g
      split_ifs with hempty
      · have hunmapped := hnil.mp (List.isEmpty_iff.mp hempty)
        refine reads_log_bind fun log => ?_
        refine Co.wp_mono (reads_readUniversities ids m (missing ++ [uniId]) hg hlookup hmap hm log)
          (fun r g' _ h => ⟨h.1, h.2.1, ?_⟩) fun _ _ _ h => h
        obtain ⟨hits, new, hmissing, hids, hhits, hnew, hkeys⟩ := h.2.2
        refine ⟨hits, uniId :: new, by simp [hmissing], fun n => ?_, hhits, fun n hn => ?_, hkeys⟩
        · rw [List.mem_cons, hids, List.mem_cons, or_left_comm]
        · rcases List.mem_cons.mp hn with rfl | hn
          · exact hunmapped
          · exact hnew n hn
      · have hmapped : Mapped map uniId := by
          by_contra hunmapped
          exact hempty (List.isEmpty_iff.mpr (hnil.mpr hunmapped))
        refine reads_log_bind ?_
        refine Reads.bind (reads_getDepartmentsByIdsCached hg depIds)
          fun cachedDeps g₁ hlater₁ hdeps => ?_
        have hfull : ∀ n, cachedDeps.get? n ≠ none
            ↔ map.get? (toString n) = some (toString uniId) := fun n =>
          ⟨fun hn => (hlisted n).mp (hdeps.asked n hn),
            fun hn => hdeps.full uniIds (hlater₁.lookup.trans hlookup) n ((hlisted n).mpr hn)⟩
        intro log
        refine Co.wp_mono (reads_readUniversities ids (m.merge cachedDeps) missing hlater₁.going
          (hlater₁.lookup.trans hlookup) (fun v => (hmap v).mono hlater₁.told)
          ((hm.mono hlater₁.told).merge hdeps.records) log)
          (fun r g' _ h => ⟨h.1, h.2.1, ?_⟩) fun _ _ _ h => h
        obtain ⟨hits, new, hmissing, hids, hhits, hnew, hkeys⟩ := h.2.2
        refine ⟨uniId :: hits, new, hmissing, fun n => ?_, fun n hn => ?_, hnew, fun n => ?_⟩
        · rw [List.mem_cons, hids, List.mem_cons, or_assoc]
        · rcases List.mem_cons.mp hn with rfl | hn
          · exact hmapped
          · exact hhits n hn
        · have hmerge : (m.merge cachedDeps).get? n ≠ none
              ↔ cachedDeps.get? n ≠ none ∨ m.get? n ≠ none := by
            rw [Dict.get?_merge]
            cases cachedDeps.get? n <;> simp
          rw [hkeys, hmerge, hfull, List.exists_mem_cons_iff, or_assoc, or_left_comm]

/-- The map is updated: whatever comes of it, what has been told stays. -/
lemma reads_updateDepartmentUniversityMap (hg : g.Going) (l : List Department) :
    Reads (updateDepartmentUniversityMap l) (fun _ _ => True) g := by
  have hfinish : ∀ {g : Standing}, g.Going → Reads (do
      RedisManager.hset uniHashKey (universityMapping l)
      RedisManager.expire uniHashKey cacheTtl
      writeUniLog .info "[UniCache] University map update completed" : Uni Unit)
      (fun _ _ => True) g := by
    intro g hg
    refine Reads.bind (φ := fun _ _ => True) ?_ fun _ g₁ hlater₁ _ => ?_
    · refine Reads.ite (fun _ => trivial) fun log => ?_
      exact Co.wp_mono (reads_call hg log) (fun _ _ _ h => ⟨h.1, trivial⟩) fun _ _ _ h => h
    · refine Reads.bind (reads_call hlater₁.going) fun _ g₂ hlater₂ _ => ?_
      exact fun _ => ⟨hlater₂.going.refl, trivial⟩
  rw [updateDepartmentUniversityMap]
  split_ifs with hempty
  · exact reads_ret hg trivial
  refine reads_log_bind ?_
  refine Reads.bind (reads_call hg) fun existingMap g₁ hlater₁ _ => ?_
  refine Reads.bind (reads_ofExcept hlater₁.going) fun toDelete g₂ hlater₂ _ => ?_
  split_ifs
  · refine reads_log_bind ?_
    exact Reads.bind (reads_call hlater₂.going) fun _ g₃ hlater₃ _ => hfinish hlater₃.going
  · exact hfinish hlater₂.going

omit [StandardLibrary] in
/-- Every university that a whole map has goes back to one answer about it. -/
lemma exists_source {map : Dict String String} (hmap : ∀ uniId, WholeOf told map uniId) :
    ∃ source : ℤ → Answered, ∀ uniId, Mapped map uniId →
      told (source uniId) ∧ (source uniId).answer.About uniId
        ∧ ∀ n, map.get? (toString n) = some (toString uniId)
          ↔ (source uniId).answer.Has uniId n := by
  have hsource : ∀ uniId, ∃ a, Mapped map uniId → told a ∧ a.answer.About uniId
      ∧ ∀ n, map.get? (toString n) = some (toString uniId) ↔ a.answer.Has uniId n := by
    intro uniId
    by_cases hmapped : Mapped map uniId
    · rcases hmap (toString uniId) with hnone | ⟨n, a, hn, ha, habout, hlists⟩
      · obtain ⟨depId, hdepId⟩ := hmapped
        exact absurd hdepId (hnone depId)
      · obtain rfl := toString_int_injective hn
        exact ⟨a, fun _ => ⟨ha, habout, fun n => (hlists _).trans UniAnswer.lists_iff_has⟩⟩
    · exact ⟨⟨0, .department 0 .null⟩, fun h => absurd h hmapped⟩
  choose source hsource using hsource
  exact ⟨source, hsource⟩

/-- What the loop over the universities has found: the departments that the map has of some of
them, and the others are not in the map. -/
structure FoundIn (map : Dict String String) (ids hits new : List ℤ) (m : Dict ℤ Json) :
    Prop where
  ids_iff : ∀ uniId, uniId ∈ ids ↔ uniId ∈ hits ∨ uniId ∈ new
  mapped : ∀ uniId ∈ hits, Mapped map uniId
  unmapped : ∀ uniId ∈ new, ¬ Mapped map uniId
  keys : ∀ n, m.get? n ≠ none ↔ ∃ uniId ∈ hits, map.get? (toString n) = some (toString uniId)

section FoundIn

variable {map : Dict String String} {ids hits new : List ℤ} {m m' : Dict ℤ Json}

omit [StandardLibrary] in
/-- All are in the map. -/
lemma FoundIn.told_of_map (h : FoundIn map ids hits [] m) (hmap : ∀ uniId, WholeOf told map uniId)
    (hm : Recorded told m) :
    (Lookup.departments (.byUniversityIds ids)).Told told (.departments m) := by
  obtain ⟨source, hsource⟩ := exists_source hmap
  have hids : ∀ uniId, uniId ∈ ids ↔ uniId ∈ hits := by simpa using h.ids_iff
  refine ⟨hm, source, fun uniId hn => ?_, fun n => ?_⟩
  · obtain ⟨ha, habout, -⟩ := hsource uniId (h.mapped uniId ((hids uniId).mp hn))
    exact ⟨ha, habout⟩
  · simp only [h.keys, hids]
    exact exists_congr fun uniId => and_congr_right fun hhit =>
      (hsource uniId (h.mapped uniId hhit)).2.2 n

omit [StandardLibrary] in
/-- UniAPI itself has told about those that are not in the map. -/
lemma FoundIn.told_of_answer (h : FoundIn map ids hits new m)
    (hmap : ∀ uniId, WholeOf told map uniId) (hm' : Recorded told m') {t : ℚ}
    {l : List Department} (ha : told ⟨t, .departments (.byUniversityIds new) l⟩)
    (hproper : (UniAnswer.departments (.byUniversityIds new) l).Proper)
    (hkeys : ∀ n, m'.get? n ≠ none ↔ m.get? n ≠ none ∨ ∃ d ∈ l, d.id = n) :
    (Lookup.departments (.byUniversityIds ids)).Told told (.departments m') := by
  obtain ⟨source, hsource⟩ := exists_source hmap
  classical
  let source' : ℤ → Answered := fun uniId =>
    if uniId ∈ new then ⟨t, .departments (.byUniversityIds new) l⟩ else source uniId
  have hmissing : ∀ {uniId}, uniId ∈ new →
      source' uniId = ⟨t, .departments (.byUniversityIds new) l⟩ := fun hn => if_pos hn
  have hfound : ∀ {uniId}, uniId ∈ hits → source' uniId = source uniId := fun hhit =>
    if_neg fun hn => h.unmapped _ hn (h.mapped _ hhit)
  refine ⟨hm', source', fun uniId hn => ?_, fun n => ?_⟩
  · rcases (h.ids_iff uniId).mp hn with hhit | hmiss
    · obtain ⟨ha, habout, -⟩ := hsource uniId (h.mapped uniId hhit)
      rw [hfound hhit]
      exact ⟨ha, habout⟩
    · rw [hmissing hmiss]
      exact ⟨ha, hmiss⟩
  · refine (hkeys n).trans ⟨?_, ?_⟩
    · rintro (hn | ⟨d, hd, rfl⟩)
      · obtain ⟨uniId, hhit, hn⟩ := (h.keys n).mp hn
        refine ⟨uniId, (h.ids_iff uniId).mpr (Or.inl hhit), ?_⟩
        rw [hfound hhit]
        exact ((hsource uniId (h.mapped uniId hhit)).2.2 n).mp hn
      · obtain ⟨uniId, hmiss, huniversity⟩ := hproper.2 d hd
        refine ⟨uniId, (h.ids_iff uniId).mpr (Or.inr hmiss), ?_⟩
        rw [hmissing hmiss]
        exact ⟨d, hd, huniversity, rfl⟩
    · rintro ⟨uniId, hn, hhas⟩
      rcases (h.ids_iff uniId).mp hn with hhit | hmiss
      · rw [hfound hhit] at hhas
        exact Or.inl ((h.keys n).mpr
          ⟨uniId, hhit, ((hsource uniId (h.mapped uniId hhit)).2.2 n).mpr hhas⟩)
      · rw [hmissing hmiss] at hhas
        obtain ⟨d, hd, -, hid⟩ := hhas
        exact Or.inr ⟨d, hd, hid⟩

end FoundIn

/-- **By universities.** -/
lemma reads_getDepartmentsByUniversityIdsCached (hg : g.Going) {ids : List ℤ}
    (hlookup : g.lookup = .departments (.byUniversityIds ids)) :
    Reads (getDepartmentsByUniversityIdsCached ids) (fun m g' =>
      (Lookup.departments (.byUniversityIds ids)).Told g'.told (.departments m)) g := by
  rw [getDepartmentsByUniversityIdsCached]
  split_ifs with hempty
  · rw [List.isEmpty_iff] at hempty
    subst hempty
    exact reads_ret hg ⟨recorded_empty, fun _ => ⟨0, .department 0 .null⟩, by simp, by simp⟩
  refine reads_log_bind ?_
  refine Reads.bind (reads_call hg) fun map g₁ hlater₁ hbrings => ?_
  have hmap : ∀ uniId, WholeOf g₁.told map uniId := hbrings rfl
  refine Reads.bind (reads_readUniversities ids .empty [] hlater₁.going
    (hlater₁.lookup.trans hlookup) hmap recorded_empty) ?_
  rintro ⟨m, new⟩ g₂ hlater₂ ⟨hm, hits, new, rfl, hids, hhits, hnew, hkeys⟩
  simp only [Dict.get?_empty, ne_eq, not_true_eq_false, false_or] at hm hkeys ⊢
  have hfound : FoundIn map ids hits new m := ⟨hids, hhits, hnew, hkeys⟩
  split_ifs with hnil
  · rw [List.isEmpty_iff] at hnil
    subst hnil
    exact reads_ret hlater₂.going (hfound.told_of_map (fun v => (hmap v).mono hlater₂.told) hm)
  · refine reads_log_bind ?_
    refine Reads.bind (reads_call hlater₂.going) fun l g₃ hlater₃ hbrings' => ?_
    obtain ⟨t, htold, -⟩ := hbrings'
    refine Reads.bind (reads_storeDepartments l m (fun _ hd => hd) hlater₃.going htold
      (hm.mono hlater₃.told)) fun m' g₄ hlater₄ h => ?_
    obtain ⟨hm', hkeys'⟩ := h
    refine Reads.bind (reads_updateDepartmentUniversityMap hlater₄.going l)
      fun _ g₅ hlater₅ _ => ?_
    have hlater := (hlater₂.trans hlater₃).trans (hlater₄.trans hlater₅)
    have htold' := hlater₅.told _ (hlater₄.told _ htold)
    exact reads_ret hlater₅.going (hfound.told_of_answer (fun v => (hmap v).mono hlater.told)
      (hm'.mono hlater₅.told) htold' (hlater₅.going.1 _ htold').1 hkeys')

/-! ## The lookups by school and by one id -/

/-- **By school.** -/
lemma reads_getDepartmentsBySchoolIdCached (hg : g.Going) (n : ℤ) :
    Reads (getDepartmentsBySchoolIdCached n) (fun m g' =>
      (Lookup.departments (.bySchoolId n)).Told g'.told (.departments m)) g := by
  refine Reads.bind (reads_getJson hg (schoolKey n)) fun data g₁ hlater₁ hdata => ?_
  cases hv : data.filter Json.truthy with
  | some v =>
      refine Reads.bind (reads_ofExcept hlater₁.going) fun _ g₂ hlater₂ _ => ?_
      refine reads_log_bind fun log => ?_
      refine Co.wp_mono (reads_ofExcept hlater₂.going log) (fun m g₃ _ h => ⟨h.1, ?_⟩)
        fun _ _ _ h => h
      obtain ⟨text, ⟨t, answer⟩, hloads, ha, hsaid⟩ := hdata v (Option.filter_eq_some_iff.mp hv).1
      have hlegible := (hlater₁.going.1 _ ha).2
      cases answer with
      | department m w => exact absurd hsaid.1.symm (deptKey_ne_schoolKey _ _)
      | departments listing l =>
          rcases hsaid with ⟨d, -, hkey, -⟩ | ⟨n', rfl, hkey, rfl⟩
          · exact absurd hkey.symm (deptKey_ne_schoolKey _ _)
          · obtain rfl := schoolKey_injective hkey
            have hsame : Except.ok (departmentMapJson (departmentMap l)) = .ok v :=
              (hlegible.2 n rfl).symm.trans hloads
            obtain rfl := Except.ok.inj hsame
            have hm : Except.ok (departmentMap l) = .ok m :=
              (UniData.schoolDepartments_departmentMapJson (departmentMap l)).symm.trans h.2
            exact ⟨t, l, h.1.told _ (hlater₂.told _ ha), (Except.ok.inj hm).symm⟩
  | none =>
      refine reads_log_bind ?_
      refine Reads.bind (reads_call hlater₁.going) fun l g₂ hlater₂ hbrings => ?_
      obtain ⟨t, htold, -⟩ := hbrings
      refine Reads.bind (reads_call hlater₂.going) fun _ g₃ hlater₃ _ => ?_
      exact reads_log_bind (reads_ret hlater₃.going ⟨t, l, hlater₃.told _ htold, rfl⟩)

/-- What is caught goes on in the handler. -/
lemma exceptException_reads {x : Uni α} {handler : PyException → Uni α}
    {φ : α → Standing → uniSig.State → Prop} {log : uniSig.State}
    (h : x.wp uniReads φ (fun e g' log' => ∀ error, e = .exception error →
      (handler error).wp uniReads φ (fun _ _ _ => True) g' log') g log) :
    (Uni.exceptException x handler).wp uniReads φ (fun _ _ _ => True) g log := by
  rw [Uni.exceptException, Co.wp_protect]
  refine Co.wp_mono h (fun _ _ _ h => h) fun e g' log' h => ?_
  cases e with
  | exception error => exact h error rfl
  | cancelled => trivial

/-- **By one id**: the record, or nothing when UniAPI has none or when something has failed. -/
lemma reads_getDepartmentByIdCached (hg : g.Going) {n : ℤ} (hlookup : g.lookup = .department n)
    (log : uniSig.State) : (getDepartmentByIdCached n).wp uniReads
      (fun v g' _ => g'.Gives (.department v)) (fun _ _ _ => True) g log := by
  have hgives : ∀ {g₁ g₂ : Standing} {v : Option Json}, g.Later g₁ → g₁.Later g₂ →
      (Lookup.department n).Told g₂.told (.department v) → g₂.Gives (.department v) := by
    intro g₁ g₂ v hlater hlater' htold
    refine Or.inr ⟨hlater'.going.2, ?_⟩
    rw [hlater'.lookup, hlater.lookup, hlookup]
    exact htold
  rw [getDepartmentByIdCached, Co.wp_bind]
  refine Co.wp_mono (reads_getJson_department hg n log) (fun data g₁ log₁ h => ?_)
    fun _ _ _ h => h
  obtain ⟨hlater₁, hdata⟩ := h
  cases hv : data.filter Json.truthy with
  | some v => exact hgives hlater₁ hlater₁.going.refl (hdata v hv)
  | none =>
      -- whatever fails from here on is caught, and nothing is given
      have hfails : ∀ (e : Raised) (g' : Standing) (log' : uniSig.State), g'.lookup = g.lookup →
          g'.failed = true → ∀ error, e = .exception error → (do
            writeUniLog .error ("[UniCache] Failed to fetch department:" ++ toString n
              ++ " from API: " ++ error.text)
            return none : Uni (Option Json)).wp uniReads
              (fun v g' _ => g'.Gives (.department v)) (fun _ _ _ => True) g' log' :=
        fun _ _ _ hlookup' hfailed _ _ => Or.inl ⟨hfailed, ⟨n, hlookup'.trans hlookup⟩, rfl⟩
      simp only [Co.wp_bind, wp_writeUniLog]
      refine exceptException_reads ?_
      rw [Co.wp_bind]
      refine call_reads hlater₁.going (fun v g₂ log₂ hlater₂ hbrings => ?_)
        fun e g₂ log₂ hlookup₂ => hfails e g₂ log₂ (hlookup₂.trans hlater₁.lookup)
      obtain ⟨t, htold⟩ := hbrings
      split_ifs with htruthy
      · simp only [Co.wp_bind, wp_writeUniLog]
        refine call_reads hlater₂.going (fun _ g₃ log₃ hlater₃ _ => ?_)
          fun e g₃ log₃ hlookup₃ => hfails e g₃ log₃
            (hlookup₃.trans (hlater₂.lookup.trans hlater₁.lookup))
        exact hgives (hlater₁.trans hlater₂) hlater₃ ⟨_, hlater₃.told _ htold, rfl, rfl⟩
      · exact hgives (hlater₁.trans hlater₂) hlater₂.going.refl
          ⟨t, v, htold, by simpa using htruthy⟩

/-- **What a lookup gives has been told.** -/
theorem lookup_gives (hg : g.Going) (log : uniSig.State) : (g.lookup.run).wp uniReads
    (fun found g' _ => g'.Gives found) (fun _ _ _ => True) g log := by
  -- what is returned with a dictionary has not failed
  have hdepartments : ∀ {listing : Listing} {x : Uni (Dict ℤ Json)},
      g.lookup = .departments listing →
      Reads x (fun m g' => (Lookup.departments listing).Told g'.told (.departments m)) g →
      (do return .departments (← x) : Uni Found).wp uniReads (fun found g' _ => g'.Gives found)
        (fun _ _ _ => True) g log := by
    intro listing x hlookup hx
    rw [Co.wp_bind]
    refine Co.wp_mono (hx log) (fun m g' _ h => ?_) fun _ _ _ h => h
    refine Or.inr ⟨h.1.going.2, ?_⟩
    rw [h.1.lookup, hlookup]
    exact h.2
  rcases hlookup : g.lookup with (ids | ids | n) | n
  · refine hdepartments hlookup fun log => ?_
    exact Co.wp_mono (reads_getDepartmentsByIdsCached hg ids log)
      (fun m g' _ h => ⟨h.1, h.2.records, h.2.asked, h.2.lacks⟩) fun _ _ _ h => h
  · exact hdepartments hlookup (reads_getDepartmentsByUniversityIdsCached hg hlookup)
  · exact hdepartments hlookup (reads_getDepartmentsBySchoolIdCached hg n)
  · rw [Lookup.run, Co.wp_bind]
    exact reads_getDepartmentByIdCached hg hlookup log

end Reading

end Atsig
