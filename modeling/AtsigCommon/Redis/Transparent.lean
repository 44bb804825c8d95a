import AtsigCommon.Redis.UniCache

/-!
# The cache is transparent

As long as the data of UniAPI do not change, a cached lookup gives what UniAPI would give, whatever
has expired or been evicted.

* `UniData` — the data of UniAPI; `UniData.Gives` is what it answers to a question.
* `UniData.Selects` — a dictionary holds the departments with some property, and nothing else.
* `UniData.Sound` — **the invariant.**  What is cached agrees with the data.  The map has, for
  some universities, exactly their departments, so it has none or all of each.
* `lookup_transparent` — the lookups, one after the other.
-/

namespace Atsig

open Coroutine Python

/-- The data of UniAPI: the departments, each with its own id, and which of them are of a
school. -/
structure UniData where
  departments : List Department
  distinct : ∀ d ∈ departments, ∀ d' ∈ departments, d.id = d'.id → d = d'
  ofSchool : ℤ → List Department
  ofSchool_subset : ∀ n, ∀ d ∈ ofSchool n, d ∈ departments

namespace UniData

variable (data : UniData)

/-- The departments that a question is about. -/
def Concerns : Listing → Department → Prop
  | .byIds ids, d => d.id ∈ ids
  | .byUniversityIds ids, d => ∃ n ∈ ids, d.universityId = some n
  | .bySchoolId n, d => d ∈ data.ofSchool n

/-- What UniAPI answers: the departments that the question is about, in any order.  Asked for one
that there is not, it raises an exception or gives something that is no department. -/
def Gives : (c : UniCommand) → Except Raised c.Answer → Prop
  | .redis _, _ => False
  | .getDepartment n, r => (∃ d ∈ data.departments, d.id = n ∧ r = .ok d.record)
      ∨ (∀ d ∈ data.departments, d.id ≠ n)
        ∧ ((∃ e, r = .error (.exception e)) ∨ ∃ v : Json, r = .ok v ∧ v.truthy = false)
  | .getDepartments listing, r => ∃ l : List Department, r = .ok l
      ∧ ∀ d, d ∈ l ↔ d ∈ data.departments ∧ data.Concerns listing d

/-! ## Selections -/

/-- The dictionary holds the records of the departments with the property `P`, under their ids, and
nothing else. -/
def Selects (P : Department → Prop) (m : Dict ℤ Json) : Prop :=
  ∀ n v, m.get? n = some v ↔ ∃ d ∈ data.departments, P d ∧ d.id = n ∧ v = d.record

variable {data} {P Q : Department → Prop} {m m' : Dict ℤ Json}

lemma selects_empty : data.Selects (fun _ => False) .empty := by
  intro n v
  simp

lemma Selects.congr (h : data.Selects P m) (hPQ : ∀ d ∈ data.departments, P d ↔ Q d) :
    data.Selects Q m := by
  intro n v
  rw [h n v]
  exact exists_congr fun d => and_congr_right fun hd => and_congr_left fun _ => hPQ d hd

/-- A selection is determined by what it selects. -/
lemma Selects.unique (h : data.Selects P m) (h' : data.Selects P m') (n : ℤ) :
    m.get? n = m'.get? n := by
  ext v
  exact (h n v).trans (h' n v).symm

lemma Selects.set (h : data.Selects P m) {d : Department} (hd : d ∈ data.departments) :
    data.Selects (fun d' => P d' ∨ d' = d) (m.set d.id d.record) := by
  intro n v
  rw [Dict.get?_set]
  by_cases hn : n = d.id
  · rw [if_pos hn, Option.some.injEq]
    constructor
    · rintro rfl
      exact ⟨d, hd, .inr rfl, hn.symm, rfl⟩
    · rintro ⟨d', hd', -, hid, rfl⟩
      rw [data.distinct d' hd' d hd (hid.trans hn)]
  · rw [if_neg hn, h n v]
    refine exists_congr fun d' => and_congr_right fun _ => and_congr_left fun hid => ?_
    refine ⟨.inl, fun h => h.resolve_right ?_⟩
    rintro rfl
    exact hn hid.1.symm

lemma Selects.merge (h : data.Selects P m) (h' : data.Selects Q m') :
    data.Selects (fun d => P d ∨ Q d) (m.merge m') := by
  intro n v
  rw [Dict.get?_merge]
  cases hn : m'.get? n with
  | some w =>
      obtain ⟨d, hd, hQ, hid, rfl⟩ := (h' n w).mp hn
      rw [Option.some_or, Option.some.injEq]
      constructor
      · rintro rfl
        exact ⟨d, hd, .inr hQ, hid, rfl⟩
      · rintro ⟨d', hd', -, hid', rfl⟩
        rw [data.distinct d' hd' d hd (hid'.trans hid.symm)]
  | none =>
      rw [Option.none_or, h n v]
      refine exists_congr fun d => and_congr_right fun hd => and_congr_left fun hid => ?_
      refine ⟨.inl, fun hPQ => hPQ.resolve_right fun hQ => ?_⟩
      have hsome := (h' n v).mpr ⟨d, hd, hQ, hid⟩
      rw [hn] at hsome
      cases hsome

/-- The dictionary of an answer selects the departments of the answer. -/
lemma selects_departmentMap {l : List Department} (hl : ∀ d ∈ l, d ∈ data.departments) :
    data.Selects (· ∈ l) (departmentMap l) := by
  intro n v
  rw [departmentMap, Dict.get?_ofPairs_iff]
  · simp only [List.mem_map, Prod.mk.injEq]
    constructor
    · rintro ⟨d, hd, rfl, rfl⟩
      exact ⟨d, hl d hd, hd, rfl, rfl⟩
    · rintro ⟨d, -, hd, rfl, rfl⟩
      exact ⟨d, hd, rfl, rfl⟩
  · intro p hp q hq hid
    obtain ⟨d, hd, rfl⟩ := List.mem_map.mp hp
    obtain ⟨d', hd', rfl⟩ := List.mem_map.mp hq
    rw [data.distinct d (hl d hd) d' (hl d' hd') hid]

/-! ## The map -/

variable (data) in
/-- The map has the departments of the universities `U`, and nothing else. -/
def Maps (U : ℤ → Prop) (h : Dict String String) : Prop :=
  ∀ f v, h.get? f = some v ↔ ∃ d ∈ data.departments, ∃ n, U n ∧ d.universityId = some n
    ∧ f = toString d.id ∧ v = toString n

variable {U V : ℤ → Prop} {h h' : Dict String String}

/-- A field of the map is that of one department. -/
lemma eq_of_field {d d' : Department} (hd : d ∈ data.departments) (hd' : d' ∈ data.departments)
    (hid : toString d.id = toString d'.id) : d = d' :=
  data.distinct d hd d' hd' (toString_int_injective hid)

lemma maps_empty : data.Maps (fun _ => False) .empty := by
  intro f v
  simp

lemma Maps.congr (hmaps : data.Maps U h) (hsame : ∀ f, h'.get? f = h.get? f) : data.Maps U h' := by
  intro f v
  rw [hsame f]
  exact hmaps f v

/-- The departments of some universities are taken from the map. -/
lemma Maps.erase (hmaps : data.Maps U h) {fields : List String}
    (hfields : ∀ f, f ∈ fields ↔ ∃ d ∈ data.departments, ∃ n, V n ∧ d.universityId = some n
      ∧ f = toString d.id) : data.Maps (fun n => U n ∧ ¬ V n) (h.erase fields) := by
  intro f v
  rw [Dict.get?_erase]
  split_ifs with hf
  · obtain ⟨d, hd, n, hV, huniversity, rfl⟩ := (hfields f).mp hf
    refine iff_of_false (fun hnone => by cases hnone) ?_
    rintro ⟨d', hd', n', ⟨-, hnot⟩, huniversity', hid, -⟩
    obtain rfl := eq_of_field hd hd' hid
    rw [huniversity] at huniversity'
    exact hnot (Option.some.inj huniversity' ▸ hV)
  · rw [hmaps f v]
    refine exists_congr fun d => and_congr_right fun hd => exists_congr fun n => ?_
    refine ⟨fun h => ⟨⟨h.1, fun hV => ?_⟩, h.2⟩, fun h => ⟨h.1.1, h.2⟩⟩
    exact hf ((hfields f).mpr ⟨d, hd, n, hV, h.2.1, h.2.2.1⟩)

lemma Maps.merge (hmaps : data.Maps U h) (hmaps' : data.Maps V h') :
    data.Maps (fun n => U n ∨ V n) (h.merge h') := by
  intro f v
  rw [Dict.get?_merge]
  cases hf : h'.get? f with
  | some w =>
      obtain ⟨d, hd, n, hV, huniversity, rfl, rfl⟩ := (hmaps' f w).mp hf
      rw [Option.some_or, Option.some.injEq]
      constructor
      · rintro rfl
        exact ⟨d, hd, n, .inr hV, huniversity, rfl, rfl⟩
      · rintro ⟨d', hd', n', -, huniversity', hid, rfl⟩
        obtain rfl := eq_of_field hd hd' hid
        rw [huniversity] at huniversity'
        rw [Option.some.inj huniversity']
  | none =>
      rw [Option.none_or, hmaps f v]
      refine exists_congr fun d => and_congr_right fun hd => exists_congr fun n =>
        and_congr_left fun hrest => ⟨.inl, fun hUV => hUV.resolve_right fun hV => ?_⟩
      have hsome := (hmaps' f v).mpr ⟨d, hd, n, hV, hrest⟩
      rw [hf] at hsome
      cases hsome

/-- The departments of some universities, all of them, make a map. -/
lemma maps_universityMapping {l : List Department}
    (hl : ∀ d, d ∈ l ↔ d ∈ data.departments ∧ ∃ n, V n ∧ d.universityId = some n) :
    data.Maps V (universityMapping l) := by
  have hpairs : ∀ f v, (f, v) ∈ (l.filterMap fun d =>
      d.universityId.map fun n => (toString d.id, toString n)) ↔ ∃ d ∈ data.departments, ∃ n, V n
        ∧ d.universityId = some n ∧ f = toString d.id ∧ v = toString n := by
    intro f v
    simp only [List.mem_filterMap, Option.map_eq_some_iff, Prod.mk.injEq]
    constructor
    · rintro ⟨d, hd, n, hn, rfl, rfl⟩
      obtain ⟨hdata, n', hV, hn'⟩ := (hl d).mp hd
      rw [hn] at hn'
      exact ⟨d, hdata, n, Option.some.inj hn' ▸ hV, hn, rfl, rfl⟩
    · rintro ⟨d, hd, n, hV, hn, rfl, rfl⟩
      exact ⟨d, (hl d).mpr ⟨hd, n, hV, hn⟩, n, hn, rfl, rfl⟩
  intro f v
  rw [← hpairs, universityMapping, Dict.get?_ofPairs_iff]
  rintro ⟨f, v⟩ hp ⟨f', v'⟩ hq hf
  obtain ⟨d, hd, n, -, hn, rfl, rfl⟩ := (hpairs _ _).mp hp
  obtain ⟨d', hd', n', -, hn', rfl, rfl⟩ := (hpairs _ _).mp hq
  obtain rfl := eq_of_field hd hd' hf
  rw [hn] at hn'
  exact congrArg toString (Option.some.inj hn')

/-- The fields of the departments of some universities. -/
lemma Maps.staleIds (hmaps : data.Maps U h) (uniIds : List ℤ) :
    ∃ fields, staleIds uniIds h = .ok fields ∧ ∀ f, f ∈ fields ↔ ∃ d ∈ data.departments, ∃ n,
      (U n ∧ n ∈ uniIds) ∧ d.universityId = some n ∧ f = toString d.id := by
  have hitems : ∀ x ∈ h.items, ∃ d ∈ data.departments, ∃ n, U n ∧ d.universityId = some n
      ∧ x.1 = toString d.id ∧ x.2 = toString n := fun x hx =>
    (hmaps x.1 x.2).mp (Dict.get?_eq_some_iff.mpr hx)
  obtain ⟨fields, hfields, hmem⟩ := comprehendIf_ok
    (fun _ uId => (parseInt uId).map fun n => decide (n ∈ uniIds))
    (fun depId _ => (.ok depId : Except PyException String)) h.items
    (fun x hx => by
      obtain ⟨d, -, n, -, -, -, hn⟩ := hitems x hx
      exact ⟨_, by rw [hn, parseInt_toString]; rfl⟩)
    fun x _ _ => ⟨x.1, rfl⟩
  refine ⟨fields, hfields, fun f => (hmem f).trans ⟨?_, ?_⟩⟩
  · rintro ⟨x, hx, hp, hf⟩
    obtain ⟨d, hd, n, hU, huniversity, hid, hn⟩ := hitems x hx
    rw [hn, parseInt_toString] at hp
    have hn' : n ∈ uniIds := of_decide_eq_true (Except.ok.inj hp)
    exact ⟨d, hd, n, ⟨hU, hn'⟩, huniversity, (Except.ok.inj hf).symm.trans hid⟩
  · rintro ⟨d, hd, n, ⟨hU, hn⟩, huniversity, rfl⟩
    refine ⟨(toString d.id, toString n), Dict.get?_eq_some_iff.mp
      ((hmaps _ _).mpr ⟨d, hd, n, hU, huniversity, rfl, rfl⟩), ?_, rfl⟩
    rw [parseInt_toString]
    exact congrArg Except.ok (decide_eq_true hn)

/-- The departments of a university: all of them if it is in the map, and otherwise none. -/
lemma Maps.uniDepIds (hmaps : data.Maps U h) (uniId : ℤ) :
    ∃ depIds, uniDepIds uniId h = .ok depIds ∧ ∀ i, i ∈ depIds ↔ U uniId
      ∧ ∃ d ∈ data.departments, d.universityId = some uniId ∧ d.id = i := by
  have hitems : ∀ x ∈ h.items, ∃ d ∈ data.departments, ∃ n, U n ∧ d.universityId = some n
      ∧ x.1 = toString d.id ∧ x.2 = toString n := fun x hx =>
    (hmaps x.1 x.2).mp (Dict.get?_eq_some_iff.mpr hx)
  obtain ⟨depIds, hdepIds, hmem⟩ := comprehendIf_ok
    (fun _ uId => (parseInt uId).map fun n => decide (n = uniId))
    (fun depId _ => parseInt depId) h.items
    (fun x hx => by
      obtain ⟨d, -, n, -, -, -, hn⟩ := hitems x hx
      exact ⟨_, by rw [hn, parseInt_toString]; rfl⟩)
    fun x hx _ => by
      obtain ⟨d, -, n, -, -, hid, -⟩ := hitems x hx
      exact ⟨d.id, by rw [hid, parseInt_toString]⟩
  refine ⟨depIds, hdepIds, fun i => (hmem i).trans ⟨?_, ?_⟩⟩
  · rintro ⟨x, hx, hp, hi⟩
    obtain ⟨d, hd, n, hU, huniversity, hid, hn⟩ := hitems x hx
    rw [hn, parseInt_toString] at hp
    have hn' : n = uniId := of_decide_eq_true (Except.ok.inj hp)
    subst hn'
    rw [hid, parseInt_toString] at hi
    exact ⟨hU, d, hd, huniversity, Except.ok.inj hi⟩
  · rintro ⟨hU, d, hd, huniversity, rfl⟩
    refine ⟨(toString d.id, toString uniId), Dict.get?_eq_some_iff.mp
      ((hmaps _ _).mpr ⟨d, hd, uniId, hU, huniversity, rfl, rfl⟩), ?_, parseInt_toString _⟩
    rw [parseInt_toString]
    exact congrArg Except.ok (decide_eq_true rfl)

/-! ## The invariant -/

section Invariant

variable [StandardLibrary]

variable (data) in
/-- What is under a key agrees with the data. -/
structure Holds (k : String) (e : Keyspace.Entry String ℚ) : Prop where
  department : ∀ n, k = deptKey n → ∃ d ∈ data.departments, d.id = n
    ∧ e.value = .text (StandardLibrary.dumps d.record)
  school : ∀ n, k = schoolKey n → ∃ l : List Department,
    (∀ d, d ∈ l ↔ d ∈ data.departments ∧ data.Concerns (.bySchoolId n) d)
    ∧ e.value = .text (StandardLibrary.dumps (departmentMapJson (departmentMap l)))
  map : k = uniHashKey → ∃ h U, e.value = .hash h ∧ data.Maps U h

variable (data) in
/-- All that is cached agrees with the data. -/
def Sound (s : UniServer) : Prop := s.All data.Holds

variable (data) in
/-- `json.loads` undoes `json.dumps` on what is cached, which is never the empty text. -/
structure Legible : Prop where
  department : ∀ d ∈ data.departments, LoadsDumps d.record ∧ StandardLibrary.dumps d.record ≠ ""
  school : ∀ n (l : List Department),
    (∀ d, d ∈ l ↔ d ∈ data.departments ∧ data.Concerns (.bySchoolId n) d) →
      LoadsDumps (departmentMapJson (departmentMap l))
        ∧ StandardLibrary.dumps (departmentMapJson (departmentMap l)) ≠ ""

lemma holds_department {d : Department} (hd : d ∈ data.departments) (deadline : Option ℚ) :
    data.Holds (deptKey d.id) ⟨.text (StandardLibrary.dumps d.record), deadline⟩ where
  department _ hn := ⟨d, hd, deptKey_injective hn, rfl⟩
  school _ hn := absurd hn (deptKey_ne_schoolKey _ _)
  map hn := absurd hn (deptKey_ne_uniHashKey _)

lemma holds_school {n : ℤ} {l : List Department}
    (hl : ∀ d, d ∈ l ↔ d ∈ data.departments ∧ data.Concerns (.bySchoolId n) d)
    (deadline : Option ℚ) : data.Holds (schoolKey n)
      ⟨.text (StandardLibrary.dumps (departmentMapJson (departmentMap l))), deadline⟩ where
  department _ hm := absurd hm.symm (deptKey_ne_schoolKey _ _)
  school m hm := by
    obtain rfl := schoolKey_injective hm
    exact ⟨l, hl, rfl⟩
  map hm := absurd hm (schoolKey_ne_uniHashKey _)

lemma holds_map (hmaps : data.Maps U h) (deadline : Option ℚ) :
    data.Holds uniHashKey ⟨.hash h, deadline⟩ where
  department _ hn := absurd hn.symm (deptKey_ne_uniHashKey _)
  school _ hn := absurd hn.symm (schoolKey_ne_uniHashKey _)
  map _ := ⟨h, U, rfl, hmaps⟩

/-! ## The terms -/

variable (data) in
/-- How an await ends: time passes and keys go, and then the server or UniAPI answers. -/
def Ends (s : UniServer) : (c : UniCommand) → Except Raised c.Answer → UniServer → Prop
  | .redis c, r, s' => ∃ s₁ a, s.Drifts s₁ ∧ s₁.Answers c a s' ∧ r = uniReply a
  | c, r, s' => s.Drifts s' ∧ data.Gives c r

variable (data) in
/-- The cache keeps the invariant, on these terms. -/
def terms : Contract uniSig UniServer where
  may s _ _ := data.Sound s
  env s _ c r s' _ := data.Ends s c r s'
  cut _ := False

variable {s : UniServer} {log : uniSig.State}

/-- **The rule of a command**: it keeps the invariant, and is answered. -/
lemma redis_wp {c : Keyspace.Command String String ℚ}
    {φ : c.Answer → UniServer → uniSig.State → Prop}
    {ψ : Raised → UniServer → uniSig.State → Prop} (hs : data.Sound s)
    (hkeeps : ∀ s₁, data.Sound s₁ → c.Keeps data.Holds s₁)
    (hanswer : ∀ s₁ a, data.Sound s₁ → c.Reordered (s₁.exec c).1 a →
      ∃ x, a = some x ∧ ∀ s' log', data.Sound s' → φ x s' log') :
    (Uni.redis c).wp data.terms φ ψ s log := by
  refine ⟨hs, ?_⟩
  rintro r s' log' ⟨s₁, a, hdrifts, ⟨hreordered, rfl⟩, rfl⟩
  have hs₁ : data.Sound s₁ := hs.drifts hdrifts
  obtain ⟨x, rfl, hφ⟩ := hanswer s₁ a hs₁ hreordered
  exact hφ _ _ (hs₁.exec (hkeeps s₁ hs₁))

/-- `get_json`, of a department. -/
lemma getJson_department_wp (hjson : data.Legible) (hs : data.Sound s) {n : ℤ}
    {φ : Option Json → UniServer → uniSig.State → Prop}
    {ψ : Raised → UniServer → uniSig.State → Prop}
    (hnone : ∀ s' log', data.Sound s' → φ none s' log')
    (hsome : ∀ d ∈ data.departments, d.id = n →
      ∀ s' log', data.Sound s' → φ (some d.record) s' log') :
    (RedisManager.getJson (deptKey n)).wp data.terms φ ψ s log := by
  rw [RedisManager.getJson, Co.wp_bind]
  refine redis_wp hs (fun _ _ => trivial) fun s₁ a hs₁ ha => ?_
  obtain rfl : a = _ := ha
  rw [Keyspace.Server.exec]
  cases hkey : s₁.keys (deptKey n) with
  | none => exact ⟨none, rfl, fun s' log' hs' => hnone s' log' hs'⟩
  | some e =>
      obtain ⟨d, hd, hid, hvalue⟩ := (hs₁ _ _ hkey).department n rfl
      obtain ⟨value, deadline⟩ := e
      obtain rfl : value = _ := hvalue
      obtain ⟨hloads, hnonempty⟩ := hjson.department d hd
      refine ⟨some (StandardLibrary.dumps d.record), rfl, fun s' log' hs' => ?_⟩
      dsimp only
      rw [if_neg hnonempty, hloads]
      exact hsome d hd hid s' log' hs'

/-- `get_json`, of a school. -/
lemma getJson_school_wp (hjson : data.Legible) (hs : data.Sound s) {n : ℤ}
    {φ : Option Json → UniServer → uniSig.State → Prop}
    {ψ : Raised → UniServer → uniSig.State → Prop}
    (hnone : ∀ s' log', data.Sound s' → φ none s' log')
    (hsome : ∀ l : List Department,
      (∀ d, d ∈ l ↔ d ∈ data.departments ∧ data.Concerns (.bySchoolId n) d) →
      ∀ s' log', data.Sound s' → φ (some (departmentMapJson (departmentMap l))) s' log') :
    (RedisManager.getJson (schoolKey n)).wp data.terms φ ψ s log := by
  rw [RedisManager.getJson, Co.wp_bind]
  refine redis_wp hs (fun _ _ => trivial) fun s₁ a hs₁ ha => ?_
  obtain rfl : a = _ := ha
  rw [Keyspace.Server.exec]
  cases hkey : s₁.keys (schoolKey n) with
  | none => exact ⟨none, rfl, fun s' log' hs' => hnone s' log' hs'⟩
  | some e =>
      obtain ⟨l, hl, hvalue⟩ := (hs₁ _ _ hkey).school n rfl
      obtain ⟨value, deadline⟩ := e
      obtain rfl : value = _ := hvalue
      obtain ⟨hloads, hnonempty⟩ := hjson.school n l hl
      refine ⟨some _, rfl, fun s' log' hs' => ?_⟩
      dsimp only
      rw [if_neg hnonempty, hloads]
      exact hsome l hl s' log' hs'

/-- `set_json` -/
lemma setJson_wp (hs : data.Sound s) {key : String} {value : Json}
    (hholds : ∀ deadline, data.Holds key ⟨.text (StandardLibrary.dumps value), deadline⟩)
    {φ : Unit → UniServer → uniSig.State → Prop} {ψ : Raised → UniServer → uniSig.State → Prop}
    (hpost : ∀ s' log', data.Sound s' → φ () s' log') {ttl : ℚ} :
    (RedisManager.setJson key value ttl).wp data.terms φ ψ s log := by
  refine redis_wp hs (fun s₁ _ => hholds _) fun s₁ a _ ha => ?_
  exact ⟨(), ha, fun s' log' hs' => hpost s' log' hs'⟩

/-! ## The lookups by id -/

variable {missing : List ℤ}

/-- The loop over the ids. -/
lemma readDepartments_wp (hjson : data.Legible) : ∀ {ids : List ℤ} {P : Department → Prop}
    {m : Dict ℤ Json} {missing : List ℤ} {s : UniServer} {log : uniSig.State}, data.Sound s →
    data.Selects P m → (readDepartments m missing ids).wp data.terms
      (fun r s' _ => data.Sound s' ∧ ∃ hits new : List ℤ, r.2 = missing ++ new
        ∧ data.Selects (fun d => P d ∨ d.id ∈ hits) r.1 ∧ ∀ i, i ∈ ids ↔ i ∈ hits ∨ i ∈ new)
      (fun _ _ _ => False) s log
  | [], P, m, missing, s, log, hs, hm =>
      ⟨hs, [], [], (List.append_nil _).symm, hm.congr fun d _ => by simp, fun i => by simp⟩
  | i :: ids, P, m, missing, s, log, hs, hm => by
      rw [readDepartments, Co.wp_bind]
      refine getJson_department_wp hjson hs (fun s' log' hs' => ?_) fun d hd hid s' log' hs' => ?_
      · refine Co.wp_mono (readDepartments_wp hjson hs' hm) (fun r s'' _ h => ?_) fun _ _ _ h => h
        obtain ⟨hs'', hits, new, hmissing, hselects, hids⟩ := h
        refine ⟨hs'', hits, i :: new, by simp [hmissing], hselects, fun j => ?_⟩
        rw [List.mem_cons, hids, List.mem_cons, or_left_comm]
      · have htruthy : (some d.record).filter Json.truthy = some d.record := by
          rw [Option.filter_some, if_pos d.record_truthy]
        rw [htruthy]
        subst hid
        refine Co.wp_mono (readDepartments_wp hjson hs' (hm.set hd)) (fun r s'' _ h => ?_)
          fun _ _ _ h => h
        obtain ⟨hs'', hits, new, hmissing, hselects, hids⟩ := h
        refine ⟨hs'', d.id :: hits, new, hmissing, hselects.congr fun d' hd' => ?_, fun j => ?_⟩
        · have hsame : d' = d ↔ d'.id = d.id :=
            ⟨congrArg Department.id, data.distinct d' hd' d hd⟩
          rw [hsame, List.mem_cons, or_assoc]
        · rw [List.mem_cons, hids, List.mem_cons, or_assoc]

/-- The loop over an answer. -/
lemma storeDepartments_wp : ∀ {l : List Department} {P : Department → Prop} {m : Dict ℤ Json}
    {s : UniServer} {log : uniSig.State}, data.Sound s → data.Selects P m →
    (∀ d ∈ l, d ∈ data.departments) → (storeDepartments m l).wp data.terms
      (fun r s' _ => data.Sound s' ∧ data.Selects (fun d => P d ∨ d ∈ l) r) (fun _ _ _ => False)
      s log
  | [], P, m, s, log, hs, hm, _ => ⟨hs, hm.congr fun d _ => by simp⟩
  | d :: l, P, m, s, log, hs, hm, hl => by
      have hd := hl d (List.mem_cons_self ..)
      rw [storeDepartments, Co.wp_bind]
      refine setJson_wp hs (fun deadline => holds_department hd deadline) fun s' log' hs' => ?_
      refine Co.wp_mono (storeDepartments_wp hs' (hm.set hd)
        fun d' hd' => hl d' (List.mem_cons_of_mem _ hd')) (fun r s'' _ h => ?_) fun _ _ _ h => h
      exact ⟨h.1, h.2.congr fun d' _ => by rw [List.mem_cons, or_assoc]⟩

/-- A question to UniAPI. -/
lemma listing_wp (hs : data.Sound s) {listing : Listing}
    {φ : List Department → UniServer → uniSig.State → Prop}
    {ψ : Raised → UniServer → uniSig.State → Prop}
    (hpost : ∀ l, (∀ d, d ∈ l ↔ d ∈ data.departments ∧ data.Concerns listing d) →
      ∀ s' log', data.Sound s' → φ l s' log') :
    (UniApi.getDepartments listing).wp data.terms φ ψ s log := by
  refine ⟨hs, ?_⟩
  rintro r s' log' ⟨hdrifts, l, rfl, hl⟩
  exact hpost l hl s' log' (hs.drifts hdrifts)

/-- **By ids**: the departments with those ids. -/
lemma getDepartmentsByIdsCached_wp (hjson : data.Legible) {ids : List ℤ} (hs : data.Sound s) :
    (getDepartmentsByIdsCached ids).wp data.terms
      (fun m s' _ => data.Sound s' ∧ data.Selects (data.Concerns (.byIds ids)) m)
      (fun _ _ _ => False) s log := by
  rw [getDepartmentsByIdsCached, Co.wp_bind]
  refine Co.wp_mono (readDepartments_wp hjson hs selects_empty) ?_ fun _ _ _ h => h
  rintro ⟨m, new⟩ s₁ log₁ ⟨hs₁, hits, new, rfl, hm, hids⟩
  dsimp only [List.nil_append] at hm hids ⊢
  split_ifs with hnew
  · rw [List.isEmpty_iff] at hnew
    subst hnew
    exact ⟨hs₁, hm.congr fun d _ => by simp [Concerns, hids]⟩
  · simp only [Co.wp_bind, wp_writeUniLog]
    refine listing_wp hs₁ fun l hl s₂ log₂ hs₂ => ?_
    refine Co.wp_mono (storeDepartments_wp hs₂ hm fun d hd => ((hl d).mp hd).1) ?_
      fun _ _ _ h => h
    rintro m' s₃ log₃ ⟨hs₃, hm'⟩
    refine ⟨hs₃, hm'.congr fun d hd => ?_⟩
    have hmem : d ∈ l ↔ d.id ∈ new := (hl d).trans (and_iff_right hd)
    simp [Concerns, hids, hmem]

/-! ## The lookups by university -/

/-- The loop over the universities. -/
lemma readUniversities_wp (hjson : data.Legible) (hmaps : data.Maps U h) : ∀ {ids : List ℤ}
    {P : Department → Prop} {m : Dict ℤ Json} {missing : List ℤ} {s : UniServer}
    {log : uniSig.State}, data.Sound s → data.Selects P m →
    (readUniversities h m missing ids).wp data.terms
      (fun r s' _ => data.Sound s' ∧ ∃ hits new : List ℤ, r.2 = missing ++ new
        ∧ data.Selects (fun d => P d ∨ ∃ n ∈ hits, d.universityId = some n) r.1
        ∧ ∀ n, n ∈ ids ↔ n ∈ hits ∨ n ∈ new)
      (fun _ _ _ => False) s log
  | [], P, m, missing, s, log, hs, hm =>
      ⟨hs, [], [], (List.append_nil _).symm, hm.congr fun d _ => by simp, fun i => by simp⟩
  | n :: ids, P, m, missing, s, log, hs, hm => by
      obtain ⟨depIds, hdepIds, hmem⟩ := hmaps.uniDepIds n
      rw [readUniversities, Co.wp_bind, hdepIds]
      show Co.wp _ (ite (depIds.isEmpty = true) _ _) _ _ _ _
      split_ifs with hempty
      · refine Co.wp_mono (readUniversities_wp hjson hmaps hs hm) (fun r s' _ h => ?_)
          fun _ _ _ h => h
        obtain ⟨hs', hits, new, hmissing, hselects, hids⟩ := h
        refine ⟨hs', hits, n :: new, by simp [hmissing], hselects, fun j => ?_⟩
        rw [List.mem_cons, hids, List.mem_cons, or_left_comm]
      · -- the university is in the map, with all of its departments
        have hU : U n := by
          obtain ⟨i, hi⟩ := List.exists_mem_of_ne_nil depIds fun hnil => hempty (by rw [hnil]; rfl)
          exact ((hmem i).mp hi).1
        have hconcerns : ∀ d ∈ data.departments,
            data.Concerns (.byIds depIds) d ↔ d.universityId = some n := by
          intro d hd
          refine (hmem d.id).trans ⟨?_, fun hn => ⟨hU, d, hd, hn, rfl⟩⟩
          rintro ⟨-, d', hd', hn, hid⟩
          rw [← data.distinct d' hd' d hd hid]
          exact hn
        simp only [Co.wp_bind, wp_writeUniLog]
        refine Co.wp_mono (getDepartmentsByIdsCached_wp hjson hs) ?_ fun _ _ _ h => h
        rintro m' s' log' ⟨hs', hm'⟩
        refine Co.wp_mono (readUniversities_wp hjson hmaps hs' (hm.merge (hm'.congr hconcerns)))
          (fun r s'' _ h => ?_) fun _ _ _ h => h
        obtain ⟨hs'', hits, new, hmissing, hselects, hids⟩ := h
        refine ⟨hs'', n :: hits, new, hmissing, hselects.congr fun d _ => ?_, fun j => ?_⟩
        · simp [or_assoc]
        · rw [List.mem_cons, hids, List.mem_cons, or_assoc]

/-- What a sound server has under the key of the map. -/
lemma Sound.map (hs : data.Sound s) : s.keys uniHashKey = none
    ∨ ∃ h d U, s.keys uniHashKey = some ⟨.hash h, d⟩ ∧ data.Maps U h := by
  cases hkey : s.keys uniHashKey with
  | none => exact .inl rfl
  | some e =>
      obtain ⟨h, U, hvalue, hmaps⟩ := (hs _ _ hkey).map rfl
      obtain ⟨value, deadline⟩ := e
      obtain rfl : value = _ := hvalue
      exact .inr ⟨h, deadline, U, rfl, hmaps⟩

/-- `hgetall` of the map. -/
lemma hgetall_wp (hs : data.Sound s) {φ : Dict String String → UniServer → uniSig.State → Prop}
    {ψ : Raised → UniServer → uniSig.State → Prop}
    (hpost : ∀ U h, data.Maps U h → ∀ s' log', data.Sound s' → φ h s' log') :
    (RedisManager.hgetall uniHashKey).wp data.terms φ ψ s log := by
  refine redis_wp hs (fun _ _ => trivial) fun s₁ a hs₁ ha => ?_
  rw [Keyspace.Server.exec] at ha
  rcases hs₁.map with hkey | ⟨h, d, U, hkey, hmaps⟩
  · rw [hkey] at ha
    obtain ⟨d', rfl, hsame⟩ := ha.hgetall
    exact ⟨d', rfl, fun s' log' hs' => hpost _ d' (maps_empty.congr hsame) s' log' hs'⟩
  · rw [hkey] at ha
    obtain ⟨d', rfl, hsame⟩ := ha.hgetall
    exact ⟨d', rfl, fun s' log' hs' => hpost _ d' (hmaps.congr hsame) s' log' hs'⟩

section Writing

variable {φ : Unit → UniServer → uniSig.State → Prop} {ψ : Raised → UniServer → uniSig.State → Prop}

/-- `hdel` of the departments of some universities. -/
lemma hdel_wp (hs : data.Sound s) {fields : List String}
    (hfields : ∀ f, f ∈ fields ↔ ∃ d ∈ data.departments, ∃ n, V n ∧ d.universityId = some n
      ∧ f = toString d.id) (hpost : ∀ s' log', data.Sound s' → φ () s' log') :
    (RedisManager.hdel uniHashKey fields).wp data.terms φ ψ s log := by
  refine redis_wp hs (fun s₁ hs₁ h deadline hkey => ?_) fun s₁ a hs₁ ha => ⟨(), ?_, hpost⟩
  · obtain ⟨h', U, hvalue, hmaps⟩ := (hs₁ _ _ hkey).map rfl
    obtain rfl : h = h' := by injection hvalue
    exact holds_map (hmaps.erase hfields) deadline
  · obtain rfl : a = _ := ha
    rw [Keyspace.Server.exec]
    rcases hs₁.map with hkey | ⟨h, d, U, hkey, -⟩
    · rw [hkey]
    · rw [hkey]
      dsimp only
      split_ifs <;> rfl

/-- `hset` of the departments of some universities. -/
lemma hset_wp (hs : data.Sound s) (hmaps : data.Maps V h) (hnonempty : h.items.isEmpty = false)
    (hpost : ∀ s' log', data.Sound s' → φ () s' log') :
    (RedisManager.hset uniHashKey h).wp data.terms φ ψ s log := by
  have hsent : RedisManager.hset uniHashKey h = Uni.redis (.hset uniHashKey h) :=
    if_neg (by simp [hnonempty])
  rw [hsent]
  refine redis_wp hs (fun s₁ hs₁ => ⟨fun _ => holds_map hmaps _, fun h' deadline hkey => ?_⟩)
    fun s₁ a hs₁ ha => ⟨(), ?_, hpost⟩
  · obtain ⟨h'', U, hvalue, hmaps'⟩ := (hs₁ _ _ hkey).map rfl
    obtain rfl : h' = h'' := by injection hvalue
    exact holds_map (hmaps'.merge hmaps) deadline
  · obtain rfl : a = _ := ha
    rw [Keyspace.Server.exec]
    rcases hs₁.map with hkey | ⟨h, d, U, hkey, -⟩
    · rw [hkey]
    · rw [hkey]

lemma expire_wp (hs : data.Sound s) (hpost : ∀ s' log', data.Sound s' → φ () s' log') {ttl : ℚ} :
    (RedisManager.expire uniHashKey ttl).wp data.terms φ ψ s log := by
  refine redis_wp hs (fun s₁ hs₁ e hkey => ?_) fun s₁ a hs₁ ha => ⟨(), ?_, hpost⟩
  · obtain ⟨h, U, hvalue, hmaps⟩ := (hs₁ _ _ hkey).map rfl
    rw [hvalue]
    exact holds_map hmaps _
  · obtain rfl : a = _ := ha
    rw [Keyspace.Server.exec]
    cases s₁.keys uniHashKey <;> rfl

end Writing

/-- **The update of the map**, with all departments of some universities.  Whatever has gone from
the server meanwhile, the map has the departments of some universities after every command. -/
lemma updateDepartmentUniversityMap_wp {l : List Department} {ids : List ℤ}
    (hl : ∀ d, d ∈ l ↔ d ∈ data.departments ∧ data.Concerns (.byUniversityIds ids) d)
    (hs : data.Sound s) : (updateDepartmentUniversityMap l).wp data.terms
      (fun _ s' _ => data.Sound s') (fun _ _ _ => False) s log := by
  have hmapping := maps_universityMapping hl
  rw [updateDepartmentUniversityMap]
  split_ifs with hempty
  · exact hs
  have hnonempty : (universityMapping l).items.isEmpty = false := by
    obtain ⟨d, hd⟩ := List.exists_mem_of_ne_nil l fun hnil => hempty (by rw [hnil]; rfl)
    obtain ⟨hdata, n, hn, huniversity⟩ := (hl d).mp hd
    have hmem := Dict.get?_eq_some_iff.mp
      ((hmapping _ _).mpr ⟨d, hdata, n, hn, huniversity, rfl, rfl⟩)
    exact List.isEmpty_eq_false_iff_exists_mem.mpr ⟨_, hmem⟩
  -- the last two commands
  have hlast : ∀ s' log', data.Sound s' → (do
      RedisManager.hset uniHashKey (universityMapping l)
      RedisManager.expire uniHashKey cacheTtl
      writeUniLog .info "[UniCache] University map update completed" : Uni Unit).wp data.terms
        (fun _ s' _ => data.Sound s') (fun _ _ _ => False) s' log' := by
    intro s' log' hs'
    simp only [Co.wp_bind, wp_writeUniLog]
    exact hset_wp hs' hmapping hnonempty fun s₁ log₁ hs₁ =>
      expire_wp hs₁ fun s₂ log₂ hs₂ => hs₂
  simp only [Co.wp_bind, wp_writeUniLog]
  refine hgetall_wp hs fun U h hmaps s₁ log₁ hs₁ => ?_
  obtain ⟨fields, hfields, hmem⟩ := hmaps.staleIds (l.filterMap Department.universityId)
  rw [hfields]
  show Co.wp _ (ite (fields.isEmpty = false) _ _) _ _ _ _
  split_ifs
  · simp only [Co.wp_bind, wp_writeUniLog]
    refine hdel_wp hs₁ hmem fun s₂ log₂ hs₂ => ?_
    have hrest := hlast s₂ log₂ hs₂
    simp only [Co.wp_bind, wp_writeUniLog] at hrest
    exact hrest
  · exact hlast s₁ log₁ hs₁

/-- **By universities**: all departments of theirs. -/
lemma getDepartmentsByUniversityIdsCached_wp (hjson : data.Legible) {ids : List ℤ}
    (hs : data.Sound s) : (getDepartmentsByUniversityIdsCached ids).wp data.terms
      (fun m s' _ => data.Sound s' ∧ data.Selects (data.Concerns (.byUniversityIds ids)) m)
      (fun _ _ _ => False) s log := by
  rw [getDepartmentsByUniversityIdsCached]
  split_ifs with hempty
  · rw [List.isEmpty_iff] at hempty
    subst hempty
    exact ⟨hs, selects_empty.congr fun d _ => by simp [Concerns]⟩
  simp only [Co.wp_bind, wp_writeUniLog]
  refine hgetall_wp hs fun U h hmaps s₁ log₁ hs₁ => ?_
  refine Co.wp_mono (readUniversities_wp hjson hmaps hs₁ selects_empty) ?_ fun _ _ _ h => h
  rintro ⟨m, new⟩ s₂ log₂ ⟨hs₂, hits, new, rfl, hm, hids⟩
  dsimp only [List.nil_append] at hm hids ⊢
  split_ifs with hnew
  · rw [List.isEmpty_iff] at hnew
    subst hnew
    exact ⟨hs₂, hm.congr fun d _ => by simp [Concerns, hids]⟩
  · simp only [Co.wp_bind, wp_writeUniLog]
    refine listing_wp hs₂ fun l hl s₃ log₃ hs₃ => ?_
    refine Co.wp_mono (storeDepartments_wp hs₃ hm fun d hd => ((hl d).mp hd).1) ?_
      fun _ _ _ h => h
    rintro m' s₄ log₄ ⟨hs₄, hm'⟩
    refine Co.wp_mono (updateDepartmentUniversityMap_wp hl hs₄) ?_ fun _ _ _ h => h
    intro _ s₅ log₅ hs₅
    refine ⟨hs₅, hm'.congr fun d hd => ?_⟩
    have hmem : d ∈ l ↔ ∃ n ∈ new, d.universityId = some n := (hl d).trans (and_iff_right hd)
    simp [Concerns, hids, hmem, or_and_right, exists_or]

/-! ## The lookups by school and by one id -/

omit [StandardLibrary] in
/-- What was written for a school is read as it was. -/
lemma schoolDepartments_departmentMapJson (m : Dict ℤ Json) :
    schoolDepartments (departmentMapJson m) = .ok m := by
  have hback : ∀ l : List (ℤ × Json), (l.map fun p => (toString p.1, p.2)).mapM
      (fun p => (parseInt p.1).map fun n => (n, p.2)) = .ok l := by
    intro l
    induction l with
    | nil => rfl
    | cons p l ih =>
        rw [List.map_cons, List.mapM_cons, ih, parseInt_toString]
        rfl
  rw [departmentMapJson, schoolDepartments, hback]
  exact congrArg Except.ok (Dict.ext (Dict.items_ofPairs m.nodup))

/-- **By school**: the departments of the school. -/
lemma getDepartmentsBySchoolIdCached_wp (hjson : data.Legible) {n : ℤ} (hs : data.Sound s) :
    (getDepartmentsBySchoolIdCached n).wp data.terms
      (fun m s' _ => data.Sound s' ∧ data.Selects (data.Concerns (.bySchoolId n)) m)
      (fun _ _ _ => False) s log := by
  have hselects : ∀ {l : List Department},
      (∀ d, d ∈ l ↔ d ∈ data.departments ∧ data.Concerns (.bySchoolId n) d) →
      data.Selects (data.Concerns (.bySchoolId n)) (departmentMap l) := fun hl =>
    (selects_departmentMap fun d hd => ((hl d).mp hd).1).congr fun d hd =>
      (hl d).trans (and_iff_right hd)
  have hfetch : ∀ s' log', data.Sound s' → (do
      let departments ← UniApi.getDepartments (.bySchoolId n)
      RedisManager.setJson (schoolKey n) (departmentMapJson (departmentMap departments)) cacheTtl
      writeUniLog .info ("[UniCache] Successfully cached "
        ++ toString (departmentMap departments).items.length ++ " departments for school:"
        ++ toString n)
      return departmentMap departments : Uni (Dict ℤ Json)).wp data.terms
        (fun m s' _ => data.Sound s' ∧ data.Selects (data.Concerns (.bySchoolId n)) m)
        (fun _ _ _ => False) s' log' := by
    intro s' log' hs'
    simp only [Co.wp_bind, wp_writeUniLog]
    refine listing_wp hs' fun l hl s₁ log₁ hs₁ => ?_
    exact setJson_wp hs₁ (fun deadline => holds_school hl deadline) fun s₂ log₂ hs₂ =>
      ⟨hs₂, hselects hl⟩
  rw [getDepartmentsBySchoolIdCached, Co.wp_bind]
  refine getJson_school_wp hjson hs (fun s' log' hs' => hfetch s' _ hs') fun l hl s' log' hs' => ?_
  by_cases hempty : (departmentMap l).items = []
  · -- no departments are no hit
    have hfalsy : (some (departmentMapJson (departmentMap l))).filter Json.truthy = none := by
      rw [Option.filter_some, departmentMapJson, hempty]
      rfl
    rw [hfalsy]
    exact hfetch s' _ hs'
  · have htruthy : (some (departmentMapJson (departmentMap l))).filter Json.truthy
        = some (departmentMapJson (departmentMap l)) := by
      rw [Option.filter_some, departmentMapJson, Json.truthy, if_pos]
      simpa using hempty
    rw [htruthy]
    simp only [Co.wp_bind, wp_writeUniLog, schoolDepartments_departmentMapJson]
    exact ⟨hs', hselects hl⟩

/-- **By one id**: the department, if there is one.  What UniAPI raises is caught. -/
lemma getDepartmentByIdCached_wp (hjson : data.Legible) {n : ℤ} (hs : data.Sound s) :
    (getDepartmentByIdCached n).wp data.terms
      (fun v s' _ => data.Sound s' ∧ ∀ w, v = some w ↔ ∃ d ∈ data.departments, d.id = n
        ∧ w = d.record) (fun _ _ _ => False) s log := by
  have hfound : ∀ {d : Department}, d ∈ data.departments → d.id = n → ∀ w,
      some d.record = some w ↔ ∃ d ∈ data.departments, d.id = n ∧ w = d.record := by
    intro d hd hid w
    rw [Option.some.injEq]
    constructor
    · rintro rfl
      exact ⟨d, hd, hid, rfl⟩
    · rintro ⟨d', hd', hid', rfl⟩
      rw [data.distinct d hd d' hd' (hid.trans hid'.symm)]
  have hnone : (∀ d ∈ data.departments, d.id ≠ n) → ∀ w : Json,
      none = some w ↔ ∃ d ∈ data.departments, d.id = n ∧ w = d.record := fun hnot w =>
    iff_of_false nofun fun ⟨d, hd, hid, _⟩ => hnot d hd hid
  rw [getDepartmentByIdCached, Co.wp_bind]
  refine getJson_department_wp hjson hs (fun s' log' hs' => ?_) fun d hd hid s' log' hs' => ?_
  · show Co.wp _ (writeUniLog .warning _ >>= _) _ _ _ _
    rw [Co.wp_bind, wp_writeUniLog, Uni.exceptException, Co.wp_protect, Co.wp_bind]
    refine ⟨hs', ?_⟩
    rintro r s₁ log₁ ⟨hdrifts, hgives⟩
    have hs₁ := hs'.drifts hdrifts
    rcases hgives with ⟨d, hd, rfl, rfl⟩ | ⟨hnot, ⟨e, rfl⟩ | ⟨v, rfl, hv⟩⟩
    · show Co.wp _ (ite (d.record.truthy = true) _ _) _ _ _ _
      rw [if_pos d.record_truthy, Co.wp_bind]
      exact setJson_wp hs₁ (fun deadline => holds_department hd deadline) fun s₂ log₂ hs₂ =>
        ⟨hs₂, hfound hd rfl⟩
    · exact ⟨hs₁, hnone hnot⟩
    · show Co.wp _ (ite (v.truthy = true) _ _) _ _ _ _
      rw [if_neg (by simp [hv])]
      exact ⟨hs₁, hnone hnot⟩
  · have htruthy : (some d.record).filter Json.truthy = some d.record := by
      rw [Option.filter_some, if_pos d.record_truthy]
    rw [htruthy]
    exact ⟨hs', hfound hd hid⟩

/-! ## One lookup after the other -/

variable (data) in
/-- What a lookup has to find. -/
def Right : Lookup → Found → Prop
  | .departments listing, .departments m => data.Selects (data.Concerns listing) m
  | .department n, .department v =>
      ∀ w, v = some w ↔ ∃ d ∈ data.departments, d.id = n ∧ w = d.record
  | _, _ => False

/-- **Every lookup**, on a sound server. -/
lemma lookup_wp (hjson : data.Legible) (lookup : Lookup) (hs : data.Sound s) :
    lookup.run.wp data.terms (fun found s' _ => data.Sound s' ∧ data.Right lookup found)
      (fun _ _ _ => False) s log := by
  rcases lookup with (ids | ids | n) | n
  · rw [Lookup.run, Co.wp_bind]
    exact getDepartmentsByIdsCached_wp hjson hs
  · rw [Lookup.run, Co.wp_bind]
    exact getDepartmentsByUniversityIdsCached_wp hjson hs
  · rw [Lookup.run, Co.wp_bind]
    exact getDepartmentsBySchoolIdCached_wp hjson hs
  · rw [Lookup.run, Co.wp_bind]
    exact getDepartmentByIdCached_wp hjson hs

variable (data) in
/-- The servers that lookups leave, one after the other, also those that are abandoned halfway. -/
inductive Reachable : UniServer → Prop
  | empty (now : ℚ) : Reachable ⟨now, fun _ => none⟩
  | drifts {s s' : UniServer} (hs : Reachable s) (hdrifts : s.Drifts s') : Reachable s'
  | lookup {s s' : UniServer} (hs : Reachable s) (lookup : Lookup) {log : uniSig.State}
      {tr : List (Exchange uniSig)} {q : Program uniSig Found} (hrun : Run (lookup.run log) tr q)
      (hadm : data.terms.Admits s tr s') : Reachable s'

/-- **The invariant holds of every reachable server.** -/
theorem Reachable.sound (hjson : data.Legible) (hs : data.Reachable s) : data.Sound s := by
  induction hs with
  | empty now => exact fun _ _ h => by cases h
  | drifts _ hdrifts ih => exact ih.drifts hdrifts
  | @lookup s s' _ lookup log tr q hrun hadm ih =>
      have hq := Program.wp_run (lookup_wp hjson lookup ih) hrun hadm
      cases q with
      | done r log' =>
          cases r with
          | ok found => exact hq.1
          | error e => exact hq.elim
      | await c log' k => exact hq.1
      | spent => exact hq.elim

end Invariant

end UniData

/-- The question to UniAPI that a lookup stands for. -/
def Lookup.question : Lookup → UniCommand
  | .departments listing => .getDepartments listing
  | .department departmentId => .getDepartment departmentId

/-- What one finds by asking UniAPI directly. -/
def Lookup.direct : (lookup : Lookup) → Except Raised lookup.question.Answer → Except Raised Found
  | .departments _, r => r.map fun l : List Department => .departments (departmentMap l)
  | .department _, r => r.map fun v : Json => .department (some v)

/-- The same, where a department that UniAPI does not give is none. -/
def Lookup.asked : (lookup : Lookup) → Except Raised lookup.question.Answer → Except Raised Found
  | .departments listing, r => (Lookup.departments listing).direct r
  | .department _, r => .ok (.department ((r.toOption : Option Json).filter Json.truthy))

/-- The same departments, under the same ids and with the same records. -/
def Found.Same : Found → Found → Prop
  | .departments m, .departments m' => ∀ n, m.get? n = m'.get? n
  | .department v, .department v' => v = v'
  | _, _ => False

/-- The same departments, or both times an exception. -/
def Found.SameOutcome : Except Raised Found → Except Raised Found → Prop
  | .ok found, .ok found' => found.Same found'
  | .error _, .error _ => True
  | _, _ => False

namespace UniData

variable {data : UniData}

/-- What is right is what UniAPI answers. -/
lemma Right.sameOutcome {lookup : Lookup} {found : Found} (h : data.Right lookup found)
    {r : Except Raised lookup.question.Answer} (hr : data.Gives lookup.question r) :
    Found.SameOutcome (.ok found) (lookup.asked r) := by
  cases lookup with
  | departments listing =>
      cases found with
      | department v => exact h.elim
      | departments m =>
          obtain ⟨l, rfl, hl⟩ := hr
          have hselects : data.Selects (data.Concerns listing) (departmentMap l) :=
            (selects_departmentMap fun d hd => ((hl d).mp hd).1).congr fun d hd =>
              (hl d).trans (and_iff_right hd)
          exact h.unique hselects
  | department n =>
      cases found with
      | departments m => exact h.elim
      | department v =>
          have hnone : (∀ d ∈ data.departments, d.id ≠ n) → v = none := by
            intro hnot
            refine Option.eq_none_iff_forall_ne_some.mpr fun w hw => ?_
            obtain ⟨d, hd, hid, -⟩ := (h w).mp hw
            exact hnot d hd hid
          rcases hr with ⟨d, hd, hid, rfl⟩ | ⟨hnot, ⟨e, rfl⟩ | ⟨w, rfl, hw⟩⟩
          · have hv : v = some d.record := (h _).mpr ⟨d, hd, hid, rfl⟩
            have hfilter : (some d.record).filter Json.truthy = some d.record := by
              rw [Option.filter_some, if_pos d.record_truthy]
            exact hv.trans hfilter.symm
          · exact hnone hnot
          · have hfilter : (some w).filter Json.truthy = none := by
              rw [Option.filter_some, if_neg (by simp [hw])]
            exact (hnone hnot).trans hfilter.symm

end UniData

/-- **The cache is transparent.**  Whatever lookups there were before, and whatever goes from the
server at any moment, a lookup finds what UniAPI would give, all of it; and nothing where UniAPI
has no such department. -/
theorem lookup_transparent [StandardLibrary] {data : UniData} (hjson : data.Legible)
    {s s' : UniServer} (hs : data.Reachable s) (lookup : Lookup) {log log' : uniSig.State}
    {tr : List (Exchange uniSig)} {r : Except Raised Found}
    (hrun : Run (lookup.run log) tr (.done r log')) (hadm : data.terms.Admits s tr s')
    {r' : Except Raised lookup.question.Answer} (hdirect : data.Gives lookup.question r') :
    Found.SameOutcome r (lookup.asked r') := by
  have hdone := Program.wp_run (UniData.lookup_wp hjson lookup (hs.sound hjson)) hrun hadm
  cases r with
  | ok found => exact hdone.2.sameOutcome hdirect
  | error e => exact hdone.elim

/-! ## A department that is not cached -/

/-- A server without keys. -/
def emptyServer : UniServer := ⟨0, fun _ => none⟩

lemma drifts_emptyServer : emptyServer.Drifts emptyServer where
  later := le_refl _
  kept _ _ h := h
  gone := nofun

/-- Department 1 is not cached, and UniAPI is asked for it. -/
def missing (found : Except Raised Json) (log : uniSig.State) : List (Exchange uniSig) :=
  [⟨.redis (.get (deptKey 1)), [], .ok (none : Option String), []⟩,
    ⟨.getDepartment 1, log, found, []⟩]

lemma ends_missing (data : UniData) : data.Ends emptyServer (.redis (.get (deptKey 1)))
    (.ok (none : Option String)) emptyServer :=
  ⟨emptyServer, some none, drifts_emptyServer, ⟨rfl, rfl⟩, rfl⟩

/-- A department of university 10. -/
def mathematics : Department where
  items := [("id", .num 1), ("university_id", .num 10)]
  id := 1
  universityId := some 10
  nodup := by decide
  hasId := rfl
  hasUniversity := rfl

/-- UniAPI has this department. -/
def campusData : UniData where
  departments := [mathematics]
  distinct _ hd _ hd' _ := (List.mem_singleton.mp hd).trans (List.mem_singleton.mp hd').symm
  ofSchool _ := []
  ofSchool_subset := nofun

/-- UniAPI without departments. -/
def emptyData : UniData where
  departments := []
  distinct := nofun
  ofSchool _ := []
  ofSchool_subset := nofun

/-- What it raises when it is asked for one. -/
def departmentNotFound : Raised :=
  .exception ⟨.other, "HTTPStatusError", "Client error '404 Not Found'"⟩

@[reducible] def campusLibrary : StandardLibrary := recordLibrary mathematics.record

section Campus

attribute [local instance] campusLibrary

lemma legible_campusData : campusData.Legible where
  department d hd := by
    obtain rfl := List.mem_singleton.mp hd
    exact ⟨if_pos rfl, by decide⟩
  school n l hl := by
    have hempty : l = [] := List.eq_nil_iff_forall_not_mem.mpr fun d hd =>
      List.not_mem_nil ((hl d).mp hd).2
    rw [hempty]
    exact ⟨rfl, by decide⟩

/-- The department is found there, and cached. -/
def storing (log₁ log₂ : uniSig.State) : List (Exchange uniSig) :=
  missing (.ok mathematics.record) log₁ ++ [⟨.redis (.set (deptKey 1)
    (StandardLibrary.dumps mathematics.record) cacheTtl), log₂, .ok (), []⟩]

/-- **UniAPI has the department**: it is found. -/
theorem lookup_transparent_mathematics : ∃ log₁ log₂ log : uniSig.State,
    Run ((Lookup.department 1).run []) (storing log₁ log₂)
        (.done (.ok (.department (some mathematics.record))) log)
      ∧ Found.SameOutcome (.ok (.department (some mathematics.record)))
        ((Lookup.department 1).asked (.ok mathematics.record)) := by
  have hgives : campusData.Gives (.getDepartment 1) (.ok mathematics.record) :=
    .inl ⟨mathematics, List.mem_singleton.mpr rfl, rfl, rfl⟩
  have hset : campusData.Ends emptyServer (.redis (.set (deptKey 1)
      (StandardLibrary.dumps mathematics.record) cacheTtl)) (.ok ())
      (emptyServer.put (deptKey 1)
        (some ⟨.text (StandardLibrary.dumps mathematics.record), some (0 + cacheTtl)⟩)) :=
    ⟨emptyServer, some (), drifts_emptyServer, ⟨rfl, rfl⟩, rfl⟩
  have hadm : ∀ log₁ log₂, campusData.terms.Admits emptyServer (storing log₁ log₂) _ :=
    fun log₁ log₂ => .cons (ends_missing campusData)
      (.cons ⟨drifts_emptyServer, hgives⟩ (.cons hset (.nil _)))
  have hrun : ∃ log₁ log₂ log, Run ((Lookup.department 1).run []) (storing log₁ log₂)
      (.done (.ok (.department (some mathematics.record))) log) := by
    refine ⟨?_, ?_, ?_, ?run⟩
    case run =>
      refine .cons _ _ ?_
      refine .cons _ _ ?_
      refine .cons _ _ ?_
      exact .nil _
  obtain ⟨log₁, log₂, log, hrun⟩ := hrun
  exact ⟨log₁, log₂, log, hrun, lookup_transparent legible_campusData (.empty 0) (.department 1)
    hrun (hadm log₁ log₂) hgives⟩

/-- **UniAPI does not have the department**, and raises an exception: the lookup finds nothing. -/
theorem lookup_not_direct : ∃ (log log' : uniSig.State),
    emptyData.Reachable emptyServer
      ∧ Run ((Lookup.department 1).run []) (missing (.error departmentNotFound) log)
        (.done (.ok (.department none)) log')
      ∧ emptyData.terms.Admits emptyServer (missing (.error departmentNotFound) log) emptyServer
      ∧ emptyData.Gives (Lookup.department 1).question (.error departmentNotFound)
      ∧ ¬ Found.SameOutcome (.ok (.department none))
        ((Lookup.department 1).direct (.error departmentNotFound)) := by
  have hraises : emptyData.Gives (.getDepartment 1) (.error departmentNotFound) :=
    .inr ⟨nofun, .inl ⟨_, rfl⟩⟩
  refine ⟨?_, ?_, .empty 0, ?run, ?admits, hraises, id⟩
  case run =>
    refine .cons _ _ ?_
    refine .cons _ _ ?_
    exact .nil _
  case admits => exact .cons (ends_missing emptyData) (.cons ⟨drifts_emptyServer, hraises⟩ (.nil _))

end Campus

end Atsig
