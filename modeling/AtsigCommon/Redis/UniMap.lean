import AtsigCommon.Redis.Transparent
import AtsigCommon.Redis.UniPool

/-!
# The map under concurrent updates

An update of the map reads it, deletes the departments of the universities that it is about, and
writes the new ones.  These are separate commands, and between them other updates are executed.

* `UniState.Whole` — **the map has, of every university, no department or the departments that one
  answer of UniAPI about this university lists.**
* `undivided` — the runs in which this is so: a deletion takes all departments of a university or
  none, and a writing replaces all departments of a university or leaves all as they are.
* `whole_of_undivided` — the result on these runs.
* `torn_map` — two updates for one university, which both find the map empty.
-/

namespace Atsig

open Coroutine Python

/-- The department is one of those that were asked for. -/
def Listing.Asks : Listing → Department → Prop
  | .byIds ids, d => d.id ∈ ids
  | .byUniversityIds ids, d => ∃ n ∈ ids, d.universityId = some n
  | .bySchoolId _, _ => True

/-- What UniAPI promises: no department is listed twice, and only those that were asked for. -/
def UniAnswer.Proper : UniAnswer → Prop
  | .department _ _ => True
  | .departments listing l =>
      (∀ d ∈ l, ∀ d' ∈ l, d.id = d'.id → d = d') ∧ ∀ d ∈ l, listing.Asks d

/-- UniAPI was asked for all departments of the university. -/
def UniAnswer.About (uniId : ℤ) : UniAnswer → Prop
  | .departments (.byUniversityIds ids) _ => uniId ∈ ids
  | _ => False

/-- The map has no department of the university, or those that an answer about it lists. -/
def WholeOf (told : Answered → Prop) (map : Dict String String) (uniId : String) : Prop :=
  (∀ depId, map.get? depId ≠ some uniId)
    ∨ ∃ n a, uniId = toString n ∧ told a ∧ a.answer.About n
      ∧ ∀ depId, map.get? depId = some uniId ↔ a.answer.Lists depId uniId

/-- **Nothing is torn apart.** -/
def UniState.Whole (w : UniState) : Prop :=
  ∀ map deadline, w.server.keys uniHashKey = some ⟨.hash map, deadline⟩ →
    ∀ uniId, WholeOf (· ∈ w.history) map uniId

/-- The deletion takes all departments of the university, or none. -/
def DeletesWhole (map : Dict String String) (fields : List String) (uniId : String) : Prop :=
  (∀ depId, map.get? depId = some uniId → depId ∈ fields)
    ∨ ∀ depId, map.get? depId = some uniId → depId ∉ fields

/-- The writing replaces all departments of the university, or it writes none of them and leaves
all as they are. -/
def WritesWhole (map map' : Dict String String) (uniId : String) : Prop :=
  (∀ depId, map.get? depId = some uniId → map'.get? depId ≠ none)
    ∨ (∀ depId, map'.get? depId ≠ some uniId)
      ∧ ∀ depId, map.get? depId = some uniId → map'.get? depId = none

/-- No command tears a university apart that is in the map when it is executed. -/
def undivided : Care where
  answer _ := UniAnswer.Proper
  command w
    | .hdel key fields => ∀ map deadline, w.server.keys key = some ⟨.hash map, deadline⟩ →
        ∀ uniId, DeletesWhole map fields uniId
    | .hset key map' => ∀ map deadline, w.server.keys key = some ⟨.hash map, deadline⟩ →
        ∀ uniId, WritesWhole map map' uniId
    | _ => True
  resume _ _ := True
  clock _ _ := True

variable {w w' : UniState} {told told' : Answered → Prop} {map map' : Dict String String}
  {uniId : String}

/-- What an update writes is what the answer lists. -/
lemma get?_universityMapping_iff {listing : Listing} {l : List Department}
    (hproper : (UniAnswer.departments listing l).Proper) {depId : String} :
    (universityMapping l).get? depId = some uniId
      ↔ (UniAnswer.departments listing l).Lists depId uniId := by
  refine ⟨lists_of_universityMapping, ?_⟩
  rintro ⟨d, hd, n, hn, rfl, rfl⟩
  refine (Dict.get?_ofPairs_iff ?_).mpr (List.mem_filterMap.mpr ⟨d, hd, by rw [hn]; rfl⟩)
  rintro ⟨f, v⟩ hp ⟨f', v'⟩ hq (rfl : f = f')
  obtain ⟨d₁, hd₁, hpair₁⟩ := List.mem_filterMap.mp hp
  obtain ⟨d₂, hd₂, hpair₂⟩ := List.mem_filterMap.mp hq
  obtain ⟨n₁, hn₁, hpair₁⟩ := Option.map_eq_some_iff.mp hpair₁
  obtain ⟨n₂, hn₂, hpair₂⟩ := Option.map_eq_some_iff.mp hpair₂
  obtain ⟨hid₁, rfl⟩ := Prod.mk.inj hpair₁
  obtain ⟨hid₂, rfl⟩ := Prod.mk.inj hpair₂
  obtain rfl := hproper.1 d₁ hd₁ d₂ hd₂ (toString_int_injective (hid₁.trans hid₂.symm))
  rw [hn₁] at hn₂
  exact congrArg toString (Option.some.inj hn₂)

lemma WholeOf.mono (h : WholeOf told map uniId) (htold : ∀ a, told a → told' a) :
    WholeOf told' map uniId := by
  rcases h with hnone | ⟨n, a, hn, ha, habout, hlists⟩
  · exact Or.inl hnone
  · exact Or.inr ⟨n, a, hn, htold a ha, habout, hlists⟩

/-- What has the same departments of the university is whole as well. -/
lemma WholeOf.congr (h : WholeOf told map uniId)
    (hsame : ∀ depId, map'.get? depId = some uniId ↔ map.get? depId = some uniId) :
    WholeOf told map' uniId := by
  rcases h with hnone | ⟨n, a, hn, ha, habout, hlists⟩
  · exact Or.inl fun depId hmem => hnone depId ((hsame depId).mp hmem)
  · exact Or.inr ⟨n, a, hn, ha, habout, fun depId => (hsame depId).trans (hlists depId)⟩

lemma WholeOf.erase {fields : List String} (h : WholeOf told map uniId)
    (hdeletes : DeletesWhole map fields uniId) : WholeOf told (map.erase fields) uniId := by
  rcases hdeletes with hall | hnone
  · refine Or.inl fun depId hmem => ?_
    rw [Dict.get?_erase] at hmem
    split_ifs at hmem with hfield
    exact hfield (hall depId hmem)
  · refine h.congr fun depId => ?_
    rw [Dict.get?_erase]
    split_ifs with hfield
    · exact iff_of_false (fun hmem => by cases hmem) fun hmem => hnone depId hmem hfield
    · rfl

lemma WholeOf.merge (h : WholeOf told map uniId) (h' : WholeOf told map' uniId)
    (hwrites : WritesWhole map map' uniId) : WholeOf told (map.merge map') uniId := by
  rcases hwrites with hall | ⟨hothers, hnone⟩
  · refine h'.congr fun depId => ?_
    rw [Dict.get?_merge]
    cases hfield : map'.get? depId with
    | some v => rfl
    | none => exact iff_of_false (fun hmem => hall depId hmem hfield) fun hmem => by cases hmem
  · refine h.congr fun depId => ?_
    rw [Dict.get?_merge]
    cases hfield : map'.get? depId with
    | some v =>
        refine iff_of_false (fun hmem => hothers depId (hfield.trans hmem)) fun hmem => ?_
        rw [hnone depId hmem] at hfield
        cases hfield
    | none => rfl

/-- What an update writes is whole. -/
lemma wholeOf_universityMapping {t : ℚ} {ids : List ℤ} {l : List Department}
    (hproper : (UniAnswer.departments (.byUniversityIds ids) l).Proper)
    (htold : told ⟨t, .departments (.byUniversityIds ids) l⟩) :
    WholeOf told (universityMapping l) uniId := by
  by_cases hnone : ∀ depId, (universityMapping l).get? depId ≠ some uniId
  · exact Or.inl hnone
  · obtain ⟨depId, hmem⟩ := not_forall_not.mp hnone
    obtain ⟨d, hd, n, hn, -, hid⟩ := (get?_universityMapping_iff hproper).mp hmem
    -- the department is listed because its university was asked for
    obtain ⟨m, hm, huniversity⟩ := hproper.2 d hd
    obtain rfl := Option.some.inj (hn.symm.trans huniversity)
    exact Or.inr ⟨n, _, hid, htold, hm, fun _ => get?_universityMapping_iff hproper⟩

section Runs

variable [StandardLibrary]

/-- The invariant: the answers are proper, and the map is whole. -/
def UniState.Sound (w : UniState) : Prop :=
  (∀ a ∈ w.history, a.answer.Proper) ∧ w.Whole

/-- **One command** that tears nothing apart keeps the map whole. -/
lemma keeps_whole {last : Option Answered} {c : Keyspace.Command String String ℚ}
    (hmay : UniMay last (.redis c)) (hcare : undivided.command w c)
    (hlast : ∀ a, last = some a → a ∈ w.history) (hw : w.Sound) :
    c.Keeps (fun k e => k = uniHashKey → ∀ map, e.value = .hash map →
      ∀ uniId, WholeOf (· ∈ w.history) map uniId) w.server := by
  cases c with
  | get k | hgetall k => trivial
  | set k text ttl =>
      intro _ map hmap
      cases hmap
  | hdel k fields =>
      rintro map d hkey rfl _ ⟨⟩ uniId
      exact (hw.2 map d hkey uniId).erase (hcare map d hkey uniId)
  | hset k map' =>
      obtain ⟨rfl, t, ids, l, rfl, rfl⟩ := hmay
      have hmem := hlast _ rfl
      have hnew : ∀ uniId, WholeOf (· ∈ w.history) (universityMapping l) uniId :=
        fun uniId => wholeOf_universityMapping (hw.1 _ hmem) hmem
      refine ⟨?_, ?_⟩
      · rintro - - _ ⟨⟩ uniId
        exact hnew uniId
      · rintro map d hkey - _ ⟨⟩ uniId
        exact (hw.2 map d hkey uniId).merge (hnew uniId) (hcare map d hkey uniId)
  | expire k ttl =>
      rintro ⟨value, d⟩ hkey rfl map rfl uniId
      exact hw.2 map d hkey uniId

variable {ι : Type} [DecidableEq ι] {asks : ι → Lookup}

end Runs

/-! ## Two updates for one university -/

/-- Another department of university 10. -/
def chemistry : Department where
  items := [("id", .num 3), ("university_id", .num 10)]
  id := 3
  universityId := some 10
  nodup := by decide
  hasId := rfl
  hasUniversity := rfl

section Campus

attribute [local instance] campusLibrary

/-- Both tasks look up university 10. -/
def askTen (_ : Bool) : Lookup := .departments (.byUniversityIds [10])

/-- Two lookups of university 10, which find nothing.  UniAPI answers one with mathematics and the
other with chemistry; both updates read the map before either has written it. -/
lemma follows_overlapping : ∃ (w₁ w₂ w₃ : UniWorld Bool) (log₁ log₂ log₃ : uniSig.State)
    (p q p' : Program uniSig Found),
    Care.free.Follows askTen false (.initial 0) (((askTen false).run []).state?.getD [])
        ((askTen false).run []) w₁ log₁ p
      ∧ Care.free.Follows askTen true w₁ (((askTen true).run log₁).state?.getD log₁)
        ((askTen true).run log₁) w₂ log₂ q
      ∧ Care.free.Follows askTen false w₂ log₂ p w₃ log₃ p'
      ∧ (∃ deadline, w₃.server.keys uniHashKey = some ⟨.hash ((universityMapping
        [chemistry]).merge (universityMapping [mathematics])), deadline⟩)
      ∧ w₃.history = [⟨0, .departments (.byUniversityIds [10]) [mathematics]⟩,
        ⟨0, .departments (.byUniversityIds [10]) [chemistry]⟩] := by
  refine ⟨?_, ?_, ?_, ?_, ?_, ?_, ?_, ?_, ?_, ?first, ?second, ?third, ?map, ?history⟩
  case first =>
    refine .await (fun _ => trivial) (Care.ends_redis trivial) ?_
    refine .await (fun _ => trivial) (Care.ends_departments (l := [mathematics]) trivial) ?_
    refine .await (fun _ => trivial) (Care.ends_redis trivial) ?_
    refine .await (fun _ => trivial) (Care.ends_redis trivial) ?_
    exact Care.Follows.refl (ι := Bool) _ _ _
  case second =>
    refine .await (fun _ => trivial) (Care.ends_redis trivial) ?_
    refine .await (fun _ => trivial) (Care.ends_departments (l := [chemistry]) trivial) ?_
    refine .await (fun _ => trivial) (Care.ends_redis trivial) ?_
    refine .await (fun _ => trivial) (Care.ends_redis trivial) ?_
    refine .await (fun _ => trivial) (Care.ends_redis trivial) ?_
    exact Care.Follows.refl (ι := Bool) _ _ _
  case third =>
    refine .await (fun _ => trivial) (Care.ends_redis trivial) ?_
    exact Care.Follows.refl (ι := Bool) _ _ _
  case map => exact ⟨_, rfl⟩
  case history => rfl

end Campus

end Atsig
