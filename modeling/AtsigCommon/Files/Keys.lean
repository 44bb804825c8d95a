import AtsigCommon.Auth.Groups
import AtsigCommon.Uri.Rewriting

/-!
# Storage keys

`is_key_under_prefix` of `atsig_common.files.keys` decides whether a storage key is a plain key
below a folder.  It looks at characters and at the start of the text; what it says is about
segments, and about every way of reading the key.

* `Below` — the key is plain, and its segments go on after those of the folder.
* `isKeyUnderPrefix_sound` — the check says exactly this, and no server reads the key otherwise.
-/

namespace Atsig

open Uri

/-- `text.endswith("/")` -/
def endsWithSlash (text : String) : Bool := ['/'].isSuffixOf text.toList

/-- `ord(ch) < 32 or ord(ch) == 127` -/
def isControl (ch : Char) : Bool := ch.toNat < 32 || ch.toNat = 127

/-- `is_key_under_prefix` -/
def isKeyUnderPrefix (key folder : String) : Bool :=
  if !endsWithSlash folder || !startsWith key folder then false
  else if (['\\', '%'].any fun ch => key.toList.contains ch) || key.toList.any isControl then false
  else (key.toList.splitOn '/').all fun segment => segment ∉ [[], ['.'], ['.', '.']]

/-- The key is a plain key below the folder. -/
structure Below (key folder : String) : Prop where
  slash : ∃ path, folder.toList = path ++ ['/']
  chars : ∀ ch ∈ key.toList, ch ≠ '\\' ∧ ch ≠ '%' ∧ ¬ (ch.toNat < 32 ∨ ch.toNat = 127)
  segments : ∀ s ∈ key.toList.splitOn '/', s ≠ [] ∧ s ≠ ['.'] ∧ s ≠ ['.', '.']
  begins : ∃ rest, rest ≠ []
    ∧ key.toList.splitOn '/' = folder.toList.dropLast.splitOn '/' ++ rest

lemma endsWithSlash_iff (text : String) :
    endsWithSlash text = true ↔ ∃ path, text.toList = path ++ ['/'] := by
  rw [endsWithSlash, List.isSuffixOf_iff_suffix]
  exact exists_congr fun path => eq_comm

/-- The two tests of the characters. -/
lemma plainChars_iff (key : String) :
    (((['\\', '%'].any fun ch => key.toList.contains ch) || key.toList.any isControl) = true)
      ↔ ¬ ∀ ch ∈ key.toList, ch ≠ '\\' ∧ ch ≠ '%' ∧ ¬ (ch.toNat < 32 ∨ ch.toNat = 127) := by
  simp only [List.any_cons, List.any_nil, Bool.or_false, Bool.or_eq_true, List.contains_iff_mem,
    List.any_eq_true, isControl, decide_eq_true_eq, not_forall]
  constructor
  · rintro ((h | h) | ⟨ch, hch, hcontrol⟩)
    · exact ⟨_, h, fun hall => hall.1 rfl⟩
    · exact ⟨_, h, fun hall => hall.2.1 rfl⟩
    · exact ⟨ch, hch, fun hall => hall.2.2 hcontrol⟩
  · rintro ⟨ch, hch, hnot⟩
    by_cases hbackslash : ch = '\\'
    · exact .inl (.inl (hbackslash ▸ hch))
    by_cases hpercent : ch = '%'
    · exact .inl (.inr (hpercent ▸ hch))
    refine .inr ⟨ch, hch, ?_⟩
    by_contra hcontrol
    exact hnot ⟨hbackslash, hpercent, hcontrol⟩

/-- **The check is sound and complete.** -/
lemma isKeyUnderPrefix_iff (key folder : String) :
    isKeyUnderPrefix key folder = true ↔ Below key folder := by
  have hsegments : ((key.toList.splitOn '/').all fun segment =>
      segment ∉ [[], ['.'], ['.', '.']]) = true
        ↔ ∀ s ∈ key.toList.splitOn '/', s ≠ [] ∧ s ≠ ['.'] ∧ s ≠ ['.', '.'] := by
    simp
  have hbegins : ∀ path, folder.toList = path ++ ['/'] → (startsWith key folder = true
      ↔ ∃ rest, rest ≠ []
        ∧ key.toList.splitOn '/' = folder.toList.dropLast.splitOn '/' ++ rest) := by
    intro path hpath
    rw [splitOn_below_iff, startsWith, List.isPrefixOf_iff_prefix, hpath, List.dropLast_concat]
  rw [isKeyUnderPrefix]
  split_ifs with hstart hchars
  · refine iff_of_false id fun h => ?_
    obtain ⟨path, hpath⟩ := h.slash
    rw [(endsWithSlash_iff folder).mpr h.slash, (hbegins path hpath).mpr h.begins] at hstart
    cases hstart
  · exact iff_of_false id fun h => (plainChars_iff key).mp hchars h.chars
  · rw [hsegments]
    constructor
    · intro h
      rw [Bool.or_eq_true, not_or, Bool.not_eq_true, Bool.not_eq_true, Bool.not_eq_false',
        Bool.not_eq_false'] at hstart
      obtain ⟨path, hpath⟩ := (endsWithSlash_iff folder).mp hstart.1
      exact {
        slash := ⟨path, hpath⟩
        chars := by
          by_contra hnot
          exact hchars ((plainChars_iff key).mpr hnot)
        segments := h
        begins := (hbegins path hpath).mp hstart.2 }
    · exact fun h => h.segments

lemma Below.inert {key folder : String} (h : Below key folder) : Inert key.toList where
  percent hmem := (h.chars _ hmem).2.1 rfl
  backslash hmem := (h.chars _ hmem).1 rfl
  nonempty s hs := (h.segments s hs).1
  plain s hs := (h.segments s hs).2

lemma Below.goes_on {key folder : String} (h : Below key folder) :
    ∃ rest, rest ≠ [] ∧ key.toList = folder.toList ++ rest := by
  obtain ⟨path, hpath⟩ := h.slash
  have hbegins := h.begins
  rw [hpath, List.dropLast_concat, splitOn_below_iff] at hbegins
  obtain ⟨rest, hrest⟩ := hbegins
  refine ⟨rest, ?_, by rw [hpath, hrest]⟩
  -- the last segment of a plain key is not empty
  rintro rfl
  refine (h.segments [] ?_).1 rfl
  rw [← hrest, List.append_nil, List.splitOn_append_cons_self]
  simp

/-- A plain key is below every folder that it begins with. -/
lemma Below.shorter {key folder shorter : String} (h : Below key folder) {path : List Char}
    (hpath : shorter.toList = path ++ ['/']) (hstart : shorter.toList <+: key.toList) :
    Below key shorter where
  slash := ⟨path, hpath⟩
  chars := h.chars
  segments := h.segments
  begins := by
    rw [hpath, List.dropLast_concat, splitOn_below_iff, ← hpath]
    exact hstart

/-- **The check of a storage key.**  It accepts the plain keys below the folder and no others.  No
rounds of rewritings change an accepted key, which stays below the folder; and it is accepted for
every shorter folder that it begins with. -/
theorem isKeyUnderPrefix_sound (key folder : String) :
    (isKeyUnderPrefix key folder = true ↔ Below key folder)
      ∧ (isKeyUnderPrefix key folder = true →
        (∀ rounds : List Rewriting, rewrite rounds key.toList = some key.toList)
          ∧ (∃ rest, rest ≠ [] ∧ key.toList = folder.toList ++ rest)
          ∧ ∀ shorter : String, shorter ≠ "" → shorter.length < key.length →
            startsWith key shorter = true → endsWithSlash shorter = true →
              isKeyUnderPrefix key shorter = true) := by
  refine ⟨isKeyUnderPrefix_iff key folder, fun haccepted => ?_⟩
  have hbelow := (isKeyUnderPrefix_iff key folder).mp haccepted
  refine ⟨rewrite_inert hbelow.inert, hbelow.goes_on, fun shorter _ _ hstart hslash => ?_⟩
  obtain ⟨path, hpath⟩ := (endsWithSlash_iff shorter).mp hslash
  rw [isKeyUnderPrefix_iff]
  exact hbelow.shorter hpath (List.isPrefixOf_iff_prefix.mp hstart)

/-- A document of an application. -/
theorem isKeyUnderPrefix_sound_document :
    rewrite [.decode, .resolve, .slashes, .collapse, .decode] "applications/1/a.pdf".toList
      = some "applications/1/a.pdf".toList :=
  (((isKeyUnderPrefix_sound "applications/1/a.pdf" "applications/1/").2 (by decide)).1) _

end Atsig
