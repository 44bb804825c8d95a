import AtsigCommon.Uri.Percent
import AtsigCommon.Uri.Reference

/-!
# What a server may read into a path

Between the text of a path and the thing that it names, a server or a store may decode what is
percent-encoded, take a backslash for a slash, drop the empty segments and resolve the dots, in any
order and any number of times.

* `Rewriting`, `rewrite` — the four rewritings, and rounds of them.
* `Inert` — a path that has nothing to rewrite; `rewrite_inert` — no round changes it.
-/

namespace Uri

/-- What may be done to a path. -/
inductive Rewriting
  | decode
  | slashes
  | collapse
  | resolve
  deriving DecidableEq

/-- A backslash is a slash. -/
def slash (c : Char) : Char := if c = '\\' then '/' else c

/-- The path without its empty segments. -/
def collapse (path : List Char) : List Char :=
  ['/'].intercalate ((path.splitOn '/').filter (· ≠ []))

/-- The path after a rewriting.  What is decoded may be no text. -/
def Rewriting.apply : Rewriting → List Char → Option (List Char)
  | .decode, path => (decodeText (unescape path)).map String.toList
  | .slashes, path => some (path.map slash)
  | .collapse, path => some (Uri.collapse path)
  | .resolve, path => some (normalizePath path)

/-- Rounds of rewritings, one after the other. -/
def rewrite (rounds : List Rewriting) (path : List Char) : Option (List Char) :=
  rounds.foldlM (fun p r => r.apply p) path

/-- Nothing in the path can be rewritten. -/
structure Inert (path : List Char) : Prop where
  percent : '%' ∉ path
  backslash : '\\' ∉ path
  nonempty : ∀ s ∈ path.splitOn '/', s ≠ []
  plain : ∀ s ∈ path.splitOn '/', Plain s

/-- Nothing is encoded where there is no percent sign. -/
lemma unescape_of_notMem {path : List Char} (h : '%' ∉ path) : unescape path = utf8 path := by
  induction path with
  | nil => rfl
  | cons c path ih =>
      rw [List.mem_cons, not_or] at h
      rw [unescape_cons (Ne.symm h.1), ih h.2]
      rfl

lemma decode_inert {path : List Char} (h : '%' ∉ path) :
    Rewriting.decode.apply path = some path := by
  have htext := decodeText_utf8 (String.ofList path)
  rw [String.toList_ofList] at htext
  rw [Rewriting.apply, unescape_of_notMem h, htext, Option.map_some, String.toList_ofList]

lemma slashes_inert {path : List Char} (h : '\\' ∉ path) :
    Rewriting.slashes.apply path = some path := by
  have hsame : ∀ c ∈ path, slash c = c := by
    intro c hc
    refine if_neg ?_
    rintro rfl
    exact h hc
  rw [Rewriting.apply, List.map_congr_left hsame, List.map_id']

lemma collapse_inert {path : List Char} (h : ∀ s ∈ path.splitOn '/', s ≠ []) :
    Rewriting.collapse.apply path = some path := by
  have hall : (path.splitOn '/').filter (· ≠ []) = path.splitOn '/' := by
    rw [List.filter_eq_self]
    intro s hs
    exact decide_eq_true (h s hs)
  rw [Rewriting.apply, collapse, hall, List.intercalate_splitOn]

lemma resolve_inert {path : List Char} (h : ∀ s ∈ path.splitOn '/', Plain s) :
    Rewriting.resolve.apply path = some path := by
  have hall : removeDots (path.splitOn '/') = path.splitOn '/' := by
    rw [removeDots, foldl_dotStep_plain _ _ h, List.nil_append]
  rw [Rewriting.apply, normalizePath, hall, List.intercalate_splitOn]

lemma Inert.apply {path : List Char} (h : Inert path) (r : Rewriting) :
    r.apply path = some path := by
  cases r with
  | decode => exact decode_inert h.percent
  | slashes => exact slashes_inert h.backslash
  | collapse => exact collapse_inert h.nonempty
  | resolve => exact resolve_inert h.plain

/-- **No round changes an inert path.** -/
theorem rewrite_inert {path : List Char} (h : Inert path) (rounds : List Rewriting) :
    rewrite rounds path = some path := by
  induction rounds with
  | nil => rfl
  | cons r rounds ih =>
      rw [rewrite, List.foldlM_cons, h.apply r]
      exact ih

/-- **Below a folder**: the segments of the path begin with those of the folder, and go on. -/
theorem splitOn_below_iff (sep : Char) (p q : List Char) :
    (∃ rest, rest ≠ [] ∧ q.splitOn sep = p.splitOn sep ++ rest) ↔ p ++ [sep] <+: q := by
  constructor
  · rintro ⟨rest, hrest, hq⟩
    rcases (splitOn_prefix_iff sep p q).mp ⟨rest, hq.symm⟩ with rfl | h
    · exact absurd (List.self_eq_append_right.mp hq) hrest
    · exact h
  · rintro ⟨rest, rfl⟩
    refine ⟨rest.splitOn sep, List.splitOn_ne_nil sep rest, ?_⟩
    rw [List.append_assoc, List.singleton_append, List.splitOn_append_cons_self]

end Uri
