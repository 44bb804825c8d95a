import Mathlib.Data.List.Basic
import Mathlib.Data.List.TakeWhile

/-!
# The parts of a URI and the segments of its path

A URI reference is cut into its five parts at the first `#`, the first `?` before it, the colon of
the scheme and the slashes around the authority, as the regular expression of RFC 3986 does.

* `Reference.split`, `Reference.split_absolute` — the parts, and what they are for a URI that was
  put together from them.
* `removeDots`, `normalizePath` — the segments `.` and `..` are resolved; a path keeps its leading
  slash.
* `splitOn_prefix_iff` — when the segments of one path begin with those of another.
-/

namespace Uri

/-! ## The five parts -/

/-- A URI reference. -/
structure Reference where
  scheme : Option (List Char)
  authority : Option (List Char)
  path : List Char
  query : Option (List Char)
  fragment : Option (List Char)

/-- What comes before the first `c`, or everything. -/
def before (c : Char) (s : List Char) : List Char := s.takeWhile (· ≠ c)

/-- What comes after the first `c`. -/
def after (c : Char) (s : List Char) : Option (List Char) := (s.dropWhile (· ≠ c)).tail?

/-- The scheme, which a colon ends, and the rest. -/
def splitScheme (s : List Char) : Option (List Char) × List Char :=
  match s.takeWhile (· ∉ [':', '/']), s.dropWhile (· ∉ [':', '/']) with
  | c :: scheme, ':' :: rest => (some (c :: scheme), rest)
  | _, _ => (none, s)

/-- The authority, which two slashes begin, and the path. -/
def splitAuthority : List Char → Option (List Char) × List Char
  | '/' :: '/' :: s => (some (s.takeWhile (· ≠ '/')), s.dropWhile (· ≠ '/'))
  | s => (none, s)

/-- The parts of a reference. -/
def Reference.split (s : List Char) : Reference :=
  let hierarchy := before '?' (before '#' s)
  let (scheme, rest) := splitScheme hierarchy
  let (authority, path) := splitAuthority rest
  { scheme := scheme
    authority := authority
    path := path
    query := after '?' (before '#' s)
    fragment := after '#' s }

lemma before_of_notMem {c : Char} {s : List Char} (h : c ∉ s) : before c s = s := by
  rw [before, List.takeWhile_eq_self_iff]
  intro d hd
  simp only [decide_eq_true_eq]
  rintro rfl
  exact h hd

lemma after_of_notMem {c : Char} {s : List Char} (h : c ∉ s) : after c s = none := by
  rw [after, List.dropWhile_eq_nil_iff.mpr]
  · rfl
  · intro d hd
    simp only [decide_eq_true_eq]
    rintro rfl
    exact h hd

/-- The characters that end a part before its time. -/
def Free (stops s : List Char) : Prop := ∀ c ∈ s, c ∉ stops

instance (stops s : List Char) : Decidable (Free stops s) :=
  List.decidableBAll (fun c => c ∉ stops) s

lemma Free.append {stops s t : List Char} (hs : Free stops s) (ht : Free stops t) :
    Free stops (s ++ t) := by
  intro c hc
  rcases List.mem_append.mp hc with hc | hc
  · exact hs c hc
  · exact ht c hc

/-- The stops are told apart from the text by some property. -/
lemma free_of_forall {stops s : List Char} {p : Char → Bool} (hs : ∀ c ∈ s, p c = true)
    (hstops : stops.all (fun d => !p d) = true) : Free stops s := by
  intro c hc hmem
  have hstop := List.all_eq_true.mp hstops c hmem
  rw [hs c hc] at hstop
  cases hstop

/-- **A URI that was put together from a scheme, an authority and a path is cut where it was put
together.** -/
theorem Reference.split_absolute {scheme authority path : List Char} (hne : scheme ≠ [])
    (hscheme : Free [':', '/', '?', '#'] scheme) (hauthority : Free ['/', '?', '#'] authority)
    (hpath : Free ['?', '#'] path) (hstart : path = [] ∨ path.head? = some '/') :
    Reference.split (scheme ++ [':', '/', '/'] ++ authority ++ path)
      = ⟨some scheme, some authority, path, none, none⟩ := by
  have hstop : ∀ d ∈ ['?', '#'], d ∉ scheme ++ [':', '/', '/'] ++ authority ++ path := by
    intro d hd hmem
    simp only [List.mem_cons, List.not_mem_nil, or_false] at hd
    simp only [List.mem_append] at hmem
    rcases hmem with ((hmem | hmem) | hmem) | hmem
    · have := hscheme d hmem
      rcases hd with rfl | rfl <;> simp at this
    · rcases hd with rfl | rfl <;> simp at hmem
    · have := hauthority d hmem
      rcases hd with rfl | rfl <;> simp at this
    · have := hpath d hmem
      rcases hd with rfl | rfl <;> simp at this
  have hquery := hstop '?' (by simp)
  have hfragment := hstop '#' (by simp)
  have htake : ∀ c ∈ scheme, decide (c ∉ [':', '/']) = true := by
    intro c hc
    have := hscheme c hc
    simp only [List.mem_cons, List.not_mem_nil, or_false, not_or] at this
    simp [this.1, this.2.1]
  have hrest : splitScheme (scheme ++ [':', '/', '/'] ++ authority ++ path)
      = (some scheme, ['/', '/'] ++ authority ++ path) := by
    simp only [List.append_assoc]
    rw [splitScheme, List.takeWhile_append_of_pos htake, List.dropWhile_append_of_pos htake]
    cases scheme with
    | nil => exact absurd rfl hne
    | cons c scheme => simp
  have hfree : ∀ c ∈ authority, decide (c ≠ '/') = true := by
    intro c hc
    have := hauthority c hc
    simp only [List.mem_cons, not_or] at this
    simp [this.1]
  have hcut : splitAuthority (['/', '/'] ++ authority ++ path) = (some authority, path) := by
    simp only [List.cons_append, List.nil_append]
    rw [splitAuthority, List.takeWhile_append_of_pos hfree, List.dropWhile_append_of_pos hfree]
    rcases hstart with rfl | hstart
    · simp
    · obtain ⟨rest, rfl⟩ := List.head?_eq_some_iff.mp hstart
      simp
  simp only [Reference.split]
  rw [before_of_notMem hfragment, before_of_notMem hquery, after_of_notMem hfragment,
    after_of_notMem hquery, hrest]
  simp only [hcut]

/-! ## Dot segments -/

/-- One segment of a path, after those of `output`. -/
def dotStep (output : List (List Char)) (segment : List Char) : List (List Char) :=
  if segment = ['.'] then output
  else if segment = ['.', '.'] then
    if output = [] ∨ output = [[]] then output else output.dropLast
  else output ++ [segment]

/-- The segments, with the dots resolved. -/
def removeDots (segments : List (List Char)) : List (List Char) := segments.foldl dotStep []

/-- A path, with the dots resolved. -/
def normalizePath (path : List Char) : List Char :=
  ['/'].intercalate (removeDots (path.splitOn '/'))

/-- The segments of a path that begins with a slash. -/
def segments (path : List Char) : List (List Char) := (path.splitOn '/').tail

/-- The segment is no dot segment. -/
def Plain (segment : List Char) : Prop := segment ≠ ['.'] ∧ segment ≠ ['.', '.']

lemma dotStep_plain {segment : List Char} (h : Plain segment) (output : List (List Char)) :
    dotStep output segment = output ++ [segment] := by
  rw [dotStep, if_neg h.1, if_neg h.2]

lemma foldl_dotStep_plain : ∀ (segments output : List (List Char)),
    (∀ segment ∈ segments, Plain segment) → segments.foldl dotStep output = output ++ segments
  | [], output, _ => by simp
  | segment :: segments, output, h => by
      have ih := foldl_dotStep_plain segments (output ++ [segment])
        fun s hs => h s (List.mem_cons_of_mem _ hs)
      rw [List.foldl_cons, dotStep_plain (h segment (List.mem_cons_self ..)), ih]
      simp

/-- The leading slash stays. -/
lemma foldl_dotStep_head : ∀ segments output : List (List Char),
    ∃ rest, segments.foldl dotStep ([] :: output) = [] :: rest
  | [], output => ⟨output, rfl⟩
  | segment :: segments, output => by
      rw [List.foldl_cons, dotStep]
      split
      · exact foldl_dotStep_head segments output
      · split
        · split
          · exact foldl_dotStep_head segments output
          · have hne : output ≠ [] := by
              rintro rfl
              simp_all
            rw [List.dropLast_cons_of_ne_nil hne]
            exact foldl_dotStep_head segments _
        · exact foldl_dotStep_head segments (output ++ [segment])

/-- What is left comes from the segments. -/
lemma mem_foldl_dotStep {s : List Char} : ∀ segments output : List (List Char),
    s ∈ segments.foldl dotStep output → s ∈ output ∨ s ∈ segments
  | [], output, h => Or.inl h
  | segment :: segments, output, h => by
      have ih := mem_foldl_dotStep segments (dotStep output segment) h
      rcases ih with ih | ih
      · rw [dotStep] at ih
        split at ih
        · exact Or.inl ih
        · split at ih
          · split at ih
            · exact Or.inl ih
            · exact Or.inl (List.dropLast_subset _ ih)
          · rcases List.mem_append.mp ih with ih | ih
            · exact Or.inl ih
            · rw [List.mem_singleton.mp ih]
              exact Or.inr (List.mem_cons_self ..)
      · exact Or.inr (List.mem_cons_of_mem _ ih)

lemma notMem_of_mem_splitOn {c : Char} {s : List Char} :
    ∀ path : List Char, s ∈ path.splitOn c → c ∉ s
  | [], h => by simp_all
  | d :: path, h => by
      have ih := fun {s} => notMem_of_mem_splitOn (c := c) (s := s) path
      rw [List.splitOn_cons_eq_if_modifyHead] at h
      split at h
      · rcases List.mem_cons.mp h with rfl | h
        · simp
        · exact ih h
      · rename_i hd
        cases hsplit : path.splitOn c with
        | nil => exact absurd hsplit (List.splitOn_ne_nil c path)
        | cons first rest =>
            rw [hsplit] at h
            rcases List.mem_cons.mp h with rfl | h
            · have hfirst := ih (s := first) (by simp [hsplit])
              have hne : c ≠ d := by
                rintro rfl
                simp at hd
              simp only [List.mem_cons, not_or]
              exact ⟨hne, hfirst⟩
            · exact ih (by simp [hsplit, h])

/-- What a path consists of. -/
lemma mem_intercalate {c sep : Char} : ∀ {ls : List (List Char)}, c ∈ [sep].intercalate ls →
    c = sep ∨ ∃ l ∈ ls, c ∈ l
  | [], h => by simp at h
  | [l], h => Or.inr ⟨l, by simp, by simpa using h⟩
  | l :: m :: ls, h => by
      rw [List.intercalate_cons_cons, List.mem_append, List.mem_append] at h
      rcases h with (h | h) | h
      · exact Or.inr ⟨l, by simp, h⟩
      · exact Or.inl (List.mem_singleton.mp h)
      · rcases mem_intercalate h with rfl | ⟨l', hl', hc⟩
        · exact Or.inl rfl
        · exact Or.inr ⟨l', List.mem_cons_of_mem _ hl', hc⟩

lemma intercalate_append {sep : Char} : ∀ {ls ms : List (List Char)}, ls ≠ [] → ms ≠ [] →
    [sep].intercalate (ls ++ ms) = [sep].intercalate ls ++ sep :: [sep].intercalate ms
  | [], _, h, _ => absurd rfl h
  | [l], m :: ms, _, _ => by
      rw [List.singleton_append, List.intercalate_cons_cons, List.intercalate_singleton]
      simp
  | l :: l' :: ls, ms, _, h => by
      have ih := @intercalate_append sep _ _ (List.cons_ne_nil l' ls) h
      rw [List.cons_append, List.cons_append, List.intercalate_cons_cons, ← List.cons_append, ih,
        List.intercalate_cons_cons]
      simp

/-- **The segments of a path begin with those of another one** if the path is the other one, or
goes on after it with a separator. -/
theorem splitOn_prefix_iff (sep : Char) (p q : List Char) :
    p.splitOn sep <+: q.splitOn sep ↔ q = p ∨ p ++ [sep] <+: q := by
  constructor
  · rintro ⟨rest, hrest⟩
    have hq := congrArg [sep].intercalate hrest
    rw [List.intercalate_splitOn] at hq
    cases rest with
    | nil =>
        rw [List.append_nil, List.intercalate_splitOn] at hq
        exact Or.inl hq.symm
    | cons m ms =>
        rw [intercalate_append (List.splitOn_ne_nil sep p) (List.cons_ne_nil m ms),
          List.intercalate_splitOn] at hq
        exact Or.inr ⟨[sep].intercalate (m :: ms), by rw [← hq]; simp⟩
  · rintro (rfl | ⟨rest, rfl⟩)
    · exact List.prefix_refl _
    · rw [List.append_assoc, List.singleton_append, List.splitOn_append_cons_self]
      exact List.prefix_append _ _

/-- **The segments of a resolved path.** -/
theorem segments_normalizePath {path : List Char} {rest : List (List Char)}
    (h : removeDots (path.splitOn '/') = [] :: rest) : segments (normalizePath path) = rest := by
  have hslash : ∀ s ∈ [] :: rest, '/' ∉ s := by
    intro s hs
    rw [← h] at hs
    rcases mem_foldl_dotStep _ _ hs with hs | hs
    · cases hs
    · exact notMem_of_mem_splitOn path hs
  rw [segments, normalizePath, h, List.splitOn_intercalate '/' hslash (by simp), List.tail_cons]

end Uri
