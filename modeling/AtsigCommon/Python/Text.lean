import Mathlib.Data.List.Basic
import Mathlib.Data.List.DropRight

/-!
# Texts that are rewritten and read back

`str.replace` for one character, `str.strip`, and the interpolation that `configparser` applies to a
value when it is read.

* `replace`, `toList_replace` — every occurrence of a character becomes a text.
* `strip`, `strip_strip` — the blanks at both ends go, and a second time nothing does.
* `interpolate` — two percent signs are one, `%(name)s` is the value of another option, and a
  percent sign may not stand for itself.
* `interpolate_double` — a text whose percent signs were doubled is read as it was.
-/

namespace Python

/-! ## Replacing a character -/

/-- What a character becomes when `old` is replaced. -/
def replaceChar (old : Char) (new : List Char) (c : Char) : List Char :=
  if c = old then new else [c]

/-- `text.replace(old, new)` for a single character. -/
def replace (text : String) (old : Char) (new : String) : String :=
  .ofList (text.toList.flatMap (replaceChar old new.toList))

@[simp] lemma toList_replace (text : String) (old : Char) (new : String) :
    (replace text old new).toList = text.toList.flatMap (replaceChar old new.toList) :=
  String.toList_ofList

@[simp] lemma replaceChar_self (old : Char) (new : List Char) : replaceChar old new old = new :=
  if_pos rfl

lemma replaceChar_of_ne {old c : Char} (h : c ≠ old) (new : List Char) :
    replaceChar old new c = [c] := if_neg h

/-! ## Stripping -/

section Strip

variable (isSpace : Char → Bool)

/-- `text.strip()` -/
def strip (text : List Char) : List Char := (text.dropWhile isSpace).rdropWhile isSpace

/-- What starts with no blank still does when blanks at its end go. -/
lemma dropWhile_rdropWhile {text : List Char} (h : text.dropWhile isSpace = text) :
    (text.rdropWhile isSpace).dropWhile isSpace = text.rdropWhile isSpace := by
  obtain ⟨rest, hrest⟩ := List.rdropWhile_prefix isSpace (l := text)
  cases hstart : text.rdropWhile isSpace with
  | nil => rfl
  | cons c cs =>
      rw [hstart, List.cons_append] at hrest
      refine List.dropWhile_cons_of_neg fun hc => ?_
      rw [← hrest, List.dropWhile_cons_of_pos hc] at h
      have hlength := (List.dropWhile_suffix (l := cs ++ rest) isSpace).length_le
      rw [h, List.length_cons] at hlength
      omega

/-- A stripped text has nothing left to strip. -/
theorem strip_strip (text : List Char) : strip isSpace (strip isSpace text) = strip isSpace text := by
  rw [strip, strip, dropWhile_rdropWhile isSpace (List.dropWhile_idempotent isSpace _),
    List.rdropWhile_idempotent]

end Strip

/-! ## Interpolation -/

/-- `name)s…` after `%(`: the name and the rest. -/
def reference (s : List Char) : Option (List Char × List Char) :=
  match s.takeWhile (· ≠ ')'), s.dropWhile (· ≠ ')') with
  | c :: name, ')' :: 's' :: rest => some (c :: name, rest)
  | _, _ => none

lemma length_reference {s name rest : List Char} (h : reference s = some (name, rest)) :
    rest.length < s.length := by
  have hdrop := (List.dropWhile_suffix (l := s) (· ≠ ')')).length_le
  rw [reference] at h
  split at h
  · rename_i hrest
    rw [hrest] at hdrop
    obtain ⟨-, rfl⟩ := Prod.mk.inj (Option.some.inj h)
    simp only [List.length_cons] at hdrop
    omega
  · cases h

/-- The value of an option as `configparser` reads it; `option` has the values of the others.
Nothing for a value that it refuses. -/
def interpolate (option : List Char → Option (List Char)) : List Char → Option (List Char)
  | '%' :: '%' :: rest => (interpolate option rest).map ('%' :: ·)
  | '%' :: '(' :: rest =>
      match h : reference rest with
      | some (name, tail) =>
          have := length_reference h
          (option name).bind fun value => (interpolate option tail).map (value ++ ·)
      | none => none
  | '%' :: _ => none
  | c :: rest => (interpolate option rest).map (c :: ·)
  | [] => some []
termination_by s => s.length

variable {option : List Char → Option (List Char)}

@[simp] lemma interpolate_nil : interpolate option [] = some [] := by
  rw [interpolate]

lemma interpolate_percents (rest : List Char) :
    interpolate option ('%' :: '%' :: rest) = (interpolate option rest).map ('%' :: ·) := by
  rw [interpolate]

lemma interpolate_cons {c : Char} (hc : c ≠ '%') (rest : List Char) :
    interpolate option (c :: rest) = (interpolate option rest).map (c :: ·) := by
  rw [interpolate]
  all_goals simp [hc]

/-- **Doubled percent signs are read as one.** -/
theorem interpolate_double : ∀ s : List Char,
    interpolate option (s.flatMap (replaceChar '%' ['%', '%'])) = some s
  | [] => interpolate_nil
  | c :: s => by
      have ih := interpolate_double s
      rw [List.flatMap_cons]
      by_cases hc : c = '%'
      · subst hc
        rw [replaceChar_self, List.cons_append, List.cons_append, List.nil_append,
          interpolate_percents, ih]
        rfl
      · rw [replaceChar_of_ne hc, List.singleton_append, interpolate_cons hc, ih]
        rfl

end Python
