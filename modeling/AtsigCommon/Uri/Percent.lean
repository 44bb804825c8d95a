import Mathlib.Data.List.Basic

/-!
# Percent-encoding

A text is percent-encoded by writing some of its characters as the bytes of their UTF-8 form, each
as `%` and two digits; the others are kept.  Decoding gives the bytes of the text.

* `escape keep` — encode every character that `keep` does not keep.
* `unescape` — decode; a `%` that two digits do not follow stands for itself.
* `unescape_escape` — whatever is kept, with the exception of `%`, decoding undoes encoding.
* `escape_forall` — what an encoded text consists of.
-/

namespace Uri

/-- A digit as it is written. -/
def hexDigit (n : ℕ) : Char :=
  if n < 10 then Char.ofNat (48 + n) else Char.ofNat (55 + n)

/-- A digit as it is read, in upper or lower case. -/
def hexValue (c : Char) : Option ℕ :=
  if '0' ≤ c ∧ c ≤ '9' then some (c.toNat - 48)
  else if 'A' ≤ c ∧ c ≤ 'F' then some (c.toNat - 55)
  else if 'a' ≤ c ∧ c ≤ 'f' then some (c.toNat - 87)
  else none

/-- One byte. -/
def escapeByte (b : UInt8) : List Char :=
  ['%', hexDigit (b.toNat / 16), hexDigit (b.toNat % 16)]

/-- The bytes of a text in UTF-8. -/
def utf8 (s : List Char) : List UInt8 := s.flatMap String.utf8EncodeChar

/-- One character. -/
def escapeChar (keep : Char → Bool) (c : Char) : List Char :=
  if keep c then [c] else (String.utf8EncodeChar c).flatMap escapeByte

/-- Encode a text. -/
def escape (keep : Char → Bool) (s : List Char) : List Char := s.flatMap (escapeChar keep)

/-- Decode a text. -/
def unescape : List Char → List UInt8
  | '%' :: a :: b :: rest =>
      match hexValue a, hexValue b with
      | some x, some y => UInt8.ofNat (16 * x + y) :: unescape rest
      | _, _ => String.utf8EncodeChar '%' ++ unescape (a :: b :: rest)
  | c :: rest => String.utf8EncodeChar c ++ unescape rest
  | [] => []

/-! ## Round trip -/

lemma hexValue_hexDigit : ∀ n < 16, hexValue (hexDigit n) = some n := by decide

lemma unescape_escapeByte (b : UInt8) (rest : List Char) :
    unescape (escapeByte b ++ rest) = b :: unescape rest := by
  have hb : b.toNat < 256 := b.toNat_lt
  simp only [escapeByte, List.cons_append, List.nil_append, unescape,
    hexValue_hexDigit (b.toNat / 16) (by omega), hexValue_hexDigit (b.toNat % 16) (by omega)]
  rw [show 16 * (b.toNat / 16) + b.toNat % 16 = b.toNat by omega, UInt8.ofNat_toNat]

lemma unescape_escapeBytes (rest : List Char) : ∀ bytes : List UInt8,
    unescape (bytes.flatMap escapeByte ++ rest) = bytes ++ unescape rest
  | [] => by simp
  | b :: bytes => by
      rw [List.flatMap_cons, List.append_assoc, unescape_escapeByte, unescape_escapeBytes rest bytes,
        List.cons_append]

lemma unescape_cons {c : Char} (hc : c ≠ '%') (rest : List Char) :
    unescape (c :: rest) = String.utf8EncodeChar c ++ unescape rest := by
  rw [unescape]
  simp [hc]

/-- **Decoding undoes encoding.** -/
theorem unescape_escape {keep : Char → Bool} (hkeep : keep '%' = false) (rest : List Char) :
    ∀ s : List Char, unescape (escape keep s ++ rest) = utf8 s ++ unescape rest
  | [] => by simp [escape, utf8]
  | c :: s => by
      have ih := unescape_escape hkeep rest s
      rw [escape, utf8, List.flatMap_cons, List.flatMap_cons, List.append_assoc, List.append_assoc,
        ← escape, ← utf8, ← ih, escapeChar]
      by_cases hc : keep c
      · have hne : c ≠ '%' := by
          rintro rfl
          simp [hkeep] at hc
        rw [if_pos hc]
        exact unescape_cons hne _
      · rw [if_neg hc]
        exact unescape_escapeBytes _ _

lemma utf8_injective : Function.Injective utf8 := by
  intro s t h
  have hbytes : s.utf8Encode = t.utf8Encode := by
    simp only [List.utf8Encode]
    exact congrArg _ h
  have := String.toByteArray_inj.mp
    (show (String.ofList s).toByteArray = (String.ofList t).toByteArray by simpa using hbytes)
  simpa using congrArg String.toList this

lemma escape_injective {keep : Char → Bool} (hkeep : keep '%' = false) :
    Function.Injective (escape keep) := by
  intro s t h
  have hs := unescape_escape hkeep [] s
  have ht := unescape_escape hkeep [] t
  rw [h, ht] at hs
  simpa using utf8_injective (List.append_cancel_right hs).symm

/-- The text of which some bytes are the UTF-8 form. -/
def decodeText (bytes : List UInt8) : Option String :=
  String.fromUTF8? bytes.toByteArray

lemma decodeText_utf8 (s : String) : decodeText (utf8 s.toList) = some s := by
  have hbytes : (utf8 s.toList).toByteArray = s.toByteArray := by
    rw [← String.utf8Encode_toList]
    rfl
  rw [decodeText, hbytes, String.fromUTF8?, dif_pos s.isValidUTF8]
  rfl

/-! ## What an encoded text consists of -/

lemma hexDigit_isAlphanum : ∀ n < 16, (hexDigit n).isAlphanum = true := by decide

/-- A character of an encoded text is a kept one, a percent sign or a digit. -/
theorem escape_forall {keep P : Char → Bool} (hkept : ∀ c, keep c → P c) (hpercent : P '%')
    (hdigit : ∀ c : Char, c.isAlphanum → P c) (s : List Char) : ∀ c ∈ escape keep s, P c := by
  intro c hc
  obtain ⟨d, -, hc⟩ := List.mem_flatMap.mp hc
  rw [escapeChar] at hc
  split at hc
  · obtain rfl := List.mem_singleton.mp hc
    exact hkept _ ‹_›
  · obtain ⟨b, -, hc⟩ := List.mem_flatMap.mp hc
    have hb : b.toNat < 256 := b.toNat_lt
    simp only [escapeByte, List.mem_cons, List.not_mem_nil, or_false] at hc
    rcases hc with rfl | rfl | rfl
    · exact hpercent
    · exact hdigit _ (hexDigit_isAlphanum _ (by omega))
    · exact hdigit _ (hexDigit_isAlphanum _ (by omega))

/-- A character that is neither kept nor used for encoding does not occur. -/
lemma notMem_escape {keep : Char → Bool} {d : Char} (hkeep : keep d = false) (hpercent : d ≠ '%')
    (hdigit : d.isAlphanum = false) (s : List Char) : d ∉ escape keep s := by
  intro hd
  have hne : decide (d ≠ d) = true := by
    refine @escape_forall keep (fun c => decide (c ≠ d)) ?_ ?_ ?_ s d hd
    · intro c hc
      rw [decide_eq_true_eq]
      rintro rfl
      simp [hkeep] at hc
    · simpa using hpercent.symm
    · intro c hc
      rw [decide_eq_true_eq]
      rintro rfl
      simp [hdigit] at hc
  simp at hne

/-- What is kept stays. -/
lemma escape_of_kept {keep : Char → Bool} {s : List Char} (h : ∀ c ∈ s, keep c) :
    escape keep s = s := by
  have hchars : ∀ c ∈ s, escapeChar keep c = [c] := fun c hc => if_pos (h c hc)
  rw [escape, List.flatMap_congr hchars]
  simp

end Uri
