import AtsigCommon.Python.Values
import AtsigCommon.Uri.Percent

/-!
# JSON texts of strings

How `json.dumps` writes the characters of a string, with and without `ensure_ascii`, and how
`json.loads` reads them.  A code of four digits is a UTF-16 code unit, so a character outside the
basic plane is two of them; a surrogate that stands alone is no character of a `String`, and is not
read.

* `writeString`, `scanString` — writing and reading.
* `scanString_write` — what is written is read.
* `isPrintable_of_mem_writeString` — no control character is written, and with `ensure_ascii`
  nothing but ASCII.
-/

namespace Python

/-! ## Code units -/

/-- Four hexadecimal digits. -/
def writeHex4 (n : ℕ) : List Char :=
  [hexDigit (n / 4096), hexDigit (n / 256 % 16), hexDigit (n / 16 % 16), hexDigit (n % 16)]

/-- The number that four digits stand for. -/
def readHex4 (a b c d : Char) : Option ℕ :=
  match Uri.hexValue a, Uri.hexValue b, Uri.hexValue c, Uri.hexValue d with
  | some w, some x, some y, some z => some (((w * 16 + x) * 16 + y) * 16 + z)
  | _, _, _, _ => none

/-- One code unit as an escape. -/
def writeUnit (n : ℕ) : List Char := '\\' :: 'u' :: writeHex4 n

/-- A first surrogate. -/
def isHighSurrogate (n : ℕ) : Bool := 0xd800 ≤ n && n ≤ 0xdbff

/-- A second surrogate. -/
def isLowSurrogate (n : ℕ) : Bool := 0xdc00 ≤ n && n ≤ 0xdfff

/-- What a code unit says after the surrogate `high`: the surrogate that is open now, and the
characters that are complete. -/
def readUnit : (high : Option ℕ) → ℕ → Option (Option ℕ × List Char)
  | none, n =>
      if isHighSurrogate n then some (some n, [])
      else if isLowSurrogate n then none
      else some (none, [Char.ofNat n])
  | some high, n =>
      if isLowSurrogate n then
        some (none, [Char.ofNat (0x10000 + ((high - 0xd800) * 0x400 + (n - 0xdc00)))])
      else none

lemma hexValue_hexDigit : ∀ n < 16, Uri.hexValue (hexDigit n) = some n := by decide

lemma readHex4_write {n : ℕ} (h : n < 65536) :
    readHex4 (hexDigit (n / 4096)) (hexDigit (n / 256 % 16)) (hexDigit (n / 16 % 16))
      (hexDigit (n % 16)) = some n := by
  have hvalue : ((n / 4096 * 16 + n / 256 % 16) * 16 + n / 16 % 16) * 16 + n % 16 = n := by omega
  rw [readHex4, hexValue_hexDigit _ (by omega), hexValue_hexDigit _ (by omega),
    hexValue_hexDigit _ (by omega), hexValue_hexDigit _ (by omega)]
  exact congrArg some hvalue

/-! ## Writing -/

/-- The characters with an escape of their own, and its letter. -/
def shortEscapes : List (Char × Char) :=
  [('\\', '\\'), ('"', '"'), (Char.ofNat 8, 'b'), (Char.ofNat 12, 'f'), ('\n', 'n'), ('\r', 'r'),
    ('\t', 't')]

/-- The escape of a character by its code. -/
def writeCode (n : ℕ) : List Char :=
  if n < 0x10000 then writeUnit n
  else writeUnit (0xd800 + (n - 0x10000) / 0x400) ++ writeUnit (0xdc00 + (n - 0x10000) % 0x400)

/-- One character. -/
def writeChar (ensureAscii : Bool) (c : Char) : List Char :=
  match shortEscapes.lookup c with
  | some letter => ['\\', letter]
  | none =>
      if c.toNat < 32 || (ensureAscii && 126 < c.toNat) then writeCode c.toNat else [c]

/-- A string, with its quotes. -/
def writeString (ensureAscii : Bool) (s : String) : List Char :=
  '"' :: s.toList.flatMap (writeChar ensureAscii) ++ ['"']

/-! ## Reading -/

/-- The character of an escape that is one letter. -/
def readShort (letter : Char) : Option Char :=
  (('/', '/') :: shortEscapes.map Prod.swap).lookup letter

/-- The rest of a string up to the quote that ends it, after the surrogate `high`. -/
def scanString : (high : Option ℕ) → List Char → Option (List Char × List Char)
  | _, [] => none
  | high, c :: cs =>
      if c = '\\' then
        match cs with
        | [] => none
        | letter :: cs =>
            if letter = 'u' then
              match cs with
              | a :: b :: c :: d :: rest =>
                  match (readHex4 a b c d).bind (readUnit high) with
                  | some (high, chars) =>
                      (scanString high rest).map fun p => (chars ++ p.1, p.2)
                  | none => none
              | _ => none
            else
              match high, readShort letter with
              | none, some char => (scanString none cs).map fun p => (char :: p.1, p.2)
              | _, _ => none
      else
        match high with
        | some _ => none
        | none =>
            if c = '"' then some ([], cs)
            else if c.toNat < 32 then none
            else (scanString none cs).map fun p => (c :: p.1, p.2)

/-! ## What is written is read -/

/-- A character that stands for itself. -/
lemma scanString_plain {c : Char} (hbackslash : c ≠ '\\') (hquote : c ≠ '"')
    (hprintable : ¬ c.toNat < 32) (rest : List Char) :
    scanString none (c :: rest) = (scanString none rest).map fun p => (c :: p.1, p.2) := by
  rw [scanString.eq_def]
  dsimp only
  rw [if_neg hbackslash, if_neg hquote, if_neg hprintable]

/-- An escape of one letter. -/
lemma scanString_short {letter char : Char} (hletter : letter ≠ 'u')
    (hread : readShort letter = some char) (rest : List Char) :
    scanString none ('\\' :: letter :: rest)
      = (scanString none rest).map fun p => (char :: p.1, p.2) := by
  rw [scanString.eq_def]
  dsimp only
  rw [if_pos rfl, if_neg hletter, hread]

/-- An escape of a code unit. -/
lemma scanString_unit {n : ℕ} (hn : n < 65536) (high : Option ℕ) (rest : List Char) :
    scanString high (writeUnit n ++ rest)
      = match readUnit high n with
        | some (high, chars) => (scanString high rest).map fun p => (chars ++ p.1, p.2)
        | none => none := by
  show scanString high ('\\' :: 'u' :: hexDigit (n / 4096) :: hexDigit (n / 256 % 16)
    :: hexDigit (n / 16 % 16) :: hexDigit (n % 16) :: rest) = _
  rw [scanString.eq_def]
  dsimp only
  rw [if_pos rfl, if_pos rfl, readHex4_write hn, Option.bind_some]

/-- A character is no surrogate. -/
lemma not_surrogate (c : Char) : isHighSurrogate c.toNat = false ∧ isLowSurrogate c.toNat = false := by
  have hvalid : c.toNat < 0xd800 ∨ 0xdfff < c.toNat ∧ c.toNat < 0x110000 := c.valid
  simp only [isHighSurrogate, isLowSurrogate, Bool.and_eq_false_iff, decide_eq_false_iff_not]
  omega

/-- The escape by the code, of one unit or of two. -/
lemma scanString_code (c : Char) (rest : List Char) :
    scanString none (writeCode c.toNat ++ rest)
      = (scanString none rest).map fun p => (c :: p.1, p.2) := by
  rw [writeCode]
  split_ifs with hsmall
  · obtain ⟨hhigh, hlow⟩ := not_surrogate c
    rw [scanString_unit hsmall, readUnit, hhigh, hlow, Char.ofNat_toNat]
    rfl
  · have hmax : c.toNat < 0x110000 := by
      have hvalid : c.toNat < 0xd800 ∨ 0xdfff < c.toNat ∧ c.toNat < 0x110000 := c.valid
      omega
    have hhigh : isHighSurrogate (0xd800 + (c.toNat - 0x10000) / 0x400) = true := by
      simp only [isHighSurrogate, Bool.and_eq_true, decide_eq_true_eq]
      omega
    have hlow : isLowSurrogate (0xdc00 + (c.toNat - 0x10000) % 0x400) = true := by
      simp only [isLowSurrogate, Bool.and_eq_true, decide_eq_true_eq]
      omega
    have hcode : 0x10000 + ((0xd800 + (c.toNat - 0x10000) / 0x400 - 0xd800) * 0x400
        + (0xdc00 + (c.toNat - 0x10000) % 0x400 - 0xdc00)) = c.toNat := by omega
    rw [List.append_assoc, scanString_unit (by omega), readUnit, if_pos hhigh]
    dsimp only
    rw [scanString_unit (by omega), readUnit, if_pos hlow, hcode, Char.ofNat_toNat]
    dsimp only
    rw [Option.map_map]
    rfl

/-- The letter of an escape is read as its character. -/
lemma readShort_of_mem : ∀ p ∈ shortEscapes, p.2 ≠ 'u' ∧ readShort p.2 = some p.1 := by decide

lemma mem_of_lookup {c letter : Char} (h : shortEscapes.lookup c = some letter) :
    (c, letter) ∈ shortEscapes := by
  refine (lookup_eq_some_iff ?_).mp h
  decide

lemma scanString_char (ensureAscii : Bool) (c : Char) (rest : List Char) :
    scanString none (writeChar ensureAscii c ++ rest)
      = (scanString none rest).map fun p => (c :: p.1, p.2) := by
  rw [writeChar]
  cases hshort : shortEscapes.lookup c with
  | some letter =>
      obtain ⟨hne, hread⟩ := readShort_of_mem _ (mem_of_lookup hshort)
      exact scanString_short hne hread rest
  | none =>
      dsimp only
      split_ifs with hcode
      · exact scanString_code c rest
      · have hbackslash : c ≠ '\\' := by
          rintro rfl
          cases hshort
        have hquote : c ≠ '"' := by
          rintro rfl
          cases hshort
        have hprintable : ¬ c.toNat < 32 := by
          intro hlt
          exact hcode (by simp [hlt])
        exact scanString_plain hbackslash hquote hprintable rest

/-- The characters of a string, and the quote after them. -/
lemma scanString_chars (ensureAscii : Bool) (rest : List Char) : ∀ chars : List Char,
    scanString none (chars.flatMap (writeChar ensureAscii) ++ '"' :: rest) = some (chars, rest)
  | [] => by
      rw [List.flatMap_nil, List.nil_append, scanString.eq_def]
      rfl
  | c :: chars => by
      rw [List.flatMap_cons, List.append_assoc, scanString_char, scanString_chars ensureAscii rest]
      rfl

/-- **What is written is read**, whatever follows. -/
theorem scanString_write (ensureAscii : Bool) (s : String) (rest : List Char) :
    ∃ body, writeString ensureAscii s ++ rest = '"' :: body
      ∧ scanString none body = some (s.toList, rest) := by
  refine ⟨s.toList.flatMap (writeChar ensureAscii) ++ '"' :: rest, ?_,
    scanString_chars ensureAscii rest s.toList⟩
  rw [writeString, List.cons_append, List.cons_append, List.append_assoc, List.singleton_append]

/-! ## What is written -/

/-- No control character, and for `ensure_ascii` no character outside ASCII. -/
def IsPrintable (ensureAscii : Bool) (c : Char) : Prop :=
  32 ≤ c.toNat ∧ (ensureAscii → c.toNat ≤ 126)

instance (ensureAscii : Bool) (c : Char) : Decidable (IsPrintable ensureAscii c) :=
  inferInstanceAs (Decidable (_ ∧ _))

lemma isPrintable_hexDigit (ensureAscii : Bool) :
    ∀ n < 16, IsPrintable ensureAscii (hexDigit n) := by
  cases ensureAscii <;> decide

lemma isPrintable_writeUnit (ensureAscii : Bool) {n : ℕ} (hn : n < 65536) :
    ∀ c ∈ writeUnit n, IsPrintable ensureAscii c := by
  intro c hc
  have hletter : IsPrintable ensureAscii '\\' ∧ IsPrintable ensureAscii 'u' := by
    cases ensureAscii <;> decide
  simp only [writeUnit, writeHex4, List.mem_cons, List.not_mem_nil, or_false] at hc
  rcases hc with rfl | rfl | rfl | rfl | rfl | rfl
  · exact hletter.1
  · exact hletter.2
  · exact isPrintable_hexDigit _ _ (by omega)
  · exact isPrintable_hexDigit _ _ (by omega)
  · exact isPrintable_hexDigit _ _ (by omega)
  · exact isPrintable_hexDigit _ _ (by omega)

lemma isPrintable_shortEscapes (ensureAscii : Bool) :
    ∀ p ∈ shortEscapes, IsPrintable ensureAscii '\\' ∧ IsPrintable ensureAscii p.2 := by
  cases ensureAscii <;> decide

lemma isPrintable_writeChar (ensureAscii : Bool) (char : Char) :
    ∀ c ∈ writeChar ensureAscii char, IsPrintable ensureAscii c := by
  intro c hc
  have hmax : char.toNat < 0x110000 := by
    have hvalid : char.toNat < 0xd800 ∨ 0xdfff < char.toNat ∧ char.toNat < 0x110000 := char.valid
    omega
  rw [writeChar] at hc
  cases hshort : shortEscapes.lookup char with
  | some letter =>
      rw [hshort] at hc
      obtain ⟨hbackslash, hletter⟩ :=
        isPrintable_shortEscapes ensureAscii _ (mem_of_lookup hshort)
      simp only [List.mem_cons, List.not_mem_nil, or_false] at hc
      rcases hc with rfl | rfl
      · exact hbackslash
      · exact hletter
  | none =>
      rw [hshort] at hc
      dsimp only at hc
      split_ifs at hc with hcode
      · rw [writeCode] at hc
        split_ifs at hc with hsmall
        · exact isPrintable_writeUnit _ hsmall c hc
        · rcases List.mem_append.mp hc with hc | hc
          · exact isPrintable_writeUnit _ (by omega) c hc
          · exact isPrintable_writeUnit _ (by omega) c hc
      · obtain rfl := List.mem_singleton.mp hc
        simp only [Bool.or_eq_true, decide_eq_true_eq, Bool.and_eq_true, not_or, not_and] at hcode
        exact ⟨by omega, fun hascii => by have := hcode.2 hascii; omega⟩

/-- **No control character is written.** -/
theorem isPrintable_of_mem_writeString {ensureAscii : Bool} {s : String} {c : Char}
    (hc : c ∈ writeString ensureAscii s) : IsPrintable ensureAscii c := by
  have hquote : IsPrintable ensureAscii '"' := by cases ensureAscii <;> decide
  rw [writeString, List.cons_append, List.mem_cons, List.mem_append, List.mem_singleton] at hc
  rcases hc with rfl | hc | rfl
  · exact hquote
  · obtain ⟨char, -, hmem⟩ := List.mem_flatMap.mp hc
    exact isPrintable_writeChar ensureAscii char c hmem
  · exact hquote

end Python
