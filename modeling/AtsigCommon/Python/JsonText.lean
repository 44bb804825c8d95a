import AtsigCommon.Python.JsonString

/-!
# JSON texts

`json.dumps` and `json.loads` as functions.  `json.dumps` has its two options that matter here,
`ensure_ascii` and the separators.  `json.loads` reads any JSON text: blanks, every escape, keys
that repeat (the last value wins), numbers with and without a fraction.  The texts of floats come
from the class `FloatText`; `NaN` and the infinities are no numbers here, and a text that has them
is not read.

* `writeJson`, `loadsText` — writing and reading.
* `Json.Plain` — values without floats.
* `loads_write` — what is written is read, in every format.
* `isPrintable_of_mem_writeJson` — a text that is written is one line.
-/

namespace Python

/-- `repr` of a float, `float` of a text, and a float under the format `g`. -/
class FloatText where
  repr : ℚ → String
  read : String → Option ℚ
  formatG : ℚ → String

/-- As much of it as values without floats need. -/
@[reducible] def integerText : FloatText := ⟨fun q => toString q.num, fun _ => none, fun q => toString q.num⟩

/-- The options of `json.dumps`: `ensure_ascii`, and whether there are blanks after the commas and
colons. -/
structure JsonFormat where
  ensureAscii : Bool := true
  spaced : Bool := true
  deriving DecidableEq

/-- The separator of two items. -/
def JsonFormat.comma (f : JsonFormat) : List Char := if f.spaced then [',', ' '] else [',']

/-- The separator of a key and its value. -/
def JsonFormat.colon (f : JsonFormat) : List Char := if f.spaced then [':', ' '] else [':']

/-! ## Writing -/

section Write

variable [FloatText] (f : JsonFormat)

/-- A number: an integer by its digits. -/
def writeNumber (q : ℚ) : List Char :=
  if q.den = 1 then (toString q.num).toList else (FloatText.repr q).toList

mutual

/-- `json.dumps` -/
def writeJson : Json → List Char
  | .null => "null".toList
  | .bool true => "true".toList
  | .bool false => "false".toList
  | .num q => writeNumber q
  | .str s => writeString f.ensureAscii s
  | .arr items => '[' :: writeItems items
  | .obj items => '\x7b' :: writeMembers items

/-- The items of a list, up to the bracket. -/
def writeItems : List Json → List Char
  | [] => [']']
  | [v] => writeJson v ++ [']']
  | v :: w :: items => writeJson v ++ f.comma ++ writeItems (w :: items)

/-- The members of an object, up to the brace. -/
def writeMembers : List (String × Json) → List Char
  | [] => ['\x7d']
  | [(k, v)] => writeString f.ensureAscii k ++ f.colon ++ writeJson v ++ ['\x7d']
  | (k, v) :: p :: items =>
      writeString f.ensureAscii k ++ f.colon ++ writeJson v ++ f.comma
        ++ writeMembers (p :: items)

end

end Write

/-! ## Reading -/

/-- The blanks between tokens. -/
def isJsonBlank (c : Char) : Bool := c = ' ' || c = '\t' || c = '\n' || c = '\r'

def skipBlanks (cs : List Char) : List Char := cs.dropWhile isJsonBlank

/-- The words of JSON. -/
def jsonWords : List (List Char × Json) :=
  [("null".toList, .null), ("true".toList, .bool true), ("false".toList, .bool false)]

/-- As many digits as `int` reads. -/
def maxIntDigits : ℕ := 4300

/-- The digits of an integer part: a zero stands alone. -/
def integerPart (cs : List Char) : List Char :=
  if cs.head? = some '0' then ['0'] else cs.takeWhile Char.isDigit

/-- A fraction, with its point. -/
def fractionPart : List Char → List Char
  | '.' :: cs => if cs.takeWhile Char.isDigit = [] then [] else '.' :: cs.takeWhile Char.isDigit
  | _ => []

/-- An exponent, with its letter and its sign. -/
def exponentPart : List Char → List Char
  | [] => []
  | e :: cs =>
      if e = 'e' ∨ e = 'E' then
        let sign := if cs.head? = some '+' ∨ cs.head? = some '-' then cs.take 1 else []
        let digits := (cs.drop sign.length).takeWhile Char.isDigit
        if digits = [] then [] else e :: sign ++ digits
      else []

section Read

variable [FloatText]

/-- The number that the parts of its text stand for. -/
def readNumber (negative : Bool) (integer fraction exponent : List Char) : Option Json :=
  if fraction = [] ∧ exponent = [] then
    if integer.length ≤ maxIntDigits then
      let n : ℤ := Nat.ofDigitChars 10 integer 0
      some (.num ((if negative then -n else n : ℤ) : ℚ))
    else none
  else
    let sign := if negative then ['-'] else []
    (FloatText.read (.ofList (sign ++ integer ++ fraction ++ exponent))).map .num

/-- A number at the start of the text, after its sign. -/
def scanUnsigned (negative : Bool) (cs : List Char) : Option (Json × List Char) :=
  let integer := integerPart cs
  let afterInteger := cs.drop integer.length
  let fraction := fractionPart afterInteger
  let afterFraction := afterInteger.drop fraction.length
  let exponent := exponentPart afterFraction
  if integer = [] then none
  else (readNumber negative integer fraction exponent).map
    fun v => (v, afterFraction.drop exponent.length)

/-- A number at the start of the text. -/
def scanNumber (cs : List Char) : Option (Json × List Char) :=
  if cs.head? = some '-' then scanUnsigned true cs.tail else scanUnsigned false cs

/-- A word or a number. -/
def scanAtom (cs : List Char) : Option (Json × List Char) :=
  match jsonWords.find? fun word => word.1.isPrefixOf cs with
  | some word => some (word.2, cs.drop word.1.length)
  | none => scanNumber cs

mutual

/-- A value at the start of the text, and the rest. -/
def scanValue : (fuel : ℕ) → List Char → Option (Json × List Char)
  | 0, _ => none
  | _, [] => none
  | fuel + 1, c :: cs =>
      if c = '"' then (scanString none cs).map fun p => (.str (.ofList p.1), p.2)
      else if c = '[' then
        if (skipBlanks cs).head? = some ']' then some (.arr [], (skipBlanks cs).tail)
        else (scanItems fuel (skipBlanks cs)).map fun p => (.arr p.1, p.2)
      else if c = '\x7b' then
        if (skipBlanks cs).head? = some '\x7d' then some (.obj [], (skipBlanks cs).tail)
        else (scanMembers fuel (skipBlanks cs)).map fun p => (.obj (Dict.ofPairs p.1).items, p.2)
      else scanAtom (c :: cs)

/-- The items of a list, up to the bracket and with it. -/
def scanItems : (fuel : ℕ) → List Char → Option (List Json × List Char)
  | 0, _ => none
  | fuel + 1, cs =>
      match scanValue fuel cs with
      | none => none
      | some (v, rest) =>
          if (skipBlanks rest).head? = some ',' then
            (scanItems fuel (skipBlanks (skipBlanks rest).tail)).map fun p => (v :: p.1, p.2)
          else if (skipBlanks rest).head? = some ']' then some ([v], (skipBlanks rest).tail)
          else none

/-- The members of an object, up to the brace and with it. -/
def scanMembers : (fuel : ℕ) → List Char → Option (List (String × Json) × List Char)
  | 0, _ => none
  | _, [] => none
  | fuel + 1, c :: cs =>
      if c = '"' then
        match scanString none cs with
        | none => none
        | some (key, rest) =>
            if (skipBlanks rest).head? = some ':' then
              match scanValue fuel (skipBlanks (skipBlanks rest).tail) with
              | none => none
              | some (v, rest) =>
                  if (skipBlanks rest).head? = some ',' then
                    (scanMembers fuel (skipBlanks (skipBlanks rest).tail)).map
                      fun p => ((.ofList key, v) :: p.1, p.2)
                  else if (skipBlanks rest).head? = some '\x7d' then
                    some ([(.ofList key, v)], (skipBlanks rest).tail)
                  else none
            else none
      else none

end

/-- `JSONDecodeError`, a `ValueError`.  Its text names the place; no caller reads it. -/
def jsonDecodeError : PyException := ⟨.valueError, "JSONDecodeError", "Expecting value"⟩

/-- `json.loads` -/
def loadsText (text : String) : Except PyException Json :=
  match scanValue (text.toList.length + 1) (skipBlanks text.toList) with
  | some (v, rest) => if skipBlanks rest = [] then .ok v else .error jsonDecodeError
  | none => .error jsonDecodeError

/-- `json.dumps`, with its options. -/
def dumpsText (f : JsonFormat) (v : Json) : String := .ofList (writeJson f v)

/-- The standard library with these functions. -/
@[reducible] def jsonLibrary : StandardLibrary where
  loads := loadsText
  dumps := dumpsText {}
  formatG := FloatText.formatG

end Read

/-! ## Values that are read back -/

/-- No float, no integer with more digits than `int` reads, and no key twice in an object. -/
inductive Json.Plain : Json → Prop
  | null : Plain .null
  | bool (b : Bool) : Plain (.bool b)
  | num (n : ℤ) (h : (Nat.toDigits 10 n.natAbs).length ≤ maxIntDigits) : Plain (.num n)
  | str (s : String) : Plain (.str s)
  | arr (items : List Json) (h : ∀ v ∈ items, v.Plain) : Plain (.arr items)
  | obj (items : List (String × Json)) (hnodup : (items.map Prod.fst).Nodup)
      (h : ∀ p ∈ items, p.2.Plain) : Plain (.obj items)

/-- What may come after a value. -/
def Ends (rest : List Char) : Prop :=
  ∀ c, rest.head? = some c → c = ',' ∨ c = ']' ∨ c = '\x7d'

lemma ends_nil : Ends [] := nofun

lemma ends_cons {c : Char} (h : c = ',' ∨ c = ']' ∨ c = '\x7d') (rest : List Char) :
    Ends (c :: rest) := fun _ hc => Option.some.inj hc ▸ h

/-! ### Numbers -/

section Numbers

lemma takeWhile_digits {p : Char → Bool} {digits rest : List Char}
    (hdigits : ∀ c ∈ digits, p c = true) (hrest : ∀ c, rest.head? = some c → p c = false) :
    (digits ++ rest).takeWhile p = digits := by
  rw [List.takeWhile_append_of_pos hdigits]
  cases rest with
  | nil => rw [List.takeWhile_nil, List.append_nil]
  | cons c rest =>
      rw [List.takeWhile_cons_of_neg (by rw [hrest c rfl]; exact Bool.false_ne_true),
        List.append_nil]

/-- Only zero starts with a zero. -/
lemma head_toDigits {n : ℕ} : (Nat.toDigits 10 n).head? = some '0' → n = 0 := by
  induction n using Nat.strong_induction_on with
  | _ n ih =>
      intro h
      rw [Nat.toDigits_eq_if (by decide)] at h
      split_ifs at h with hlt
      · have hzero : ∀ m < 10, m.digitChar = '0' → m = 0 := by decide
        exact hzero n hlt (Option.some.inj h)
      · have hhead : (Nat.toDigits 10 (n / 10)).head? = some '0' := by
          cases hdigits : Nat.toDigits 10 (n / 10) with
          | nil => exact absurd hdigits Nat.toDigits_ne_nil
          | cons c cs =>
              rw [hdigits] at h
              exact h
        have hdiv := ih (n / 10) (by omega) hhead
        omega

lemma not_isDigit_of_ends {rest : List Char} (hrest : Ends rest) :
    ∀ c, rest.head? = some c → c.isDigit = false := by
  intro c hc
  rcases hrest c hc with rfl | rfl | rfl <;> rfl

lemma integerPart_toDigits (n : ℕ) {rest : List Char} (hrest : Ends rest) :
    integerPart (Nat.toDigits 10 n ++ rest) = Nat.toDigits 10 n := by
  rw [integerPart]
  split_ifs with hzero
  · have hhead : (Nat.toDigits 10 n).head? = some '0' := by
      cases hdigits : Nat.toDigits 10 n with
      | nil => exact absurd hdigits Nat.toDigits_ne_nil
      | cons c cs =>
          rw [hdigits] at hzero
          exact hzero
    rw [head_toDigits hhead, Nat.toDigits_zero]
  · exact takeWhile_digits (fun c hc => isDigit_of_mem_digits hc) (not_isDigit_of_ends hrest)

lemma fractionPart_ends {rest : List Char} (hrest : Ends rest) : fractionPart rest = [] := by
  cases rest with
  | nil => rfl
  | cons c rest => rcases hrest c rfl with rfl | rfl | rfl <;> rfl

lemma exponentPart_ends {rest : List Char} (hrest : Ends rest) : exponentPart rest = [] := by
  cases rest with
  | nil => rfl
  | cons c rest => rcases hrest c rfl with rfl | rfl | rfl <;> rfl

/-- An integer starts with a digit or a minus sign. -/
lemma head_toString (n : ℤ) :
    ∃ c cs, (toString n).toList = c :: cs ∧ (c.isDigit = true ∨ c = '-') := by
  cases h : (toString n).toList with
  | nil =>
      have hparse := parseInt_toString n
      rw [parseInt, h] at hparse
      cases hparse
  | cons c cs => exact ⟨c, cs, rfl, mem_toString_int (h ▸ List.mem_cons_self ..)⟩

variable [FloatText]

lemma scanUnsigned_toDigits (negative : Bool) {n : ℕ}
    (hn : (Nat.toDigits 10 n).length ≤ maxIntDigits) {rest : List Char} (hrest : Ends rest) :
    scanUnsigned negative (Nat.toDigits 10 n ++ rest)
      = some (.num ((if negative then -(n : ℤ) else (n : ℤ) : ℤ) : ℚ), rest) := by
  simp only [scanUnsigned, integerPart_toDigits n hrest, List.drop_left, fractionPart_ends hrest,
    exponentPart_ends hrest, List.length_nil, List.drop_zero]
  rw [if_neg Nat.toDigits_ne_nil, readNumber, if_pos ⟨rfl, rfl⟩, if_pos hn,
    Nat.ofDigitChars_ten_toDigits]
  rfl

/-- **An integer is read by its digits.** -/
lemma scanNumber_int {n : ℤ} (hn : (Nat.toDigits 10 n.natAbs).length ≤ maxIntDigits)
    {rest : List Char} (hrest : Ends rest) :
    scanNumber ((toString n).toList ++ rest) = some (.num n, rest) := by
  cases n with
  | ofNat n =>
      have hminus : (Nat.toDigits 10 n ++ rest).head? ≠ some '-' := by
        intro hhead
        cases hdigits : Nat.toDigits 10 n with
        | nil => exact Nat.toDigits_ne_nil hdigits
        | cons c cs =>
            rw [hdigits] at hhead
            have hmem : c ∈ Nat.toDigits 10 n := hdigits ▸ List.mem_cons_self ..
            have hdigit := isDigit_of_mem_digits hmem
            rw [Option.some.inj hhead] at hdigit
            cases hdigit
      rw [toList_ofNat, scanNumber, if_neg hminus]
      exact scanUnsigned_toDigits false hn hrest
  | negSucc n =>
      rw [toList_negSucc, List.cons_append, scanNumber, List.head?_cons, if_pos rfl, List.tail_cons]
      exact scanUnsigned_toDigits true hn hrest

lemma writeNumber_int (n : ℤ) : writeNumber (n : ℚ) = (toString n).toList := by
  rw [writeNumber, if_pos (Rat.den_intCast n), Rat.num_intCast]

end Numbers

/-! ### Values -/

section Values

variable [FloatText] (f : JsonFormat)

/-- A value starts with no blank and closes nothing. -/
lemma head_writeJson {v : Json} (hv : v.Plain) : ∃ c cs, writeJson f v = c :: cs
    ∧ isJsonBlank c = false ∧ c ≠ ']' := by
  cases hv with
  | null => exact ⟨'n', _, by rw [writeJson]; rfl, rfl, by decide⟩
  | bool b =>
      cases b with
      | true => exact ⟨'t', _, by rw [writeJson]; rfl, rfl, by decide⟩
      | false => exact ⟨'f', _, by rw [writeJson]; rfl, rfl, by decide⟩
  | num n h =>
      obtain ⟨c, cs, hc, hstart⟩ := head_toString n
      refine ⟨c, cs, by rw [writeJson, writeNumber_int, hc], ?_, ?_⟩
      · rcases hstart with hdigit | rfl
        · rw [isJsonBlank]
          simp only [Bool.or_eq_false_iff, decide_eq_false_iff_not]
          refine ⟨⟨⟨?_, ?_⟩, ?_⟩, ?_⟩
          all_goals
            rintro rfl
            cases hdigit
        · rfl
      · rintro rfl
        rcases hstart with hdigit | hminus
        · cases hdigit
        · cases hminus
  | str s => exact ⟨'"', _, by rw [writeJson, writeString]; rfl, rfl, by decide⟩
  | arr items h => exact ⟨'[', _, by rw [writeJson], rfl, by decide⟩
  | obj items hnodup h => exact ⟨'\x7b', _, by rw [writeJson], rfl, by decide⟩

omit [FloatText] in
lemma skipBlanks_cons {c : Char} (h : isJsonBlank c = false) (cs : List Char) :
    skipBlanks (c :: cs) = c :: cs :=
  List.dropWhile_cons_of_neg (by rw [h]; exact Bool.false_ne_true)

lemma skipBlanks_writeJson {v : Json} (hv : v.Plain) (rest : List Char) :
    skipBlanks (writeJson f v ++ rest) = writeJson f v ++ rest := by
  obtain ⟨c, cs, hc, hblank, -⟩ := head_writeJson f hv
  rw [hc, List.cons_append, skipBlanks_cons hblank]

omit [FloatText] in
lemma skipBlanks_comma (cs : List Char) :
    ∃ blanks, skipBlanks (f.comma ++ cs) = ',' :: blanks ∧ skipBlanks blanks = skipBlanks cs := by
  rw [JsonFormat.comma]
  split_ifs
  · exact ⟨' ' :: cs, skipBlanks_cons rfl _, List.dropWhile_cons_of_pos rfl⟩
  · exact ⟨cs, skipBlanks_cons rfl _, rfl⟩

omit [FloatText] in
lemma skipBlanks_colon (cs : List Char) :
    ∃ blanks, skipBlanks (f.colon ++ cs) = ':' :: blanks ∧ skipBlanks blanks = skipBlanks cs := by
  rw [JsonFormat.colon]
  split_ifs
  · exact ⟨' ' :: cs, skipBlanks_cons rfl _, List.dropWhile_cons_of_pos rfl⟩
  · exact ⟨cs, skipBlanks_cons rfl _, rfl⟩

omit [FloatText] in
lemma length_comma_pos : 0 < f.comma.length := by
  rw [JsonFormat.comma]
  split_ifs <;> exact Nat.succ_pos _

omit [FloatText] in
lemma ends_comma (cs : List Char) : Ends (f.comma ++ cs) := by
  rw [JsonFormat.comma]
  split_ifs
  · exact ends_cons (.inl rfl) _
  · exact ends_cons (.inl rfl) _

/-- No word starts like an integer. -/
lemma scanAtom_int {n : ℤ} (hn : (Nat.toDigits 10 n.natAbs).length ≤ maxIntDigits)
    {rest : List Char} (hrest : Ends rest) :
    scanAtom ((toString n).toList ++ rest) = some (.num n, rest) := by
  have hnone : jsonWords.find? (fun word => word.1.isPrefixOf ((toString n).toList ++ rest))
      = none := by
    obtain ⟨c, cs, hc, hstart⟩ := head_toString n
    rw [List.find?_eq_none]
    intro word hword hprefix
    rw [hc, List.cons_append, List.isPrefixOf_iff_prefix] at hprefix
    have hletter : ∀ word ∈ jsonWords, ∃ letter letters, word.1 = letter :: letters
        ∧ letter.isDigit = false ∧ letter ≠ '-' := by
      intro word hword
      simp only [jsonWords, List.mem_cons, List.not_mem_nil, or_false] at hword
      rcases hword with rfl | rfl | rfl
      · exact ⟨_, _, rfl, rfl, by decide⟩
      · exact ⟨_, _, rfl, rfl, by decide⟩
      · exact ⟨_, _, rfl, rfl, by decide⟩
    obtain ⟨letter, letters, hword', hdigit, hminus⟩ := hletter word hword
    rw [hword'] at hprefix
    obtain rfl := (List.cons_prefix_cons.mp hprefix).1
    rcases hstart with h | h
    · rw [hdigit] at h
      cases h
    · exact hminus h
  rw [scanAtom, hnone]
  exact scanNumber_int hn hrest

/-- What is written is read with this fuel, for values, items and members. -/
structure Scans (fuel : ℕ) : Prop where
  value : ∀ v rest, v.Plain → (writeJson f v).length ≤ fuel → Ends rest →
    scanValue fuel (writeJson f v ++ rest) = some (v, rest)
  items : ∀ items rest, items ≠ [] → (∀ v ∈ items, v.Plain) → (writeItems f items).length ≤ fuel →
    scanItems fuel (writeItems f items ++ rest) = some (items, rest)
  members : ∀ items rest, items ≠ [] → (∀ p ∈ items, p.2.Plain) →
    (writeMembers f items).length ≤ fuel →
    scanMembers fuel (writeMembers f items ++ rest) = some (items, rest)

section Step

variable {f} {fuel : ℕ} (h : Scans f fuel)

include h

/-- One more item. -/
lemma Scans.scanItems_succ {items : List Json} (rest : List Char) (hne : items ≠ [])
    (hitems : ∀ v ∈ items, v.Plain) (hfuel : (writeItems f items).length ≤ fuel + 1) :
    scanItems (fuel + 1) (writeItems f items ++ rest) = some (items, rest) := by
  match items with
  | [] => exact absurd rfl hne
  | [v] =>
      rw [writeItems, List.length_append, List.length_singleton] at hfuel
      have hv := h.value v (']' :: rest) (hitems v (List.mem_cons_self ..)) (by omega)
        (ends_cons (.inr (.inl rfl)) rest)
      rw [writeItems, List.append_assoc, List.singleton_append, scanItems, hv]
      rfl
  | v :: w :: items =>
      rw [writeItems, List.length_append, List.length_append] at hfuel
      have hcomma := length_comma_pos f
      have hv := h.value v (f.comma ++ (writeItems f (w :: items) ++ rest))
        (hitems v (List.mem_cons_self ..)) (by omega) (ends_comma f _)
      have hrest := h.items (w :: items) rest (List.cons_ne_nil _ _)
        (fun u hu => hitems u (List.mem_cons_of_mem _ hu)) (by omega)
      have hblanks : skipBlanks (writeItems f (w :: items) ++ rest)
          = writeItems f (w :: items) ++ rest := by
        have hw : w.Plain := hitems w (List.mem_cons_of_mem _ (List.mem_cons_self ..))
        cases items with
        | nil => rw [writeItems, List.append_assoc, skipBlanks_writeJson f hw]
        | cons u items =>
            rw [writeItems, List.append_assoc, List.append_assoc, skipBlanks_writeJson f hw]
      obtain ⟨blanks, hskip, htail⟩ := skipBlanks_comma f (writeItems f (w :: items) ++ rest)
      rw [writeItems, List.append_assoc, List.append_assoc, scanItems, hv]
      dsimp only
      rw [hskip, List.head?_cons, if_pos rfl, List.tail_cons, htail, hblanks, hrest]
      rfl

omit h in
lemma skipBlanks_writeMembers {items : List (String × Json)} (hne : items ≠ [])
    (rest : List Char) :
    skipBlanks (writeMembers f items ++ rest) = writeMembers f items ++ rest := by
  match items with
  | [] => exact absurd rfl hne
  | [(k, v)] =>
      rw [writeMembers, writeString]
      exact skipBlanks_cons rfl _
  | (k, v) :: p :: items =>
      rw [writeMembers, writeString]
      exact skipBlanks_cons rfl _

/-- A key, the colon and the value, with what is made of the text after them. -/
lemma Scans.scanMembers_key {k : String} {v : Json} (hv : v.Plain)
    (hfuel : (writeJson f v).length ≤ fuel) {rest : List Char} (hrest : Ends rest) :
    scanMembers (fuel + 1)
        (writeString f.ensureAscii k ++ (f.colon ++ (writeJson f v ++ rest)))
      = if (skipBlanks rest).head? = some ',' then
          (scanMembers fuel (skipBlanks (skipBlanks rest).tail)).map fun p => ((k, v) :: p.1, p.2)
        else if (skipBlanks rest).head? = some '\x7d' then
          some ([(k, v)], (skipBlanks rest).tail)
        else none := by
  obtain ⟨body, hbody, hscan⟩ := scanString_write f.ensureAscii k
    (f.colon ++ (writeJson f v ++ rest))
  obtain ⟨blanks, hskip, htail⟩ := skipBlanks_colon f (writeJson f v ++ rest)
  rw [hbody, scanMembers, if_pos rfl, hscan]
  dsimp only
  rw [hskip, List.head?_cons, if_pos rfl, List.tail_cons, htail, skipBlanks_writeJson f hv,
    h.value v rest hv hfuel hrest]
  dsimp only
  rw [String.ofList_toList]

/-- One more member. -/
lemma Scans.scanMembers_succ {items : List (String × Json)} (rest : List Char) (hne : items ≠ [])
    (hitems : ∀ p ∈ items, p.2.Plain) (hfuel : (writeMembers f items).length ≤ fuel + 1) :
    scanMembers (fuel + 1) (writeMembers f items ++ rest) = some (items, rest) := by
  match items with
  | [] => exact absurd rfl hne
  | [(k, v)] =>
      rw [writeMembers] at hfuel
      simp only [List.length_append, List.length_singleton] at hfuel
      have hv : v.Plain := hitems (k, v) (List.mem_cons_self ..)
      rw [writeMembers, List.append_assoc, List.append_assoc, List.append_assoc,
        List.singleton_append, h.scanMembers_key hv (by omega) (ends_cons (.inr (.inr rfl)) _)]
      rfl
  | (k, v) :: p :: items =>
      rw [writeMembers] at hfuel
      simp only [List.length_append] at hfuel
      have hcomma := length_comma_pos f
      have hv : v.Plain := hitems (k, v) (List.mem_cons_self ..)
      have hrest := h.members (p :: items) rest (List.cons_ne_nil _ _)
        (fun q hq => hitems q (List.mem_cons_of_mem _ hq)) (by omega)
      obtain ⟨blanks, hskip, htail⟩ := skipBlanks_comma f (writeMembers f (p :: items) ++ rest)
      rw [writeMembers]
      simp only [List.append_assoc]
      rw [h.scanMembers_key hv (by omega) (ends_comma f _), hskip, List.head?_cons, if_pos rfl,
        List.tail_cons, htail, skipBlanks_writeMembers (List.cons_ne_nil _ _), hrest]
      rfl

omit h in
/-- What is neither a string, nor a list, nor an object. -/
lemma scanValue_atom {c : Char} (hquote : c ≠ '"') (hbracket : c ≠ '[') (hbrace : c ≠ '\x7b')
    (cs : List Char) : scanValue (fuel + 1) (c :: cs) = scanAtom (c :: cs) := by
  rw [scanValue, if_neg hquote, if_neg hbracket, if_neg hbrace]

/-- One more level. -/
lemma Scans.scanValue_succ {v : Json} (rest : List Char) (hv : v.Plain)
    (hfuel : (writeJson f v).length ≤ fuel + 1) (hrest : Ends rest) :
    scanValue (fuel + 1) (writeJson f v ++ rest) = some (v, rest) := by
  cases hv with
  | null =>
      rw [writeJson]
      exact (scanValue_atom (by decide) (by decide) (by decide) _).trans rfl
  | bool b =>
      cases b with
      | true =>
          rw [writeJson]
          exact (scanValue_atom (by decide) (by decide) (by decide) _).trans rfl
      | false =>
          rw [writeJson]
          exact (scanValue_atom (by decide) (by decide) (by decide) _).trans rfl
  | num n hn =>
      have hatom := scanAtom_int hn hrest
      obtain ⟨c, cs, hc, hstart⟩ := head_toString n
      rw [writeJson, writeNumber_int]
      rw [hc, List.cons_append] at hatom ⊢
      rw [scanValue_atom, hatom]
      all_goals
        rintro rfl
        rcases hstart with hdigit | hminus
        · cases hdigit
        · cases hminus
  | str s =>
      obtain ⟨body, hbody, hscan⟩ := scanString_write f.ensureAscii s rest
      rw [writeJson, hbody, scanValue, if_pos rfl, hscan, Option.map_some, String.ofList_toList]
  | arr items hitems =>
      rw [writeJson, List.length_cons] at hfuel
      rw [writeJson, List.cons_append, scanValue, if_neg (by decide), if_pos rfl]
      cases items with
      | nil =>
          rw [writeItems]
          rfl
      | cons w items =>
          have hitems' := h.items (w :: items) rest (List.cons_ne_nil _ _) hitems (by omega)
          have hw : w.Plain := hitems w (List.mem_cons_self ..)
          obtain ⟨c, cs, hc, hblank, hclose⟩ := head_writeJson f hw
          have hstart : ∃ cs', writeItems f (w :: items) ++ rest = c :: cs' := by
            cases items with
            | nil => exact ⟨_, by rw [writeItems, hc]; rfl⟩
            | cons u items => exact ⟨_, by rw [writeItems, hc]; rfl⟩
          obtain ⟨cs', hcs'⟩ := hstart
          rw [hcs', skipBlanks_cons hblank, List.head?_cons,
            if_neg fun hsome => hclose (Option.some.inj hsome), ← hcs', hitems']
          rfl
  | obj items hnodup hitems =>
      rw [writeJson, List.length_cons] at hfuel
      rw [writeJson, List.cons_append, scanValue, if_neg (by decide), if_neg (by decide),
        if_pos rfl]
      cases items with
      | nil =>
          rw [writeMembers]
          rfl
      | cons p items =>
          have hitems' := h.members (p :: items) rest (List.cons_ne_nil _ _) hitems (by omega)
          have hstart : ∃ cs', writeMembers f (p :: items) ++ rest = '"' :: cs' := by
            cases items with
            | nil => exact ⟨_, by rw [writeMembers, writeString]; rfl⟩
            | cons q items => exact ⟨_, by rw [writeMembers, writeString]; rfl⟩
          obtain ⟨cs', hcs'⟩ := hstart
          rw [hcs', skipBlanks_cons rfl, List.head?_cons, if_neg (by decide), ← hcs', hitems',
            Option.map_some, Dict.items_ofPairs hnodup]

end Step

/-- As much fuel as there are characters is enough. -/
lemma scans : ∀ fuel : ℕ, Scans f fuel
  | 0 => by
      constructor
      · intro v rest hv hfuel
        obtain ⟨c, cs, hc, -⟩ := head_writeJson f hv
        rw [hc] at hfuel
        cases hfuel
      · intro items rest hne hitems hfuel
        match items with
        | [] => exact absurd rfl hne
        | [v] =>
            rw [writeItems, List.length_append] at hfuel
            cases hfuel
        | v :: w :: items =>
            have hcomma := length_comma_pos f
            rw [writeItems, List.length_append, List.length_append] at hfuel
            omega
      · intro items rest hne hitems hfuel
        match items with
        | [] => exact absurd rfl hne
        | [(k, v)] =>
            rw [writeMembers, List.length_append] at hfuel
            cases hfuel
        | (k, v) :: p :: items =>
            have hcomma := length_comma_pos f
            rw [writeMembers, List.length_append, List.length_append] at hfuel
            omega
  | fuel + 1 =>
      have h := scans fuel
      ⟨fun _ rest hv hfuel hrest => h.scanValue_succ rest hv hfuel hrest,
        fun _ rest hne hitems hfuel => h.scanItems_succ rest hne hitems hfuel,
        fun _ rest hne hitems hfuel => h.scanMembers_succ rest hne hitems hfuel⟩

/-- **What is written is read**, in every format. -/
theorem loads_write {v : Json} (hv : v.Plain) : loadsText (dumpsText f v) = .ok v := by
  have hscan := (scans f ((writeJson f v).length + 1)).value v [] hv (by omega) ends_nil
  rw [List.append_nil] at hscan
  have hblanks := skipBlanks_writeJson f hv []
  rw [List.append_nil] at hblanks
  rw [loadsText, dumpsText, String.toList_ofList, hblanks, hscan]
  rfl

/-! ### A text is one line -/

/-- What a text consists of. -/
abbrev Printable (text : List Char) : Prop := ∀ c ∈ text, IsPrintable f.ensureAscii c

variable {f}

omit [FloatText] in
lemma Printable.append {a b : List Char} (ha : Printable f a) (hb : Printable f b) :
    Printable f (a ++ b) := fun c hc =>
  (List.mem_append.mp hc).elim (ha c) (hb c)

omit [FloatText] in
lemma printable_of_all {text : List Char}
    (h : text.all (fun c => decide (IsPrintable f.ensureAscii c))) : Printable f text := by
  intro c hc
  exact of_decide_eq_true (List.all_eq_true.mp h c hc)

omit [FloatText] in
/-- What JSON itself is made of. -/
lemma printable_tokens : Printable f ['['] ∧ Printable f [']'] ∧ Printable f ['\x7b']
    ∧ Printable f ['\x7d'] ∧ Printable f f.comma ∧ Printable f f.colon
    ∧ Printable f "null".toList ∧ Printable f "true".toList ∧ Printable f "false".toList := by
  obtain ⟨ensureAscii, spaced⟩ := f
  refine ⟨?_, ?_, ?_, ?_, ?_, ?_, ?_, ?_, ?_⟩ <;> apply printable_of_all
    <;> cases ensureAscii <;> cases spaced <;> decide

lemma printable_writeItems : ∀ {items : List Json}, (∀ v ∈ items, Printable f (writeJson f v)) →
    Printable f (writeItems f items)
  | [], _ => by
      rw [writeItems]
      exact printable_tokens.2.1
  | [v], h => by
      rw [writeItems]
      exact (h v (List.mem_cons_self ..)).append printable_tokens.2.1
  | v :: w :: items, h => by
      rw [writeItems]
      refine ((h v (List.mem_cons_self ..)).append printable_tokens.2.2.2.2.1).append ?_
      exact printable_writeItems fun u hu => h u (List.mem_cons_of_mem _ hu)

lemma printable_writeMembers : ∀ {items : List (String × Json)},
    (∀ p ∈ items, Printable f (writeJson f p.2)) → Printable f (writeMembers f items)
  | [], _ => by
      rw [writeMembers]
      exact printable_tokens.2.2.2.1
  | [(k, v)], h => by
      rw [writeMembers]
      have hkey : Printable f (writeString f.ensureAscii k) := fun c hc =>
        isPrintable_of_mem_writeString hc
      exact ((hkey.append printable_tokens.2.2.2.2.2.1).append
        (h (k, v) (List.mem_cons_self ..))).append printable_tokens.2.2.2.1
  | (k, v) :: p :: items, h => by
      rw [writeMembers]
      have hkey : Printable f (writeString f.ensureAscii k) := fun c hc =>
        isPrintable_of_mem_writeString hc
      refine (((hkey.append printable_tokens.2.2.2.2.2.1).append
        (h (k, v) (List.mem_cons_self ..))).append printable_tokens.2.2.2.2.1).append ?_
      exact printable_writeMembers fun q hq => h q (List.mem_cons_of_mem _ hq)

omit [FloatText] in
lemma printable_toString (n : ℤ) : Printable f (toString n).toList := by
  intro c hc
  have hdigit : ∀ c : Char, c.isDigit = true → 48 ≤ c.toNat ∧ c.toNat ≤ 57 := by
    intro c hc
    simp only [Char.isDigit, Bool.and_eq_true, decide_eq_true_eq] at hc
    exact ⟨UInt32.le_iff_toNat_le.mp hc.1, UInt32.le_iff_toNat_le.mp hc.2⟩
  rcases mem_toString_int hc with h | rfl
  · obtain ⟨hlow, hhigh⟩ := hdigit c h
    exact ⟨by omega, fun _ => by omega⟩
  · cases f.ensureAscii <;> decide

/-- **No line break is written**, nor any other control character. -/
theorem isPrintable_of_mem_writeJson {v : Json} (hv : v.Plain) : Printable f (writeJson f v) := by
  obtain ⟨hopen, -, hopen', -, -, -, hnull, htrue, hfalse⟩ := printable_tokens (f := f)
  induction hv with
  | null =>
      rw [writeJson]
      exact hnull
  | bool b =>
      cases b with
      | true =>
          rw [writeJson]
          exact htrue
      | false =>
          rw [writeJson]
          exact hfalse
  | num n h =>
      rw [writeJson, writeNumber_int]
      exact printable_toString n
  | str s =>
      rw [writeJson]
      exact fun c hc => isPrintable_of_mem_writeString hc
  | arr items h ih =>
      rw [writeJson]
      exact hopen.append (printable_writeItems ih)
  | obj items hnodup h ih =>
      rw [writeJson]
      exact hopen'.append (printable_writeMembers ih)

/-- The library undoes what it does. -/
lemma loadsDumps_plain {v : Json} (hv : v.Plain) : @LoadsDumps jsonLibrary v :=
  loads_write {} hv

end Values

end Python
