import AtsigCommon.Python.Text
import AtsigCommon.Python.Values

/-!
# Decoded JSON values with their floats

What Python does with a value that `json.loads` gave, when the code does not look at its type
first: its truth value, `int`, `in` and `for`.  A number outside the range of a float is infinite.
The tables of Unicode come from the class `UnicodeData`.

* `Decoded.toInt`, `Decoded.contains`, `Decoded.iterate` — the operations, each with what it raises.
* `anyOf`, `anyOf_ok_iff` — a loop that stops at the first hit, and when it raises nothing.
-/

namespace Python

/-- A `float`. -/
inductive PyFloat
  | finite (q : ℚ)
  | infinite (negative : Bool)
  | nan

/-- A JSON value as `json.loads` gives it. -/
inductive Decoded
  | null
  | bool (b : Bool)
  | int (n : ℤ)
  | float (x : PyFloat)
  | str (s : String)
  | arr (items : List Decoded)
  | obj (items : List (String × Decoded))

/-- What `int` and `repr` ask of the Unicode database: the value of a decimal digit, what is a
blank, and the literal of a text. -/
class UnicodeData where
  decimal : Char → Option ℕ
  isSpace : Char → Bool
  repr : String → String

/-! ## Truth and numbers -/

/-- `bool(value)` -/
def Decoded.truthy : Decoded → Bool
  | .null => false
  | .bool b => b
  | .int n => decide (n ≠ 0)
  | .float (.finite q) => decide (q ≠ 0)
  | .float _ => true
  | .str s => decide (s ≠ "")
  | .arr items => !items.isEmpty
  | .obj items => !items.isEmpty

/-- `OverflowError` of `int` for a float that is infinite. -/
def infinityError : PyException :=
  ⟨.other, "OverflowError", "cannot convert float infinity to integer"⟩

/-- `ValueError` of `int` for a float that is no number. -/
def nanError : PyException := ⟨.valueError, "ValueError", "cannot convert float NaN to integer"⟩

/-- `TypeError` of `int` for what is neither a text nor a number. -/
def intTypeError : PyException :=
  ⟨.typeError, "TypeError", "int() argument must be a string, a bytes-like object or a real number"⟩

section Int

variable [UnicodeData]

/-- Digits, with single underscores between them. -/
def digitsOf : List Char → Option (List ℕ)
  | [] => none
  | [c] => (UnicodeData.decimal c).map fun d => [d]
  | c :: '_' :: rest => do
      let d ← UnicodeData.decimal c
      return d :: (← digitsOf rest)
  | c :: rest => do
      let d ← UnicodeData.decimal c
      return d :: (← digitsOf rest)

/-- `sys.get_int_max_str_digits()` -/
def maxStrDigits : ℕ := 4300

/-- The number that digits stand for; too many of them are refused. -/
def intOfDigits (digits : List Char) : Except PyException ℕ :=
  match digitsOf digits with
  | some ds =>
    if ds.length ≤ maxStrDigits then .ok (ds.foldl (fun n d => 10 * n + d) 0)
    else .error intValueError
  | none => .error intValueError

/-- `int(text)` -/
def intOfStr (text : String) : Except PyException ℤ :=
  match strip UnicodeData.isSpace text.toList with
  | '-' :: digits => (intOfDigits digits).map fun n : ℕ => -(n : ℤ)
  | '+' :: digits => (intOfDigits digits).map fun n : ℕ => (n : ℤ)
  | digits => (intOfDigits digits).map fun n : ℕ => (n : ℤ)

/-- `int(value)`; a finite float is cut towards zero. -/
def Decoded.toInt : Decoded → Except PyException ℤ
  | .null => .error intTypeError
  | .bool b => .ok (if b then 1 else 0)
  | .int n => .ok n
  | .float (.finite q) => .ok (q.num.tdiv q.den)
  | .float (.infinite _) => .error infinityError
  | .float .nan => .error nanError
  | .str s => intOfStr s
  | .arr _ => .error intTypeError
  | .obj _ => .error intTypeError

/-- `isinstance(e, (TypeError, ValueError))` -/
def isTypeOrValueError (e : PyException) : Bool := e.cls = .typeError || e.isValueError

lemma intOfDigits_error {digits : List Char} {e : PyException} (h : intOfDigits digits = .error e) :
    e = intValueError := by
  rw [intOfDigits] at h
  split at h
  · split_ifs at h
    exact (Except.error.inj h).symm
  · exact (Except.error.inj h).symm

/-- `int` refuses a text with a `ValueError` only. -/
lemma intOfStr_error {text : String} {e : PyException} (h : intOfStr text = .error e) :
    e = intValueError := by
  have hmap : ∀ {digits : List Char} {f : ℕ → ℤ}, (intOfDigits digits).map f = .error e →
      e = intValueError := by
    intro digits f hf
    cases hdigits : intOfDigits digits with
    | error e' =>
        rw [hdigits] at hf
        rw [← Except.error.inj hf]
        exact intOfDigits_error hdigits
    | ok n =>
        rw [hdigits] at hf
        cases hf
  rw [intOfStr] at h
  split at h
  · exact hmap h
  · exact hmap h
  · exact hmap h

/-- `int` raises a `TypeError` or a `ValueError`, unless the number is infinite. -/
theorem Decoded.toInt_error {value : Decoded} {e : PyException} (h : value.toInt = .error e) :
    isTypeOrValueError e = true ↔ ∀ negative, value ≠ .float (.infinite negative) := by
  cases value with
  | null =>
      cases h
      exact iff_of_true rfl nofun
  | bool b => cases h
  | int n => cases h
  | float x =>
      cases x with
      | finite q => cases h
      | infinite negative =>
          cases h
          exact iff_of_false (by decide) fun hne => hne negative rfl
      | nan =>
          cases h
          exact iff_of_true rfl nofun
  | str s =>
      rw [intOfStr_error h]
      exact iff_of_true rfl nofun
  | arr items =>
      cases h
      exact iff_of_true rfl nofun
  | obj items =>
      cases h
      exact iff_of_true rfl nofun

end Int

/-! ## Containers -/

/-- `TypeError` of `in` and `for`. -/
def notIterableError : PyException := ⟨.typeError, "TypeError", "argument is not iterable"⟩

/-- `AttributeError` -/
def attributeError (name : String) : PyException :=
  ⟨.other, "AttributeError", s!"object has no attribute '{name}'"⟩

/-- `value == text` -/
def Decoded.isText (text : String) : Decoded → Bool
  | .str s => s = text
  | _ => false

/-- `text in value`: an item of a list, a piece of a text, a key of an object. -/
def Decoded.contains (text : String) : Decoded → Except PyException Bool
  | .arr items => .ok (items.any (Decoded.isText text))
  | .str s => .ok (s.toList.tails.any text.toList.isPrefixOf)
  | .obj items => .ok ((items.map Prod.fst).contains text)
  | _ => .error notIterableError

/-- What `for item in value` goes through: the items of a list, the characters of a text, the keys
of an object. -/
def Decoded.iterate : Decoded → Except PyException (List Decoded)
  | .arr items => .ok items
  | .str s => .ok (s.toList.map fun c => .str (String.singleton c))
  | .obj items => .ok (items.map fun item => .str item.1)
  | _ => .error notIterableError

/-- `in` and `for` refuse the same values. -/
lemma Decoded.contains_ok_iff (text : String) (value : Decoded) :
    (∃ b, value.contains text = .ok b) ↔ ∃ items, value.iterate = .ok items := by
  cases value with
  | arr items => exact iff_of_true ⟨_, rfl⟩ ⟨_, rfl⟩
  | str s => exact iff_of_true ⟨_, rfl⟩ ⟨_, rfl⟩
  | obj items => exact iff_of_true ⟨_, rfl⟩ ⟨_, rfl⟩
  | _ => exact iff_of_false nofun nofun

/-! ## A loop that stops at the first hit -/

section AnyOf

variable {α ε : Type}

/-- `any(p(item) for item in items)` -/
def anyOf (p : α → Except ε Bool) : List α → Except ε Bool
  | [] => .ok false
  | a :: items => do
      if ← p a then
        return true
      anyOf p items

lemma anyOf_cons_true {p : α → Except ε Bool} {a : α} (h : p a = .ok true) (items : List α) :
    anyOf p (a :: items) = .ok true := by
  rw [anyOf, h]
  rfl

lemma anyOf_cons_false {p : α → Except ε Bool} {a : α} (h : p a = .ok false) (items : List α) :
    anyOf p (a :: items) = anyOf p items := by
  rw [anyOf, h]
  rfl

lemma anyOf_cons_error {p : α → Except ε Bool} {a : α} {e : ε} (h : p a = .error e)
    (items : List α) : anyOf p (a :: items) = .error e := by
  rw [anyOf, h]
  rfl

/-- Nothing is raised: the loop is `List.any`. -/
lemma anyOf_of_ok {p : α → Except ε Bool} {q : α → Bool} : ∀ {items : List α},
    (∀ a ∈ items, p a = .ok (q a)) → anyOf p items = .ok (items.any q)
  | [], _ => rfl
  | a :: items, h => by
      have ha := h a (List.mem_cons_self ..)
      have ih := anyOf_of_ok fun b hb => h b (List.mem_cons_of_mem a hb)
      rw [List.any_cons]
      cases hq : q a with
      | true => rw [anyOf_cons_true (ha.trans (by rw [hq])), Bool.true_or]
      | false => rw [anyOf_cons_false (ha.trans (by rw [hq])), Bool.false_or, ih]

lemma anyOf_map {β : Type} (p : α → Except ε Bool) (f : β → α) : ∀ items : List β,
    anyOf p (items.map f) = anyOf (fun b => p (f b)) items
  | [] => rfl
  | b :: items => by
      rw [List.map_cons, anyOf, anyOf_map p f items, anyOf]

/-- No hit: every item was asked. -/
lemma anyOf_false {p : α → Except ε Bool} : ∀ {items : List α}, anyOf p items = .ok false →
    ∀ a ∈ items, p a = .ok false
  | [], _, a, ha => absurd ha List.not_mem_nil
  | b :: items, h, a, ha => by
      cases hb : p b with
      | error e =>
          rw [anyOf_cons_error hb] at h
          cases h
      | ok hit =>
          cases hit with
          | true =>
              rw [anyOf_cons_true hb] at h
              cases h
          | false =>
              rw [anyOf_cons_false hb] at h
              rcases List.mem_cons.mp ha with rfl | ha
              · exact hb
              · exact anyOf_false h a ha

/-- Every item that raises comes after a hit. -/
def HitBeforeError (p : α → Except ε Bool) (items : List α) : Prop :=
  ∀ before a after, items = before ++ a :: after → (∃ e, p a = .error e) →
    ∃ b ∈ before, p b = .ok true

lemma hitBeforeError_cons_of_false {p : α → Except ε Bool} {a : α} (h : p a = .ok false)
    (items : List α) : HitBeforeError p (a :: items) ↔ HitBeforeError p items := by
  constructor
  · intro hhit before b after hitems hb
    obtain ⟨c, hc, htrue⟩ := hhit (a :: before) b after (by rw [hitems, List.cons_append]) hb
    rcases List.mem_cons.mp hc with rfl | hc
    · rw [h] at htrue
      cases htrue
    · exact ⟨c, hc, htrue⟩
  · intro hhit before b after hitems hb
    cases before with
    | nil =>
        obtain ⟨rfl, -⟩ := List.cons.inj hitems
        obtain ⟨e, he⟩ := hb
        rw [h] at he
        cases he
    | cons a' before =>
        obtain ⟨rfl, hrest⟩ := List.cons.inj hitems
        obtain ⟨c, hc, htrue⟩ := hhit before b after hrest hb
        exact ⟨c, List.mem_cons_of_mem a hc, htrue⟩

/-- **When the loop raises nothing**: every item that raises comes after a hit. -/
theorem anyOf_ok_iff (p : α → Except ε Bool) : ∀ items : List α,
    (∃ b, anyOf p items = .ok b) ↔ HitBeforeError p items
  | [] => by
      refine iff_of_true ⟨false, rfl⟩ fun before a after h => ?_
      cases before <;> cases h
  | a :: items => by
      cases hp : p a with
      | error e =>
          rw [anyOf_cons_error hp]
          refine iff_of_false nofun fun hhit => ?_
          obtain ⟨b, hb, -⟩ := hhit [] a items rfl ⟨e, hp⟩
          cases hb
      | ok hit =>
          cases hit with
          | true =>
              rw [anyOf_cons_true hp]
              refine iff_of_true ⟨true, rfl⟩ fun before b after hitems hb => ?_
              cases before with
              | nil =>
                  obtain ⟨rfl, -⟩ := List.cons.inj hitems
                  obtain ⟨e, he⟩ := hb
                  rw [hp] at he
                  cases he
              | cons a' before =>
                  obtain ⟨rfl, -⟩ := List.cons.inj hitems
                  exact ⟨a, List.mem_cons_self .., hp⟩
          | false =>
              rw [anyOf_cons_false hp, hitBeforeError_cons_of_false hp]
              exact anyOf_ok_iff p items

end AnyOf

end Python
