import Mathlib.Algebra.Group.Nat.Defs
import Mathlib.Data.List.Infix
import Mathlib.Data.List.Nodup
import Mathlib.Data.Rat.Defs

/-!
# The Python values the services exchange

What the model needs of Python itself: text that may be `str` or `bytes` (`Text`), dictionaries
in insertion order (`Dict`), JSON values, and exceptions.  `json.loads`, `json.dumps` and the
`g` format of a float come from the class `StandardLibrary`: the model uses them as they are, and
a theorem that relies on what they do says so.
-/

namespace Python

/-! ## Exceptions -/

/-- The classes of exceptions that the code tells apart. -/
inductive ExceptionClass
  | nonRetryableError
  | invalidMessageError
  | responseError
  | typeError
  | valueError
  | other
  deriving DecidableEq, Repr

/-- An instance of `Exception`: its class as far as the code can tell, the name of its type and
its text. -/
structure PyException where
  cls : ExceptionClass
  typeName : String
  text : String
  deriving DecidableEq, Repr

/-- `isinstance(e, ValueError)`; `InvalidMessageError` is a subclass. -/
def PyException.isValueError (e : PyException) : Bool :=
  e.cls = .valueError || e.cls = .invalidMessageError

/-- What an `await` can raise.  A cancellation is a `BaseException`, so `except Exception` does
not see it; an exit of the interpreter ends the process and is a crash, not a value. -/
inductive Raised
  | cancelled
  | exception (e : PyException)
  deriving DecidableEq, Repr

/-! ## Text -/

/-- A value as the Redis client gives it: decoded or not. -/
inductive Text
  | str (s : String)
  | bytes (b : ByteArray)

instance : DecidableEq Text
  | .str s, .str t => decidable_of_iff (s = t) (by rw [Text.str.injEq])
  | .bytes b, .bytes c => decidable_of_iff (b.data = c.data) (by
      rw [Text.bytes.injEq, ByteArray.ext_iff])
  | .str _, .bytes _ => isFalse nofun
  | .bytes _, .str _ => isFalse nofun

/-- `UnicodeDecodeError`, a `ValueError`.  Its text names the offending byte; no caller reads
it. -/
def unicodeDecodeError : PyException :=
  ⟨.valueError, "UnicodeDecodeError", "codec can't decode"⟩

/-- A lower case hexadecimal digit. -/
def hexDigit (n : ℕ) : Char :=
  if n < 10 then Char.ofNat (48 + n) else Char.ofNat (87 + n)

/-- One byte inside the literal that `repr` writes. -/
def reprByte (quote : Char) (b : UInt8) : List Char :=
  let c := Char.ofNat b.toNat
  if c = quote || c = '\\' then ['\\', c]
  else if c = '\t' then ['\\', 't']
  else if c = '\n' then ['\\', 'n']
  else if c = '\r' then ['\\', 'r']
  else if b < 32 || b ≥ 127 then
    ['\\', 'x', hexDigit (b.toNat / 16), hexDigit (b.toNat % 16)]
  else [c]

/-- `repr` of a bytes object: in single quotes, unless it holds one and no double quote. -/
def reprBytes (b : ByteArray) : String :=
  let quote := if b.toList.contains 39 && !b.toList.contains 34 then '"' else Char.ofNat 39
  String.ofList ('b' :: quote :: b.toList.flatMap (reprByte quote) ++ [quote])

/-- `str(value)`; for bytes it is the literal. -/
def Text.toStr : Text → String
  | .str s => s
  | .bytes b => reprBytes b

/-- `a or b` for texts: the empty one is false. -/
def textOr (a b : Option String) : Option String :=
  if a.any fun s => decide (s ≠ "") then a else b

/-! ## Dictionaries -/

section Dict

variable {κ ν μ : Type} [DecidableEq κ]

/-- `d[k] = v` on the items: in place when the key is there, at the end otherwise. -/
def setItem (k : κ) (v : ν) : List (κ × ν) → List (κ × ν)
  | [] => [(k, v)]
  | (k', v') :: items => if k' = k then (k', v) :: items else (k', v') :: setItem k v items

lemma keys_setItem (k : κ) (v : ν) : ∀ items : List (κ × ν),
    (setItem k v items).map Prod.fst
      = if k ∈ items.map Prod.fst then items.map Prod.fst else items.map Prod.fst ++ [k]
  | [] => by simp [setItem]
  | (k', v') :: items => by
      have ih := keys_setItem k v items
      by_cases hk : k' = k
      · subst hk
        simp [setItem]
      · rw [setItem, if_neg hk, List.map_cons, ih]
        by_cases hmem : k ∈ items.map Prod.fst
        · simp [hmem]
        · have hne : ¬ k = k' := fun h => hk h.symm
          simp [hmem, hne]

/-- A `dict`: its items in insertion order, no key twice. -/
structure Dict (κ ν : Type) where
  items : List (κ × ν)
  nodup : (items.map Prod.fst).Nodup

/-- `{}` -/
def Dict.empty : Dict κ ν := ⟨[], List.nodup_nil⟩

/-- `d[k] = v` -/
def Dict.set (d : Dict κ ν) (k : κ) (v : ν) : Dict κ ν where
  items := setItem k v d.items
  nodup := by
    rw [keys_setItem]
    split_ifs with hk
    · exact d.nodup
    · exact List.Nodup.append d.nodup (List.nodup_singleton k)
        (List.disjoint_singleton.mpr hk)

/-- `{k: v for k, v in pairs}`: the last of two equal keys wins. -/
def Dict.ofPairs (pairs : List (κ × ν)) : Dict κ ν :=
  pairs.foldl (fun d p => d.set p.1 p.2) Dict.empty

omit [DecidableEq κ] in
@[ext] lemma Dict.ext {d d' : Dict κ ν} (h : d.items = d'.items) : d = d' := by
  cases d
  cases d'
  cases h
  rfl

/-- A new key goes to the end. -/
lemma setItem_of_notMem {k : κ} {v : ν} : ∀ {items : List (κ × ν)}, k ∉ items.map Prod.fst →
    setItem k v items = items ++ [(k, v)]
  | [], _ => rfl
  | (k', v') :: items, h => by
      rw [List.map_cons, List.mem_cons, not_or] at h
      rw [setItem, if_neg fun hk => h.1 hk.symm, setItem_of_notMem h.2, List.cons_append]

lemma items_foldl_set : ∀ {pairs : List (κ × ν)} {d : Dict κ ν},
    ((d.items ++ pairs).map Prod.fst).Nodup →
    (pairs.foldl (fun d p => d.set p.1 p.2) d).items = d.items ++ pairs
  | [], d, _ => (List.append_nil _).symm
  | (k, v) :: pairs, d, h => by
      have hk : k ∉ d.items.map Prod.fst := by
        rw [List.map_append, List.map_cons, List.nodup_append] at h
        exact fun hmem => h.2.2 k hmem k (List.mem_cons_self ..) rfl
      have hset : (d.set k v).items = d.items ++ [(k, v)] := setItem_of_notMem hk
      rw [List.foldl_cons, items_foldl_set, hset, List.append_assoc, List.singleton_append]
      rw [hset, List.append_assoc, List.singleton_append]
      exact h

/-- No key twice: nothing is replaced. -/
lemma Dict.items_ofPairs {pairs : List (κ × ν)} (h : (pairs.map Prod.fst).Nodup) :
    (Dict.ofPairs pairs).items = pairs :=
  items_foldl_set h

lemma mem_keys_foldl_set {k : κ} : ∀ {pairs : List (κ × ν)} {d : Dict κ ν},
    k ∈ (pairs.foldl (fun d p => d.set p.1 p.2) d).items.map Prod.fst
      ↔ k ∈ d.items.map Prod.fst ∨ k ∈ pairs.map Prod.fst
  | [], d => by simp
  | (k', v) :: pairs, d => by
      have hset : (d.set k' v).items = setItem k' v d.items := rfl
      rw [List.foldl_cons, mem_keys_foldl_set, hset, keys_setItem, List.map_cons, List.mem_cons]
      split_ifs with hk
      · constructor
        · rintro (h | h)
          · exact .inl h
          · exact .inr (.inr h)
        · rintro (h | rfl | h)
          · exact .inl h
          · exact .inl hk
          · exact .inr h
      · rw [List.mem_append, List.mem_singleton, or_assoc]

/-- The keys are those of the pairs. -/
lemma Dict.mem_keys_ofPairs {k : κ} {pairs : List (κ × ν)} :
    k ∈ (Dict.ofPairs pairs).items.map Prod.fst ↔ k ∈ pairs.map Prod.fst := by
  rw [Dict.ofPairs, mem_keys_foldl_set]
  simp [Dict.empty]

/-- `{**d, **d'}` -/
def Dict.merge (d d' : Dict κ ν) : Dict κ ν :=
  d'.items.foldl (fun d p => d.set p.1 p.2) d

/-- The item of a key that is not set again stays first. -/
lemma Dict.head_merge {d d' : Dict κ ν} {k : κ} {v : ν} {items : List (κ × ν)}
    (h : d.items = (k, v) :: items) (hk : k ∉ d'.items.map Prod.fst) :
    ∃ items', (d.merge d').items = (k, v) :: items' := by
  rw [Dict.merge]
  generalize d'.items = pairs at hk
  induction pairs generalizing d items with
  | nil => exact ⟨items, h⟩
  | cons p pairs ih =>
      rw [List.map_cons, List.mem_cons, not_or] at hk
      rw [List.foldl_cons]
      have hset : (d.set p.1 p.2).items = (k, v) :: setItem p.1 p.2 items := by
        show setItem p.1 p.2 d.items = _
        rw [h, setItem, if_neg hk.1]
      exact ih hset hk.2

/-- `d.get(k)` -/
def Dict.get? (d : Dict κ ν) (k : κ) : Option ν := d.items.lookup k

/-! What is found under a key, after each way of building a dictionary. -/

lemma lookup_cons_self (k : κ) (v : ν) (items : List (κ × ν)) :
    ((k, v) :: items).lookup k = some v := by
  rw [List.lookup_cons, beq_self_eq_true]

lemma lookup_cons_of_ne {k k' : κ} (h : k' ≠ k) (v : ν) (items : List (κ × ν)) :
    ((k, v) :: items).lookup k' = items.lookup k' := by
  rw [List.lookup_cons, beq_eq_false_iff_ne.mpr h]

lemma lookup_setItem (k : κ) (v : ν) (k' : κ) : ∀ items : List (κ × ν),
    (setItem k v items).lookup k' = if k' = k then some v else items.lookup k'
  | [] => by
      rw [setItem]
      by_cases hk : k' = k
      · rw [if_pos hk, hk, lookup_cons_self]
      · rw [if_neg hk, lookup_cons_of_ne hk]
  | (k₀, v₀) :: items => by
      have ih := lookup_setItem k v k' items
      by_cases hk : k₀ = k
      · subst hk
        rw [setItem, if_pos rfl]
        by_cases hk' : k' = k₀
        · rw [if_pos hk', hk', lookup_cons_self]
        · rw [if_neg hk', lookup_cons_of_ne hk', lookup_cons_of_ne hk']
      · rw [setItem, if_neg hk]
        by_cases hk' : k' = k₀
        · subst hk'
          rw [lookup_cons_self, lookup_cons_self, if_neg hk]
        · rw [lookup_cons_of_ne hk', lookup_cons_of_ne hk', ih]

@[simp] lemma Dict.get?_empty (k : κ) : (Dict.empty : Dict κ ν).get? k = none := rfl

@[simp] lemma Dict.get?_set (d : Dict κ ν) (k : κ) (v : ν) (k' : κ) :
    (d.set k v).get? k' = if k' = k then some v else d.get? k' :=
  lookup_setItem k v k' d.items

lemma Dict.get?_foldl_of_notMem {k : κ} : ∀ {pairs : List (κ × ν)} {d : Dict κ ν},
    k ∉ pairs.map Prod.fst → (pairs.foldl (fun d p => d.set p.1 p.2) d).get? k = d.get? k
  | [], _, _ => rfl
  | p :: pairs, d, h => by
      rw [List.map_cons, List.mem_cons, not_or] at h
      rw [List.foldl_cons, get?_foldl_of_notMem h.2, get?_set, if_neg h.1]

/-- All pairs with the key agree. -/
lemma Dict.get?_foldl_of_mem {k : κ} {v : ν} : ∀ {pairs : List (κ × ν)} {d : Dict κ ν},
    (∀ p ∈ pairs, p.1 = k → p.2 = v) → k ∈ pairs.map Prod.fst →
    (pairs.foldl (fun d p => d.set p.1 p.2) d).get? k = some v
  | [], _, _, hmem => absurd hmem List.not_mem_nil
  | p :: pairs, d, h, hmem => by
      rw [List.foldl_cons]
      by_cases hrest : k ∈ pairs.map Prod.fst
      · exact get?_foldl_of_mem (fun q hq => h q (List.mem_cons_of_mem _ hq)) hrest
      · have hk : p.1 = k := by
          rw [List.map_cons, List.mem_cons] at hmem
          exact (hmem.resolve_right hrest).symm
        rw [get?_foldl_of_notMem hrest, get?_set, if_pos hk.symm, h p (List.mem_cons_self ..) hk]

lemma Dict.get?_ofPairs_of_mem {k : κ} {v : ν} {pairs : List (κ × ν)}
    (h : ∀ p ∈ pairs, p.1 = k → p.2 = v) (hmem : k ∈ pairs.map Prod.fst) :
    (Dict.ofPairs pairs).get? k = some v :=
  get?_foldl_of_mem h hmem

lemma Dict.mem_of_get?_foldl {k : κ} {v : ν} : ∀ {pairs : List (κ × ν)} {d : Dict κ ν},
    (pairs.foldl (fun d p => d.set p.1 p.2) d).get? k = some v →
    (k, v) ∈ pairs ∨ d.get? k = some v
  | [], _, h => Or.inr h
  | p :: pairs, d, h => by
      rw [List.foldl_cons] at h
      rcases mem_of_get?_foldl h with hmem | hset
      · exact Or.inl (List.mem_cons_of_mem p hmem)
      · rw [get?_set] at hset
        split_ifs at hset with hk
        · obtain rfl := Option.some.inj hset
          exact Or.inl (hk ▸ List.mem_cons_self ..)
        · exact Or.inr hset

/-- What a dictionary has is one of the pairs it was made of. -/
lemma Dict.mem_of_get?_ofPairs {k : κ} {v : ν} {pairs : List (κ × ν)}
    (h : (Dict.ofPairs pairs).get? k = some v) : (k, v) ∈ pairs :=
  (mem_of_get?_foldl h).resolve_right (by simp)

/-- Equal keys have equal values: nothing is lost. -/
lemma Dict.get?_ofPairs_iff {pairs : List (κ × ν)}
    (h : ∀ p ∈ pairs, ∀ q ∈ pairs, p.1 = q.1 → p.2 = q.2) {k : κ} {v : ν} :
    (Dict.ofPairs pairs).get? k = some v ↔ (k, v) ∈ pairs := by
  have hmem : ∀ {w}, (k, w) ∈ pairs → (Dict.ofPairs pairs).get? k = some w := fun hw =>
    get?_ofPairs_of_mem (fun p hp hk => h p hp _ hw hk) (List.mem_map_of_mem hw)
  exact ⟨mem_of_get?_ofPairs, hmem⟩

lemma lookup_eq_some_iff {k : κ} {v : ν} : ∀ {items : List (κ × ν)},
    (items.map Prod.fst).Nodup → (items.lookup k = some v ↔ (k, v) ∈ items)
  | [], _ => by simp
  | (k₀, v₀) :: items, h => by
      rw [List.map_cons, List.nodup_cons] at h
      rw [List.mem_cons, Prod.mk.injEq]
      by_cases hk : k = k₀
      · subst hk
        have hnot : (k, v) ∉ items := fun hmem => h.1 (List.mem_map.mpr ⟨(k, v), hmem, rfl⟩)
        rw [lookup_cons_self, Option.some.injEq]
        simp [hnot, eq_comm]
      · rw [lookup_cons_of_ne hk, lookup_eq_some_iff h.2]
        simp [hk]

/-- The items are what is found under the keys. -/
lemma Dict.get?_eq_some_iff {d : Dict κ ν} {k : κ} {v : ν} :
    d.get? k = some v ↔ (k, v) ∈ d.items :=
  lookup_eq_some_iff d.nodup

/-- `d.update(d')`: what `d'` has wins. -/
lemma Dict.get?_merge (d d' : Dict κ ν) (k : κ) :
    (d.merge d').get? k = (d'.get? k).or (d.get? k) := by
  cases hk : d'.get? k with
  | none =>
      refine get?_foldl_of_notMem fun hmem => ?_
      obtain ⟨p, hp, rfl⟩ := List.mem_map.mp hmem
      have hsome := Dict.get?_eq_some_iff.mpr hp
      rw [hk] at hsome
      cases hsome
  | some v =>
      have hmem := Dict.get?_eq_some_iff.mp hk
      refine get?_foldl_of_mem (fun p hp hpk => ?_) (List.mem_map_of_mem hmem)
      have hp' := Dict.get?_eq_some_iff.mpr hp
      rw [hpk, hk] at hp'
      exact (Option.some.inj hp').symm

/-- `del d[k]` for every one of the keys that is there. -/
def Dict.erase (d : Dict κ ν) (ks : List κ) : Dict κ ν where
  items := d.items.filter fun p => decide (p.1 ∉ ks)
  nodup := d.nodup.sublist (List.filter_sublist.map Prod.fst)

@[simp] lemma Dict.get?_erase (d : Dict κ ν) (ks : List κ) (k : κ) :
    (d.erase ks).get? k = if k ∈ ks then none else d.get? k := by
  have hmem : ∀ v, (d.erase ks).get? k = some v ↔ d.get? k = some v ∧ k ∉ ks := by
    intro v
    rw [get?_eq_some_iff, get?_eq_some_iff, erase, List.mem_filter, decide_eq_true_eq]
  split_ifs with hk
  · refine Option.eq_none_iff_forall_ne_some.mpr fun v hv => ?_
    exact ((hmem v).mp hv).2 hk
  · ext v
    exact (hmem v).trans (and_iff_left hk)

/-- A list comprehension over the items of a dictionary, with a condition; both expressions may
raise. -/
def comprehendIf {α ε : Type} (p : κ → ν → Except ε Bool) (f : κ → ν → Except ε α) :
    List (κ × ν) → Except ε (List α)
  | [] => .ok []
  | (k, v) :: items => do
      if ← p k v then
        let a ← f k v
        return a :: (← comprehendIf p f items)
      comprehendIf p f items

omit [DecidableEq κ] in
/-- When nothing is raised. -/
lemma comprehendIf_ok {α ε : Type} (p : κ → ν → Except ε Bool) (f : κ → ν → Except ε α) :
    ∀ items : List (κ × ν), (∀ x ∈ items, ∃ b, p x.1 x.2 = .ok b) →
    (∀ x ∈ items, p x.1 x.2 = .ok true → ∃ a, f x.1 x.2 = .ok a) →
    ∃ l, comprehendIf p f items = .ok l
      ∧ ∀ a, a ∈ l ↔ ∃ x ∈ items, p x.1 x.2 = .ok true ∧ f x.1 x.2 = .ok a
  | [], _, _ => ⟨[], rfl, by simp⟩
  | (k, v) :: items, hp, hf => by
      obtain ⟨l, hl, hmem⟩ := comprehendIf_ok p f items
        (fun x hx => hp x (List.mem_cons_of_mem _ hx))
        fun x hx => hf x (List.mem_cons_of_mem _ hx)
      obtain ⟨b, hb⟩ := hp (k, v) (List.mem_cons_self ..)
      dsimp only at hb
      cases b with
      | false =>
          refine ⟨l, ?_, fun a => ?_⟩
          · rw [comprehendIf, hb, hl]
            rfl
          · simp [hmem, hb]
      | true =>
          obtain ⟨a, ha⟩ := hf (k, v) (List.mem_cons_self ..) hb
          dsimp only at ha
          refine ⟨a :: l, ?_, fun a' => ?_⟩
          · rw [comprehendIf, hb, hl]
            show (f k v >>= _) = _
            rw [ha]
            rfl
          · simp [hmem, hb, ha, eq_comm]

/-- A dictionary comprehension whose value expression may raise. -/
def Dict.comprehend {κ' ν' ε : Type} [DecidableEq κ'] (d : Dict κ ν)
    (f : κ → ν → Except ε (κ' × ν')) : Except ε (Dict κ' ν') :=
  (d.items.mapM fun p => f p.1 p.2).map Dict.ofPairs

lemma mapM_error {α β ε : Type} {f : α → Except ε β} {e : ε} :
    ∀ {l : List α}, l.mapM f = .error e → ∃ a ∈ l, f a = .error e
  | [], h => by
      rw [List.mapM_nil] at h
      cases h
  | a :: l, h => by
      rw [List.mapM_cons] at h
      cases ha : f a with
      | error e' =>
          rw [ha] at h
          cases h
          exact ⟨a, List.mem_cons_self .., ha⟩
      | ok b =>
          cases hl : l.mapM f with
          | error e' =>
              rw [ha, hl] at h
              cases h
              obtain ⟨a', hmem, ha'⟩ := mapM_error hl
              exact ⟨a', List.mem_cons_of_mem _ hmem, ha'⟩
          | ok bs =>
              rw [ha, hl] at h
              cases h

lemma mapM_ok {α β ε : Type} {f : α → Except ε β} {g : α → β} :
    ∀ {l : List α}, (∀ a ∈ l, f a = .ok (g a)) → l.mapM f = .ok (l.map g)
  | [], _ => List.mapM_nil
  | a :: l, h => by
      rw [List.mapM_cons, h a (List.mem_cons_self ..),
        mapM_ok fun a' ha' => h a' (List.mem_cons_of_mem _ ha')]
      rfl

omit [DecidableEq κ] in
/-- What a comprehension raises, one of its items raises. -/
lemma Dict.comprehend_error {κ' ν' ε : Type} [DecidableEq κ'] {d : Dict κ ν}
    {f : κ → ν → Except ε (κ' × ν')} {e : ε} (h : d.comprehend f = .error e) :
    ∃ p ∈ d.items, f p.1 p.2 = .error e := by
  rw [Dict.comprehend] at h
  cases hm : d.items.mapM fun p => f p.1 p.2 with
  | error e' =>
      rw [hm] at h
      cases h
      exact mapM_error hm
  | ok ps =>
      rw [hm] at h
      cases h

end Dict

/-! ## JSON -/

/-- A JSON value as `json.loads` gives it. -/
inductive Json
  | null
  | bool (b : Bool)
  | num (q : ℚ)
  | str (s : String)
  | arr (items : List Json)
  | obj (items : List (String × Json))

/-- `bool(value)` -/
def Json.truthy : Json → Bool
  | .null => false
  | .bool b => b
  | .num q => decide (q ≠ 0)
  | .str s => decide (s ≠ "")
  | .arr items => !items.isEmpty
  | .obj items => !items.isEmpty

/-- The parts of the standard library that the model takes as they are. -/
class StandardLibrary where
  /-- `json.loads` -/
  loads : String → Except PyException Json
  /-- `json.dumps` -/
  dumps : Json → String
  /-- what `f"…"` writes for a float under the format `g` -/
  formatG : ℚ → String

/-- `json.loads` undoes `json.dumps` on the value. -/
def LoadsDumps [StandardLibrary] (v : Json) : Prop :=
  StandardLibrary.loads (StandardLibrary.dumps v) = .ok v

/-- As much of the standard library as a plain entry needs: `json.loads` reads the empty object,
`json.dumps` writes an object of texts that need no escape. -/
@[reducible] def plainLibrary : StandardLibrary where
  loads s := if s = "\x7b\x7d" then .ok (.obj [])
    else .error ⟨.valueError, "JSONDecodeError", "Expecting value"⟩
  dumps
    | .obj items => "\x7b" ++ ", ".intercalate (items.map fun p =>
        "\"" ++ p.1 ++ "\": " ++ (match p.2 with
          | .str s => "\"" ++ s ++ "\""
          | _ => "null")) ++ "\x7d"
    | _ => "null"
  formatG q := toString q.num

/-- The same, where `json.loads` reads the texts of some values. -/
@[reducible] def readingLibrary (known : List Json) : StandardLibrary where
  loads s :=
    match known.find? fun v => decide (plainLibrary.dumps v = s) with
    | some v => .ok v
    | none => plainLibrary.loads s
  dumps := plainLibrary.dumps
  formatG := plainLibrary.formatG

/-- As much of it as a record of integers needs. -/
@[reducible] def recordLibrary (known : Json) : StandardLibrary where
  loads s := if s = dumps known then .ok known else plainLibrary.loads s
  dumps := dumps
  formatG := plainLibrary.formatG
where
  dumps : Json → String
    | .obj items => "\x7b" ++ ", ".intercalate (items.map fun p =>
        "\"" ++ p.1 ++ "\": " ++ (match p.2 with
          | .num q => toString q.num
          | _ => "null")) ++ "\x7d"
    | _ => "null"

/-- `json.dumps(d, default=str)` for a dictionary of texts: bytes are written as `str` gives
them. -/
def dumpsDefaultStr [StandardLibrary] (d : Dict String Text) : String :=
  StandardLibrary.dumps (.obj (d.items.map fun p => (p.1, .str p.2.toStr)))

/-! ## Numbers -/

/-- `ZeroDivisionError` -/
def zeroDivisionError : PyException :=
  ⟨.other, "ZeroDivisionError", "integer division or modulo by zero"⟩

/-- `a // b` for integers. -/
def floorDiv (a b : ℤ) : Except PyException ℤ :=
  if b = 0 then .error zeroDivisionError else .ok (a.fdiv b)

/-- `OverflowError` -/
def overflowError : PyException :=
  ⟨.other, "OverflowError", "int too large to convert to float"⟩

/-- The ints from here on become no float: they are rounded to `2 ^ 1024`. -/
@[irreducible] def floatBound : ℕ := 2 ^ 1024 - 2 ^ 970

lemma pow_lt_sub_iff {i j k : ℕ} (h : i < j) : 2 ^ k < 2 ^ (j + 1) - 2 ^ i ↔ k < j + 1 := by
  constructor
  · intro hlt
    by_contra hlarge
    have hpow : 2 ^ (j + 1) ≤ 2 ^ k := Nat.pow_le_pow_right Nat.two_pos (Nat.le_of_not_lt hlarge)
    exact absurd (hlt.trans_le ((Nat.sub_le _ _).trans hpow)) (Nat.lt_irrefl _)
  · intro hlt
    have hpow : 2 ^ k ≤ 2 ^ j := Nat.pow_le_pow_right Nat.two_pos (Nat.le_of_lt_succ hlt)
    have hless : 2 ^ i < 2 ^ j := Nat.pow_lt_pow_right Nat.one_lt_two h
    refine hpow.trans_lt (Nat.lt_sub_of_add_lt ?_)
    rw [Nat.pow_succ, Nat.mul_two]
    exact Nat.add_lt_add_left hless _

/-- The powers of two that become floats. -/
lemma pow_lt_floatBound_iff {k : ℕ} : 2 ^ k < floatBound ↔ k < 1024 := by
  have hsucc : 1024 = 1023 + 1 := rfl
  unfold floatBound
  rw [hsucc]
  exact pow_lt_sub_iff (by decide)

/-- `x * n` for a float and an int: the int becomes a float first, which fails for the large
ones. -/
def floatMulInt (x : ℚ) (n : ℕ) : Except PyException ℚ :=
  if n < floatBound then .ok (x * n) else .error overflowError

lemma floatMulInt_pow (x : ℚ) {k : ℕ} (h : k < 1024) :
    floatMulInt x (2 ^ k) = .ok (x * (2 ^ k : ℕ)) :=
  if_pos (pow_lt_floatBound_iff.mpr h)

lemma floatMulInt_overflow (x : ℚ) {k : ℕ} (h : 1024 ≤ k) :
    floatMulInt x (2 ^ k) = .error overflowError :=
  if_neg fun hlt => absurd (pow_lt_floatBound_iff.mp hlt) (Nat.not_lt.mpr h)

/-- An `int` or a `float`; a float is the rational number that it stands for. -/
inductive Number
  | int (n : ℤ)
  | float (x : ℚ)
  deriving DecidableEq, Repr

def Number.value : Number → ℚ
  | .int n => n
  | .float x => x

@[simp] lemma Number.value_int (n : ℤ) : (Number.int n).value = n := rfl

@[simp] lemma Number.value_float (x : ℚ) : (Number.float x).value = x := rfl

/-- `x * n`: exact for two ints. -/
def Number.mul (n : ℕ) : Number → Except PyException Number
  | .int m => .ok (.int (m * n))
  | .float x => (floatMulInt x n).map .float

/-- `min(x, y)`: the first one if they are equal. -/
def Number.min (x y : Number) : Number := if y.value < x.value then y else x

/-- `f"{x:g}"`: an int becomes a float first. -/
def Number.formatG [StandardLibrary] : Number → Except PyException String
  | .int n =>
      if n.natAbs < floatBound then .ok (StandardLibrary.formatG n) else .error overflowError
  | .float x => .ok (StandardLibrary.formatG x)

/-- `ValueError` of `int` -/
def intValueError : PyException := ⟨.valueError, "ValueError", "invalid literal for int()"⟩

/-- The value of a row of digits. -/
def parseDigits (digits : List Char) : Except PyException ℕ :=
  if digits ≠ [] ∧ digits.all Char.isDigit then .ok (Nat.ofDigitChars 10 digits 0)
  else .error intValueError

/-- `int(text)`, for a text as `str` writes it: the blanks, the plus sign and the underscores that
Python also takes are left out. -/
def parseInt (text : String) : Except PyException ℤ :=
  match text.toList with
  | '-' :: digits => (parseDigits digits).map fun m : ℕ => -(m : ℤ)
  | digits => (parseDigits digits).map fun m : ℕ => (m : ℤ)

lemma isDigit_of_mem_digits {n : ℕ} {c : Char} (h : c ∈ Nat.toDigits 10 n) : c.isDigit = true :=
  Nat.isDigit_of_mem_toDigits (by decide) (by decide) h

lemma parseDigits_toDigits (n : ℕ) : parseDigits (Nat.toDigits 10 n) = .ok n := by
  have hdigits : (Nat.toDigits 10 n).all Char.isDigit = true :=
    List.all_eq_true.mpr fun c hc => isDigit_of_mem_digits hc
  rw [parseDigits, if_pos ⟨Nat.toDigits_ne_nil, hdigits⟩, Nat.ofDigitChars_ten_toDigits]

lemma toList_ofNat (n : ℕ) : (toString (Int.ofNat n)).toList = Nat.toDigits 10 n := Nat.toList_repr

lemma toList_negSucc (n : ℕ) :
    (toString (Int.negSucc n)).toList = '-' :: Nat.toDigits 10 (n + 1) := by
  show ("-" ++ Nat.repr (n + 1)).toList = _
  rw [String.toList_append, Nat.toList_repr]
  rfl

/-- What `str(n)` consists of. -/
lemma mem_toString_int {n : ℤ} {c : Char} (h : c ∈ (toString n).toList) :
    c.isDigit = true ∨ c = '-' := by
  cases n with
  | ofNat n =>
      rw [toList_ofNat] at h
      exact Or.inl (isDigit_of_mem_digits h)
  | negSucc n =>
      rw [toList_negSucc, List.mem_cons] at h
      exact h.symm.imp isDigit_of_mem_digits id

/-- `int(str(n))` -/
lemma parseInt_toString (n : ℤ) : parseInt (toString n) = .ok n := by
  cases n with
  | ofNat n =>
      rw [parseInt, toList_ofNat]
      split
      · rename_i digits heq
        have hminus : '-' ∈ Nat.toDigits 10 n := heq ▸ List.mem_cons_self ..
        have hdigit := isDigit_of_mem_digits hminus
        cases hdigit
      · rw [parseDigits_toDigits]
        rfl
  | negSucc n =>
      rw [parseInt, toList_negSucc]
      show (parseDigits (Nat.toDigits 10 (n + 1))).map _ = _
      rw [parseDigits_toDigits]
      rfl

lemma toString_int_injective : Function.Injective (toString : ℤ → String) := by
  intro m n h
  have hm := parseInt_toString m
  rw [h, parseInt_toString n] at hm
  exact (Except.ok.inj hm).symm

end Python
