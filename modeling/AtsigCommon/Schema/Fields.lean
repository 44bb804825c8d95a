import Mathlib.Data.List.Nodup
import AtsigCommon.Python.Text
import AtsigCommon.Python.Values

/-!
# Record types that are validated from JSON and dumped to it

A field type says which values it has, how a value is dumped to JSON, and how it is read.  Types are
built from scalars by `list`, `option` and `model`, and a model is a list of fields, each with a
name, the other keys it may be read from, and perhaps a default.  How the scalars are written and
read is given by the class `Scalars`.

* `FieldType.Lawful` — what is dumped is read back; kept by every way of building a type.
* `readFields_dumpFields` — a record is read back from its own fields.
* `readFields_congr` — only the keys of the fields are looked at.
-/

namespace Schema

open Python

/-! ## Types -/

/-- A type of a field: its values, `model_dump` to JSON, and validation. -/
structure FieldType where
  Value : Type
  dump : Value → Json
  read : Json → Option Value

/-- What is dumped is read back. -/
class FieldType.Lawful (t : FieldType) : Prop where
  read_dump : ∀ v, t.read (t.dump v) = some v

/-- No value is dumped as null. -/
class FieldType.NeverNull (t : FieldType) : Prop where
  dump_ne : ∀ v, t.dump v ≠ .null

/-- The scalar types: what a text, an int and a bool may be read from, the JSON texts of the
others, and what is stripped as a blank. -/
class Scalars where
  readStr : Json → Option String
  readInt : Json → Option ℤ
  readBool : Json → Option Bool
  isSpace : Char → Bool
  Decimal : Type
  dumpDecimal : Decimal → String
  readDecimal : Json → Option Decimal
  Date : Type
  dumpDate : Date → String
  readDate : Json → Option Date
  DateTime : Type
  dumpDateTime : DateTime → String
  readDateTime : Json → Option DateTime
  UUID : Type
  dumpUUID : UUID → String
  readUUID : Json → Option UUID

/-- The JSON form of a scalar is read back as the same value. -/
class LawfulScalars [Scalars] : Prop where
  readStr_str : ∀ s, Scalars.readStr (.str s) = some s
  readInt_num : ∀ n : ℤ, Scalars.readInt (.num n) = some n
  readBool_bool : ∀ b, Scalars.readBool (.bool b) = some b
  readDecimal_dump : ∀ d, Scalars.readDecimal (.str (Scalars.dumpDecimal d)) = some d
  readDate_dump : ∀ d, Scalars.readDate (.str (Scalars.dumpDate d)) = some d
  readDateTime_dump : ∀ d, Scalars.readDateTime (.str (Scalars.dumpDateTime d)) = some d
  readUUID_dump : ∀ u, Scalars.readUUID (.str (Scalars.dumpUUID u)) = some u

namespace FieldType

section Scalar

variable [Scalars]

/-- `str` -/
def str : FieldType := ⟨String, .str, Scalars.readStr⟩

/-- `int` -/
def int : FieldType := ⟨ℤ, fun n => .num n, Scalars.readInt⟩

/-- `bool` -/
def bool : FieldType := ⟨Bool, .bool, Scalars.readBool⟩

/-- `Decimal` -/
def decimal : FieldType :=
  ⟨Scalars.Decimal, fun d => .str (Scalars.dumpDecimal d), Scalars.readDecimal⟩

/-- `date` -/
def date : FieldType := ⟨Scalars.Date, fun d => .str (Scalars.dumpDate d), Scalars.readDate⟩

/-- `datetime` -/
def datetime : FieldType :=
  ⟨Scalars.DateTime, fun d => .str (Scalars.dumpDateTime d), Scalars.readDateTime⟩

/-- `UUID` -/
def uuid : FieldType := ⟨Scalars.UUID, fun u => .str (Scalars.dumpUUID u), Scalars.readUUID⟩

/-- `text.strip()`, with the blanks of the scalars. -/
def stripText (s : String) : String := .ofList (strip Scalars.isSpace s.toList)

lemma stripText_stripText (s : String) : stripText (stripText s) = stripText s := by
  rw [stripText, stripText, String.toList_ofList, strip_strip]

/-- `Annotated[str, StringConstraints(strip_whitespace=True, min_length=minLength)]` -/
def stripped (minLength : ℕ) : FieldType where
  Value := { s : String // stripText s = s ∧ minLength ≤ s.length }
  dump s := .str s
  read j := (Scalars.readStr j).bind fun s =>
    if h : minLength ≤ (stripText s).length then some ⟨stripText s, stripText_stripText s, h⟩
    else none

end Scalar

/-- An enumeration of texts. -/
def enum {α : Type} (members : List α) (value : α → String) : FieldType where
  Value := α
  dump a := .str (value a)
  read
    | .str s => members.find? fun a => value a = s
    | _ => none

/-- `dict[str, Any]` -/
def anyDict : FieldType where
  Value := Dict String Json
  dump d := .obj d.items
  read
    | .obj items => some (Dict.ofPairs items)
    | _ => none

/-- Null is the missing value. -/
def readOption {α : Type} (read : Json → Option α) : Json → Option (Option α)
  | .null => some none
  | j => (read j).map some

lemma readOption_of_ne {α : Type} (read : Json → Option α) {j : Json} (h : j ≠ .null) :
    readOption read j = (read j).map some := by
  cases j with
  | null => exact absurd rfl h
  | _ => rfl

/-- `t | None` -/
def option (t : FieldType) : FieldType where
  Value := Option t.Value
  dump
    | some v => t.dump v
    | none => .null
  read := readOption t.read

/-- `list[t]` -/
def list (t : FieldType) : FieldType where
  Value := List t.Value
  dump vs := .arr (vs.map t.dump)
  read
    | .arr items => items.mapM t.read
    | _ => none

end FieldType

/-! ## Records -/

/-- A field of a model: where `AliasChoices` are given, they are the keys that are tried before its
name. -/
structure RecordField where
  name : String
  type : FieldType
  default : Option type.Value
  choices : List String

/-- The keys that a field is read from, in the order in which they are tried. -/
def RecordField.keys (f : RecordField) : List String := f.choices ++ [f.name]

/-- The first key that is there decides; without one, the default does. -/
def RecordField.read (f : RecordField) (payload : List (String × Json)) : Option f.type.Value :=
  match f.keys.findSome? fun key => payload.lookup key with
  | some j => f.type.read j
  | none => f.default

/-- The values of a list of fields. -/
def Record : List RecordField → Type
  | [] => Unit
  | f :: fields => f.type.Value × Record fields

/-- The items of the dumped record. -/
def dumpFields : (fields : List RecordField) → Record fields → List (String × Json)
  | [], _ => []
  | f :: fields, (v, record) => (f.name, f.type.dump v) :: dumpFields fields record

/-- The record that is read from the items of an object; other keys are ignored. -/
def readFields : (fields : List RecordField) → List (String × Json) → Option (Record fields)
  | [], _ => some ()
  | f :: fields, payload => do
      let v ← f.read payload
      let record ← readFields fields payload
      return (v, record)

/-- A model, whose fields have different names. -/
structure RecordClass where
  name : String
  fields : List RecordField
  nodup : (fields.map RecordField.name).Nodup

/-- A nested model. -/
def RecordClass.type (m : RecordClass) : FieldType where
  Value := Record m.fields
  dump record := .obj (dumpFields m.fields record)
  read
    | .obj items => readFields m.fields items
    | _ => none

/-- `name: t` -/
def required (name : String) (t : FieldType) : RecordField := ⟨name, t, none, []⟩

/-- `name: t = default` -/
def defaulted (name : String) (t : FieldType) (default : t.Value) : RecordField :=
  ⟨name, t, some default, []⟩

/-- `name: t | None = None` -/
def nullable (name : String) (t : FieldType) : RecordField := defaulted name t.option none

/-- `name: t = Field(validation_alias=AliasChoices(name, *others))` -/
def aliased (name : String) (t : FieldType) (others : List String) : RecordField :=
  ⟨name, t, none, name :: others⟩

/-! ## What is dumped is read back -/

namespace FieldType

section Scalar

variable [Scalars] [LawfulScalars]

instance : str.Lawful := ⟨LawfulScalars.readStr_str⟩

instance : int.Lawful := ⟨LawfulScalars.readInt_num⟩

instance : bool.Lawful := ⟨LawfulScalars.readBool_bool⟩

instance : decimal.Lawful := ⟨LawfulScalars.readDecimal_dump⟩

instance : date.Lawful := ⟨LawfulScalars.readDate_dump⟩

instance : datetime.Lawful := ⟨LawfulScalars.readDateTime_dump⟩

instance : uuid.Lawful := ⟨LawfulScalars.readUUID_dump⟩

/-- A stripped text is read as it is. -/
instance (minLength : ℕ) : (stripped minLength).Lawful where
  read_dump := by
    rintro ⟨s, hstrip, hlength⟩
    have hread := LawfulScalars.readStr_str s
    have hlength' : minLength ≤ (stripText s).length := by rwa [hstrip]
    show (Scalars.readStr (.str s)).bind _ = _
    rw [hread, Option.bind_some, dif_pos hlength']
    exact congrArg some (Subtype.ext hstrip)

end Scalar

section NeverNull

variable [Scalars]

instance : str.NeverNull := ⟨nofun⟩

instance : int.NeverNull := ⟨nofun⟩

instance : bool.NeverNull := ⟨nofun⟩

instance : decimal.NeverNull := ⟨nofun⟩

instance : datetime.NeverNull := ⟨nofun⟩

instance (t : FieldType) : t.list.NeverNull := ⟨nofun⟩

end NeverNull

/-- The values of an enumeration are different texts. -/
lemma enum_lawful {α : Type} {members : List α} {value : α → String}
    (h : ∀ a, members.find? (fun b => value b = value a) = some a) :
    (enum members value).Lawful := ⟨h⟩

instance : anyDict.Lawful where
  read_dump d := congrArg some (Dict.ext (Dict.items_ofPairs d.nodup))

/-- A value that is dumped as null is the missing one. -/
instance (t : FieldType) [t.Lawful] [t.NeverNull] : t.option.Lawful where
  read_dump
    | none => rfl
    | some v => by
        have hread := readOption_of_ne t.read (NeverNull.dump_ne (t := t) v)
        exact hread.trans (congrArg (Option.map some) (Lawful.read_dump v))

instance (t : FieldType) [t.Lawful] : t.list.Lawful where
  read_dump vs := by
    show (vs.map t.dump).mapM t.read = some vs
    induction vs with
    | nil => rfl
    | cons v vs ih => rw [List.map_cons, List.mapM_cons, Lawful.read_dump, ih]; rfl

end FieldType

/-! ## Records are read back -/

/-- Every field has a lawful type and is first read from its own name. -/
class FieldsLawful (fields : List RecordField) : Prop where
  type_lawful : ∀ f ∈ fields, f.type.Lawful
  own_name : ∀ f ∈ fields, f.keys.head? = some f.name

namespace FieldsLawful

lemma nil : FieldsLawful [] := ⟨nofun, nofun⟩

lemma cons {f : RecordField} {fields : List RecordField} (htype : f.type.Lawful)
    (hname : f.keys.head? = some f.name) (h : FieldsLawful fields) :
    FieldsLawful (f :: fields) where
  type_lawful := List.forall_mem_cons.mpr ⟨htype, h.type_lawful⟩
  own_name := List.forall_mem_cons.mpr ⟨hname, h.own_name⟩

section Builders

variable {name : String} {t : FieldType} {fields : List RecordField}

lemma required [ht : t.Lawful] (h : FieldsLawful fields) :
    FieldsLawful (required name t :: fields) := cons ht rfl h

lemma defaulted [ht : t.Lawful] {default : t.Value} (h : FieldsLawful fields) :
    FieldsLawful (defaulted name t default :: fields) := cons ht rfl h

lemma nullable [t.Lawful] [t.NeverNull] (h : FieldsLawful fields) :
    FieldsLawful (nullable name t :: fields) := cons (inferInstanceAs t.option.Lawful) rfl h

lemma aliased [ht : t.Lawful] {others : List String} (h : FieldsLawful fields) :
    FieldsLawful (aliased name t others :: fields) := cons ht rfl h

end Builders

end FieldsLawful

lemma map_fst_dumpFields : ∀ (fields : List RecordField) (record : Record fields),
    (dumpFields fields record).map Prod.fst = fields.map RecordField.name
  | [], _ => rfl
  | f :: fields, (v, record) => by
      rw [dumpFields, List.map_cons, map_fst_dumpFields fields record, List.map_cons]

/-- A field is read from its own name, where that is there. -/
lemma RecordField.read_of_lookup {f : RecordField} {payload : List (String × Json)} {j : Json}
    (hname : f.keys.head? = some f.name) (hlookup : payload.lookup f.name = some j) :
    f.read payload = f.type.read j := by
  have hfind : (f.keys.findSome? fun key => payload.lookup key) = some j := by
    cases hkeys : f.keys with
    | nil =>
        rw [hkeys] at hname
        cases hname
    | cons key keys =>
        rw [hkeys] at hname
        rw [Option.some.inj hname, List.findSome?_cons, hlookup]
  rw [RecordField.read, hfind]

/-- The fields of a record are read back wherever all of them are found. -/
lemma readFields_of_lookup : ∀ {fields : List RecordField} [FieldsLawful fields]
    {record : Record fields} {payload : List (String × Json)},
    (∀ item ∈ dumpFields fields record, payload.lookup item.1 = some item.2) →
    readFields fields payload = some record
  | [], _, (), _, _ => rfl
  | f :: fields, h, (v, record), payload, hlookup => by
      have htail : FieldsLawful fields :=
        ⟨(List.forall_mem_cons.mp h.type_lawful).2, (List.forall_mem_cons.mp h.own_name).2⟩
      have htype := h.type_lawful f (List.mem_cons_self ..)
      have hread : f.read payload = some v := by
        rw [RecordField.read_of_lookup (h.own_name f (List.mem_cons_self ..))
          (hlookup _ (List.mem_cons_self ..))]
        exact FieldType.Lawful.read_dump v
      have hrest : readFields fields payload = some record :=
        readFields_of_lookup fun item hitem => hlookup item (List.mem_cons_of_mem _ hitem)
      rw [readFields, hread, hrest]
      rfl

/-- **A record is read back** from its own fields, when their names are different. -/
theorem readFields_dumpFields (m : RecordClass) [FieldsLawful m.fields] (record : Record m.fields) :
    readFields m.fields (dumpFields m.fields record) = some record := by
  refine readFields_of_lookup fun item hitem => ?_
  have hnodup : ((dumpFields m.fields record).map Prod.fst).Nodup := by
    rw [map_fst_dumpFields]
    exact m.nodup
  exact (lookup_eq_some_iff hnodup).mpr hitem

instance (m : RecordClass) [FieldsLawful m.fields] : m.type.Lawful := ⟨readFields_dumpFields m⟩

instance (m : RecordClass) : m.type.NeverNull := ⟨nofun⟩

/-! ## Which keys are looked at -/

/-- The keys that a model knows: the names of its fields, and the keys they may be read from. -/
def RecordClass.knownKeys (m : RecordClass) : List String :=
  m.fields.flatMap fun f => f.name :: f.choices

lemma findSome_congr {α β : Type} {f g : α → Option β} : ∀ {l : List α},
    (∀ a ∈ l, f a = g a) → l.findSome? f = l.findSome? g
  | [], _ => rfl
  | a :: l, h => by
      rw [List.findSome?_cons, List.findSome?_cons, h a (List.mem_cons_self ..),
        findSome_congr fun b hb => h b (List.mem_cons_of_mem a hb)]

/-- Only the keys of the fields decide what is read. -/
lemma readFields_congr {payload payload' : List (String × Json)} : ∀ {fields : List RecordField},
    (∀ f ∈ fields, ∀ key ∈ f.keys, payload.lookup key = payload'.lookup key) →
    readFields fields payload = readFields fields payload'
  | [], _ => rfl
  | f :: fields, h => by
      have hfind : (f.keys.findSome? fun key => payload.lookup key)
          = f.keys.findSome? fun key => payload'.lookup key :=
        findSome_congr (h f (List.mem_cons_self ..))
      have hread : f.read payload = f.read payload' := by
        rw [RecordField.read, RecordField.read, hfind]
      rw [readFields, readFields, hread,
        readFields_congr fun g hg => h g (List.mem_cons_of_mem f hg)]

/-- **Other keys are ignored.** -/
theorem readFields_of_known (m : RecordClass) {payload payload' : List (String × Json)}
    (h : ∀ key ∈ m.knownKeys, payload.lookup key = payload'.lookup key) :
    readFields m.fields payload = readFields m.fields payload' := by
  refine readFields_congr fun f hf key hkey => h key ?_
  refine List.mem_flatMap.mpr ⟨f, hf, ?_⟩
  rcases List.mem_append.mp hkey with hchoice | hname
  · exact List.mem_cons_of_mem _ hchoice
  · rw [List.mem_singleton.mp hname]
    exact List.mem_cons_self ..

end Schema
