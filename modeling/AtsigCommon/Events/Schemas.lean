import Mathlib.Data.String.Basic
import AtsigCommon.Schema.Fields

/-!
# The events that the services send each other

The event classes of `atsig_common.events.schemas`, as lists of their fields, and what happens to
an event on its way: `to_payload`, `json.dumps`, `json.loads`, and the validation by the same class.

* `unexpectedKeys`, `toPayload` — the two methods of `EventPayload`, for any of the classes.
* `eventClasses` — the ten classes.
* `events_survive_wire` — what is received is what was sent.
-/

namespace Atsig

open Python Schema

/-! ## Enumerations -/

/-- `ProgrammeType` -/
inductive ProgrammeType
  | msc
  | bsc
  | shortTerm
  deriving DecidableEq, Repr

def ProgrammeType.value : ProgrammeType → String
  | .msc => "Master"
  | .bsc => "Bachelor"
  | .shortTerm => "Short Term"

/-- `Languages` -/
inductive Languages
  | greek
  | english
  | french
  | german
  | italian
  | russian
  | turkish
  | spanish
  deriving DecidableEq, Repr

def Languages.value : Languages → String
  | .greek => "Greek"
  | .english => "English"
  | .french => "French"
  | .german => "German"
  | .italian => "Italian"
  | .russian => "Russian"
  | .turkish => "Turkish"
  | .spanish => "Spanish"

/-- `RestrictionMode` -/
inductive RestrictionMode
  | none
  | denyList
  | allowList
  deriving DecidableEq, Repr

def RestrictionMode.value : RestrictionMode → String
  | .none => "none"
  | .denyList => "deny_list"
  | .allowList => "allow_list"

/-- `AttendanceMode` -/
inductive AttendanceMode
  | fullTime
  | partTime
  | undetermined
  deriving DecidableEq, Repr

def AttendanceMode.value : AttendanceMode → String
  | .fullTime => "full_time"
  | .partTime => "part_time"
  | .undetermined => "undetermined"

def programmeType : FieldType := .enum [.msc, .bsc, .shortTerm] ProgrammeType.value

def languages : FieldType :=
  .enum [.greek, .english, .french, .german, .italian, .russian, .turkish, .spanish]
    Languages.value

def restrictionMode : FieldType := .enum [.none, .denyList, .allowList] RestrictionMode.value

def attendanceMode : FieldType :=
  .enum [.fullTime, .partTime, .undetermined] AttendanceMode.value

/-! ## The classes -/

section Classes

variable [Scalars]

open FieldType

/-- `Name` -/
def nameType : FieldType := stripped 1

abbrev applicantNameSyncFields : List RecordField :=
  [required "applicant_id" uuid, required "applicant_first_name" nameType,
    required "applicant_last_name" nameType]

/-- `ApplicantNameSync` -/
def applicantNameSync : RecordClass :=
  ⟨"ApplicantNameSync", applicantNameSyncFields, of_decide_eq_true rfl⟩

abbrev userSyncEventFields : List RecordField :=
  [aliased "uuid" str ["id"], nullable "email" str, nullable "first_name" str,
    nullable "last_name" str]

/-- `UserSyncEvent` -/
def userSyncEvent : RecordClass := ⟨"UserSyncEvent", userSyncEventFields, of_decide_eq_true rfl⟩

abbrev userDeleteEventFields : List RecordField := [aliased "uuid" str ["id"]]

/-- `UserDeleteEvent` -/
def userDeleteEvent : RecordClass :=
  ⟨"UserDeleteEvent", userDeleteEventFields, of_decide_eq_true rfl⟩

abbrev tuitionFeeEventFields : List RecordField :=
  [required "study_mode" str, required "student_origin" str, required "period" str,
    required "amount" decimal]

/-- `TuitionFeeEvent` -/
def tuitionFeeEvent : RecordClass :=
  ⟨"TuitionFeeEvent", tuitionFeeEventFields, of_decide_eq_true rfl⟩

abbrev programmeUpdateEventFields : List RecordField :=
  [required "id" int, required "name_gr" str, required "name_en" str, required "is_archived" bool,
    nullable "type" str, required "department_id" int, required "secretaries" str.list,
    required "version" int,
    nullable "admission_type" str,
    nullable "description_gr" str, nullable "description_en" str,
    nullable "collab_en_institutions" str.list, nullable "collaborations" anyDict.list,
    nullable "ects" int, nullable "city_en" str, nullable "city_gr" str, nullable "phone" str,
    nullable "email" str, nullable "website" str, nullable "languages" str.list,
    nullable "topics" str.list, nullable "study_modes" str.list, nullable "has_tuition_fees" bool,
    nullable "tuition_fees_from" decimal, nullable "tuition_fees_to" decimal,
    nullable "tuition_fees" tuitionFeeEvent.type.list, nullable "masters_id" int,
    nullable "is_featured" bool, nullable "created_at" datetime, nullable "updated_at" datetime,
    -- the fields of one kind of programme
    nullable "semesters" int, nullable "part_time" bool, nullable "part_time_semesters" int,
    nullable "scholarship_offered" bool, nullable "master_type" str, nullable "bachelor_type" str,
    nullable "days" int, nullable "short_term_type" str]

/-- `ProgrammeUpdateEvent` -/
def programmeUpdateEvent : RecordClass :=
  ⟨"ProgrammeUpdateEvent", programmeUpdateEventFields, of_decide_eq_true rfl⟩

abbrev callRequestedDocumentEventFields : List RecordField :=
  [required "document_type_code" str, nullable "description_en" str,
    nullable "description_gr" str, defaulted "is_required" bool true,
    defaulted "max_files" int (1 : ℤ), required "order_index" int]

/-- `CallRequestedDocumentEvent` -/
def callRequestedDocumentEvent : RecordClass :=
  ⟨"CallRequestedDocumentEvent", callRequestedDocumentEventFields, of_decide_eq_true rfl⟩

abbrev callDisciplineEventFields : List RecordField :=
  [required "discipline_id" int, required "title_en" str, required "title_gr" str,
    defaulted "order_index" int (0 : ℤ)]

/-- `CallDisciplineEvent` -/
def callDisciplineEvent : RecordClass :=
  ⟨"CallDisciplineEvent", callDisciplineEventFields, of_decide_eq_true rfl⟩

abbrev callExtraFieldEventFields : List RecordField :=
  [required "extra_field_code" str, defaulted "required" bool false]

/-- `CallExtraFieldEvent` -/
def callExtraFieldEvent : RecordClass :=
  ⟨"CallExtraFieldEvent", callExtraFieldEventFields, of_decide_eq_true rfl⟩

abbrev callEventFields : List RecordField :=
  [required "id" int, required "programme_id" int, required "title_gr" str,
    required "title_en" str, required "description_gr" str, required "description_en" str,
    required "academic_year" str, nullable "number_of_admissions" int,
    required "start_date" date, required "end_date" date, required "publish_date" date,
    nullable "call_url" str, required "call_type" programmeType, nullable "call_file" str,
    defaulted "is_archived" bool false,
    defaulted "supported_attendance_modes" attendanceMode.list [AttendanceMode.undetermined],
    defaulted "target_languages" languages.list [],
    defaulted "restriction_mode" restrictionMode RestrictionMode.none,
    defaulted "restricted_countries" str.list [], required "version" int,
    nullable "evaluators" str.list,
    defaulted "requested_documents" callRequestedDocumentEvent.type.list [],
    defaulted "disciplines" callDisciplineEvent.type.list [],
    defaulted "extra_fields" callExtraFieldEvent.type.list []]

/-- `CallEvent` -/
def callEvent : RecordClass := ⟨"CallEvent", callEventFields, of_decide_eq_true rfl⟩

abbrev leadEventFields : List RecordField :=
  [required "id" int, required "programme_id" int, required "first_name" str,
    required "last_name" str, required "email" str, nullable "phone" str, nullable "message" str,
    required "origin_country" str, nullable "created_at" datetime]

/-- `LeadEvent` -/
def leadEvent : RecordClass := ⟨"LeadEvent", leadEventFields, of_decide_eq_true rfl⟩

/-- The event classes. -/
def eventClasses : List RecordClass :=
  [applicantNameSync, userSyncEvent, userDeleteEvent, tuitionFeeEvent, programmeUpdateEvent,
    callRequestedDocumentEvent, callDisciplineEvent, callExtraFieldEvent, callEvent, leadEvent]

end Classes

/-! ## Payloads -/

section Payloads

variable (cls : RecordClass)

/-- `unexpected_keys` -/
def EventPayload.unexpectedKeys (payload : Dict String Json) : List String :=
  ((payload.items.map Prod.fst).filter fun key => key ∉ cls.knownKeys).mergeSort
    fun a b => decide (a ≤ b)

/-- `to_payload` -/
def EventPayload.toPayload (event : Record cls.fields) : Dict String Json where
  items := dumpFields cls.fields event
  nodup := by
    rw [map_fst_dumpFields]
    exact cls.nodup

/-- `model_validate` -/
def EventPayload.modelValidate (payload : Json) : Option (Record cls.fields) :=
  cls.type.read payload

variable [StandardLibrary]

/-- `json.dumps(event.to_payload())` -/
def EventPayload.toWire (event : Record cls.fields) : String :=
  StandardLibrary.dumps (.obj (toPayload cls event).items)

/-- `model_validate(json.loads(text))` -/
def EventPayload.fromWire (text : String) : Option (Record cls.fields) :=
  (StandardLibrary.loads text).toOption.bind (modelValidate cls)

open EventPayload

/-- **What happens to the events of a class on their way**: an event whose payload `json` reads back
is received as it was sent, its payload has no unexpected key, and a payload is validated to the
same event, or refused, whatever unexpected keys are added to it. -/
structure SurvivesWire : Prop where
  round_trip : ∀ event : Record cls.fields, LoadsDumps (.obj (toPayload cls event).items) →
    fromWire cls (toWire cls event) = some event
  expected : ∀ event : Record cls.fields, unexpectedKeys cls (toPayload cls event) = []
  ignored : ∀ payload extra : Dict String Json,
    (∀ key ∈ extra.items.map Prod.fst, key ∈ unexpectedKeys cls (payload.merge extra)) →
    modelValidate cls (.obj (payload.merge extra).items) = modelValidate cls (.obj payload.items)

omit [StandardLibrary] in
lemma mem_unexpectedKeys {payload : Dict String Json} {key : String} :
    key ∈ unexpectedKeys cls payload
      ↔ key ∈ payload.items.map Prod.fst ∧ key ∉ cls.knownKeys := by
  rw [unexpectedKeys, List.mem_mergeSort, List.mem_filter, decide_eq_true_eq]

omit [StandardLibrary] in
/-- The keys of a payload are the names of the fields. -/
lemma unexpectedKeys_toPayload (event : Record cls.fields) :
    unexpectedKeys cls (toPayload cls event) = [] := by
  refine List.eq_nil_iff_forall_not_mem.mpr fun key hkey => ?_
  obtain ⟨hmem, hunknown⟩ := (mem_unexpectedKeys cls).mp hkey
  refine hunknown ?_
  have hname : key ∈ cls.fields.map RecordField.name := by
    rw [← map_fst_dumpFields cls.fields event]
    exact hmem
  obtain ⟨f, hf, rfl⟩ := List.mem_map.mp hname
  exact List.mem_flatMap.mpr ⟨f, hf, List.mem_cons_self ..⟩

omit [StandardLibrary] in
/-- Keys that are reported are not looked at. -/
lemma modelValidate_merge (payload extra : Dict String Json)
    (h : ∀ key ∈ extra.items.map Prod.fst, key ∈ unexpectedKeys cls (payload.merge extra)) :
    modelValidate cls (.obj (payload.merge extra).items)
      = modelValidate cls (.obj payload.items) := by
  refine readFields_of_known cls fun key hknown => ?_
  have hextra : extra.get? key = none := by
    cases hget : extra.get? key with
    | none => rfl
    | some j =>
        have hmem : key ∈ extra.items.map Prod.fst :=
          List.mem_map_of_mem (Dict.get?_eq_some_iff.mp hget)
        exact absurd hknown ((mem_unexpectedKeys cls).mp (h key hmem)).2
  show (payload.merge extra).get? key = payload.get? key
  rw [Dict.get?_merge, hextra, Option.none_or]

/-- A lawful class keeps its events on their way. -/
lemma survivesWire_of_lawful [FieldsLawful cls.fields] : SurvivesWire cls where
  round_trip event hjson := by
    have hloads : StandardLibrary.loads (toWire cls event)
        = .ok (.obj (toPayload cls event).items) := hjson
    rw [fromWire, hloads]
    exact readFields_dumpFields cls event
  expected := unexpectedKeys_toPayload cls
  ignored := modelValidate_merge cls

end Payloads

/-! ## Every class -/

instance : programmeType.Lawful := FieldType.enum_lawful (by rintro (_ | _ | _) <;> rfl)

instance : languages.Lawful :=
  FieldType.enum_lawful (by rintro (_ | _ | _ | _ | _ | _ | _ | _) <;> rfl)

instance : restrictionMode.Lawful := FieldType.enum_lawful (by rintro (_ | _ | _) <;> rfl)

instance : attendanceMode.Lawful := FieldType.enum_lawful (by rintro (_ | _ | _) <;> rfl)

section Lawful

variable [Scalars] [LawfulScalars]

instance : nameType.Lawful := inferInstanceAs (FieldType.stripped 1).Lawful

instance : FieldsLawful tuitionFeeEvent.fields := .required (.required (.required (.required .nil)))

instance : FieldsLawful callRequestedDocumentEvent.fields :=
  .required (.nullable (.nullable (.defaulted (.defaulted (.required .nil)))))

instance : FieldsLawful callDisciplineEvent.fields :=
  .required (.required (.required (.defaulted .nil)))

instance : FieldsLawful callExtraFieldEvent.fields := .required (.defaulted .nil)

/-- Every field of every class is read back: one step for each field. -/
lemma eventClasses_lawful : ∀ cls ∈ eventClasses, FieldsLawful cls.fields := by
  intro cls hcls
  simp only [eventClasses, List.mem_cons, List.not_mem_nil, or_false] at hcls
  rcases hcls with rfl | rfl | rfl | rfl | rfl | rfl | rfl | rfl | rfl | rfl
  all_goals repeat' first
    | exact FieldsLawful.nil
    | apply FieldsLawful.required
    | apply FieldsLawful.nullable
    | apply FieldsLawful.defaulted
    | apply FieldsLawful.aliased

/-- **Events survive their wire format**, for every event class. -/
theorem events_survive_wire [StandardLibrary] : ∀ cls ∈ eventClasses, SurvivesWire cls := by
  intro cls hcls
  have hlawful := eventClasses_lawful cls hcls
  exact survivesWire_of_lawful cls

end Lawful

section User

/-- Scalars whose values are their JSON texts. -/
@[reducible] def textScalars : Scalars where
  readStr := text
  readInt
    | .num q => if q.den = 1 then some q.num else none
    | _ => none
  readBool
    | .bool b => some b
    | _ => none
  isSpace := Char.isWhitespace
  Decimal := String
  dumpDecimal := id
  readDecimal := text
  Date := String
  dumpDate := id
  readDate := text
  DateTime := String
  dumpDateTime := id
  readDateTime := text
  UUID := String
  dumpUUID := id
  readUUID := text
where
  text : Json → Option String
    | .str s => some s
    | _ => none

attribute [local instance] textScalars

instance : LawfulScalars where
  readStr_str _ := rfl
  readInt_num _ := rfl
  readBool_bool _ := rfl
  readDecimal_dump _ := rfl
  readDate_dump _ := rfl
  readDateTime_dump _ := rfl
  readUUID_dump _ := rfl

/-- A user without a first name, and what is sent for it. -/
def userEvent : Record userSyncEvent.fields := ("u1", some "a@x.gr", none, some "L", ())

@[reducible] def userLibrary : StandardLibrary :=
  readingLibrary [.obj (EventPayload.toPayload userSyncEvent userEvent).items]

attribute [local instance] userLibrary

/-- A user event goes through the wire. -/
theorem events_survive_wire_user :
    EventPayload.fromWire userSyncEvent (EventPayload.toWire userSyncEvent userEvent)
      = some userEvent := by
  have hmem : userSyncEvent ∈ eventClasses := List.mem_cons_of_mem _ (List.mem_cons_self ..)
  exact (events_survive_wire userSyncEvent hmem).round_trip userEvent rfl

/-- The older key of a user is read as well, and is no unexpected one. -/
example : EventPayload.modelValidate userDeleteEvent (.obj [("id", .str "u1")])
    = EventPayload.modelValidate userDeleteEvent (.obj [("uuid", .str "u1")]) := rfl

end User

end Atsig
