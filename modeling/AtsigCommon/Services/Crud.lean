import Mathlib.Logic.Function.Basic
import AtsigCommon.Python.Values

/-!
# The CRUD engine

`create` and `update` of `CRUDBaseService` take the values of a row as a dictionary or as a schema
object, and `exclude` names fields that are not to be written.  The dictionary of the caller lives
in a store, so that writing to it would be seen; the session gets the rows.

* `CRUDBaseService.create`, `CRUDBaseService.update` — over any model, session and schema.
* `SameWork` — what passing the values in the one or the other way has in common.
* `same_work_iff` — when it has.
-/

namespace Atsig

open Python

/-! ## Rows, dictionaries and the session -/

/-- What `getattr` gives for each name; nothing where `hasattr` is false. -/
abbrev Attributes (V : Type) := String → Option V

/-- What is done to a row. -/
inductive Effect (V : Type)
  | construct (row : ℕ) (kwargs : Attributes V)
  | setattr (row : ℕ) (field : String) (value : V)

/-- The field is written. -/
def Effect.Writes {V : Type} : Effect V → String → Prop
  | .construct _ kwargs, field => (kwargs field).isSome
  | .setattr _ field' _, field => field' = field

/-- The objects of the model, and those that the session was given. -/
structure Rows (V : Type) where
  objects : List (Attributes V)
  added : List ℕ

/-- The dictionaries, the rows, and what was done to the rows so far. -/
structure CrudWorld (V : Type) where
  dicts : List (Dict String V)
  rows : Rows V
  effects : List (Effect V)

/-- A step of the engine: it may raise, and what it did until then stays done. -/
abbrev CrudM (V : Type) := ExceptT PyException (StateM (CrudWorld V))

/-- The model: the names of its attributes, the attributes of an object to which no value was
given, and its constructor. -/
structure ModelClass (V : Type) where
  hasAttribute : String → Bool
  fresh : Attributes V
  init : Dict String V → Except PyException (Attributes V)

/-- The declarative constructor: it sets what it is given by name, and refuses a name that is no
attribute of the class. -/
structure ModelClass.Declarative {V : Type} (model : ModelClass V) : Prop where
  accepts : ∀ kwargs, (∀ k, (kwargs.get? k).isSome → model.hasAttribute k) →
    model.init kwargs = .ok fun field => (kwargs.get? field).or (model.fresh field)
  refuses : ∀ kwargs k, (kwargs.get? k).isSome → ¬ model.hasAttribute k →
    ∃ e, model.init kwargs = .error e

/-- `flush` and `refresh` of the session: both see the rows, and no dictionary. -/
structure AsyncSession (V : Type) where
  flush : Rows V → Except PyException Unit × Rows V
  refresh : ℕ → Rows V → Except PyException Unit × Rows V

/-- The session reads back what it stored. -/
structure AsyncSession.Keeps {V : Type} (session : AsyncSession V) : Prop where
  flush : ∀ rows, (session.flush rows).2.objects = rows.objects
  refresh : ∀ row rows, (session.refresh row rows).2.objects = rows.objects

section Engine

variable {V : Type}

/-- The dictionary that a name stands for. -/
def readDict (ref : ℕ) : CrudM V (Dict String V) := do
  return ((← get).dicts[ref]?).getD Dict.empty

/-- `dict(d)` -/
def copyDict (d : Dict String V) : CrudM V ℕ := do
  let w ← get
  set { w with dicts := w.dicts ++ [d] }
  return w.dicts.length

/-- `for field in exclude: d.pop(field, None)` -/
def popAll (ref : ℕ) : List String → CrudM V Unit
  | [] => pure ()
  | field :: exclude => do
      modify fun w => { w with dicts := w.dicts.modify ref fun d => d.erase [field] }
      popAll ref exclude

/-- `update_data = dict(obj_in)`, without the fields of `exclude`. -/
def copyWithout (ref : ℕ) (exclude : Option (List String)) : CrudM V (Dict String V) := do
  let updateData ← copyDict (← readDict ref)
  if exclude.any fun fields => !fields.isEmpty then
    popAll updateData (exclude.getD [])
  readDict updateData

/-- `hasattr(db_obj, field)` -/
def hasattr (row : ℕ) (field : String) : CrudM V Bool := do
  return (((← get).rows.objects[row]?).bind fun obj => obj field).isSome

/-- `setattr(db_obj, field, value)` -/
def setattr (row : ℕ) (field : String) (value : V) : CrudM V Unit :=
  modify fun w =>
    { w with
      rows := { w.rows with
        objects := w.rows.objects.modify row fun obj => Function.update obj field (some value) }
      effects := w.effects ++ [Effect.setattr row field value] }

/-- `for field in update_data: if hasattr(db_obj, field): setattr(...)` -/
def assignAll (row : ℕ) : List (String × V) → CrudM V Unit
  | [] => pure ()
  | (field, value) :: items => do
      if ← hasattr row field then
        setattr row field value
      assignAll row items

/-- `self.model(**kwargs)` -/
def construct (model : ModelClass V) (kwargs : Dict String V) : CrudM V ℕ := do
  let obj ← ExceptT.mk (pure (model.init kwargs))
  let w ← get
  let row := w.rows.objects.length
  set { w with
    rows := { w.rows with objects := w.rows.objects ++ [obj] }
    effects := w.effects ++ [Effect.construct row kwargs.get?] }
  return row

/-- A call of the session. -/
def onRows (f : Rows V → Except PyException Unit × Rows V) : CrudM V Unit :=
  fun w => ((f w.rows).1, { w with rows := (f w.rows).2 })

/-- `session.add(db_obj)` -/
def sessionAdd (row : ℕ) : CrudM V Unit :=
  modify fun w => { w with rows := { w.rows with added := w.rows.added ++ [row] } }

/-- `obj_in`: a dictionary of the caller, or a schema object. -/
inductive ObjIn (S : Type)
  | dict (ref : ℕ)
  | schema (s : S)

variable {S : Type}

/-- `model_dump`, with what `exclude_unset` and `exclude` are. -/
abbrev ModelDump (S V : Type) := S → Bool → Option (List String) → Dict String V

/-- The schema object holds these values, and all its fields are set. -/
def Dumps (modelDump : ModelDump S V) (s : S) (d : Dict String V) : Prop :=
  ∀ excludeUnset exclude, modelDump s excludeUnset exclude = d.erase (exclude.getD [])

variable (model : ModelClass V) (session : AsyncSession V) (modelDump : ModelDump S V)

/-- `await session.flush(); await session.refresh(db_obj); return db_obj` -/
def flushAndRefresh (row : ℕ) : CrudM V ℕ := do
  onRows session.flush
  onRows (session.refresh row)
  return row

/-- `create` of `CRUDBaseService` -/
def CRUDBaseService.create (objIn : ObjIn S) (exclude : Option (List String))
    (extraData : Dict String V) : CrudM V ℕ := do
  let data ← match objIn with
    | .dict ref => readDict ref
    | .schema s => pure (modelDump s false exclude)
  let finalData := data.merge extraData
  let dbObj ← construct model finalData
  sessionAdd dbObj
  flushAndRefresh session dbObj

/-- `update` of `CRUDBaseService` -/
def CRUDBaseService.update (dbObj : ℕ) (objIn : ObjIn S) (exclude : Option (List String)) :
    CrudM V ℕ := do
  let updateData ← match objIn with
    | .dict ref => copyWithout ref exclude
    | .schema s => pure (modelDump s true exclude)
  assignAll dbObj updateData.items
  flushAndRefresh session dbObj

/-! ## What the two ways have in common -/

/-- **Both ways do the same work**, for a row with these values: the same object is built or the
same assignments are made, with the same result, where two refusals count as the same.
No field of `exclude` is written unless the extra data names it, and none that is in neither; when
the session reads back what it stored, every other field has the value it had, or for a new row the
default of the class.  The dictionary of the caller is what it was. -/
structure SameWork (before : CrudWorld V) (caller : ℕ) (d extra : Dict String V)
    (exclude : List String) (viaDict viaSchema : Except PyException ℕ × CrudWorld V) : Prop where
  result : viaDict.1.toOption = viaSchema.1.toOption
  rows : viaDict.2.rows = viaSchema.2.rows
  effects : ∃ es, viaDict.2.effects = before.effects ++ es
    ∧ viaSchema.2.effects = before.effects ++ es
    ∧ ∀ e ∈ es, ∀ field, e.Writes field →
      (field ∈ exclude → (extra.get? field).isSome)
      ∧ ((d.get? field).isSome ∨ (extra.get? field).isSome)
  kept : session.Keeps → ∀ (row : ℕ) (obj : Attributes V),
    viaDict.2.rows.objects[row]? = some obj →
    ∀ field, d.get? field = none → extra.get? field = none →
    ((before.rows.objects ++ [model.fresh])[row]?).map (fun o : Attributes V => o field)
      = some (obj field)
  caller : viaDict.2.dicts[caller]? = some d

/-! ## What each step does -/

lemma bind_of_ok {α β : Type} {x : CrudM V α} {f : α → CrudM V β} {w w' : CrudWorld V} {a : α}
    (h : x w = (.ok a, w')) : (x >>= f) w = f a w' := by
  show (ExceptT.bindCont f (x w).1 : StateM (CrudWorld V) _) (x w).2 = _
  rw [h]
  rfl

lemma bind_of_error {α β : Type} {x : CrudM V α} {f : α → CrudM V β} {w w' : CrudWorld V}
    {e : PyException} (h : x w = (.error e, w')) : (x >>= f) w = (.error e, w') := by
  show (ExceptT.bindCont f (x w).1 : StateM (CrudWorld V) _) (x w).2 = _
  rw [h]
  rfl

lemma Dict.erase_nil (d : Dict String V) : d.erase [] = d := by
  refine Dict.ext ?_
  simp [Dict.erase]

lemma popAll_run (ref : ℕ) : ∀ (exclude : List String) (w : CrudWorld V),
    popAll ref exclude w
      = (.ok (), { w with dicts := w.dicts.modify ref fun d => d.erase exclude })
  | [], w => by
      have herase : (fun d : Dict String V => d.erase []) = id := funext Dict.erase_nil
      show ((.ok (), w) : Except PyException Unit × CrudWorld V) = _
      rw [herase, List.modify_id]
  | field :: exclude, w => by
      have hstep : popAll ref (field :: exclude) w
          = popAll ref exclude
              { w with dicts := w.dicts.modify ref fun d => d.erase [field] } := rfl
      have herase : (fun d : Dict String V => d.erase exclude)
          ∘ (fun d : Dict String V => d.erase [field])
          = fun d => d.erase (field :: exclude) := by
        funext d
        refine Dict.ext ?_
        simp only [Dict.erase, Function.comp, List.filter_filter, List.mem_cons, not_or,
          List.not_mem_nil, not_false_eq_true, and_true, Bool.decide_and]
        exact List.filter_congr fun p _ => Bool.and_comm _ _
      rw [hstep, popAll_run ref exclude]
      dsimp only
      rw [List.modify_modify_eq, herase]

/-- One field of a row that has it. -/
def assignField (obj : Attributes V) (item : String × V) : Attributes V :=
  if (obj item.1).isSome then Function.update obj item.1 (some item.2) else obj

/-- The assignments that are made to a row, for the fields that it has. -/
def assignments (row : ℕ) (objects : List (Attributes V)) (items : List (String × V)) :
    List (Effect V) :=
  (items.filter fun item => ((objects[row]?).bind fun obj => obj item.1).isSome).map
    fun item => .setattr row item.1 item.2

lemma isSome_assignField (obj : Attributes V) (item : String × V) (field : String) :
    (assignField obj item field).isSome = (obj field).isSome := by
  rw [assignField]
  split_ifs with h
  · by_cases hf : field = item.1
    · subst hf
      rw [Function.update_self, h]
      rfl
    · rw [Function.update_of_ne hf]
  · rfl

/-- A row keeps the fields that it has, and gets no others. -/
lemma assignments_modify (row : ℕ) (objects : List (Attributes V)) (item : String × V)
    (items : List (String × V)) :
    assignments row (objects.modify row fun obj => assignField obj item) items
      = assignments row objects items := by
  have hfield : ∀ field : String,
      (((objects.modify row fun obj => assignField obj item)[row]?).bind
        fun obj => obj field).isSome = ((objects[row]?).bind fun obj => obj field).isSome := by
    intro field
    rw [List.getElem?_modify_eq]
    cases objects[row]? with
    | none => rfl
    | some obj => exact isSome_assignField obj item field
  simp only [assignments, hfield]

lemma modify_congr {α : Type} {f g : α → α} {i : ℕ} {l : List α}
    (h : ∀ a, l[i]? = some a → f a = g a) : l.modify i f = l.modify i g := by
  refine List.ext_getElem? fun j => ?_
  rw [List.getElem?_modify, List.getElem?_modify]
  by_cases hij : i = j
  · subst hij
    cases hl : l[i]? with
    | none => rfl
    | some a => simp [h a hl]
  · simp [hij]

lemma modify_concat {α : Type} (f : α → α) (a : α) : ∀ l : List α,
    (l ++ [a]).modify l.length f = l ++ [f a]
  | [] => rfl
  | b :: l => by
      rw [List.cons_append, List.length_cons, List.modify_succ_cons, modify_concat f a l,
        List.cons_append]

lemma setattr_run (row : ℕ) (field : String) (value : V) (w : CrudWorld V) :
    setattr row field value w = (.ok (), { w with
      rows := { w.rows with
        objects := w.rows.objects.modify row fun obj => Function.update obj field (some value) }
      effects := w.effects ++ [.setattr row field value] }) := rfl

lemma assignAll_run (row : ℕ) : ∀ (items : List (String × V)) (w : CrudWorld V),
    assignAll row items w
      = (.ok (), { w with
          rows := { w.rows with
            objects := w.rows.objects.modify row fun obj => items.foldl assignField obj }
          effects := w.effects ++ assignments row w.rows.objects items })
  | [], w => by
      have hid : (fun obj : Attributes V => ([] : List (String × V)).foldl assignField obj) = id :=
        rfl
      show ((.ok (), w) : Except PyException Unit × CrudWorld V) = _
      rw [hid, List.modify_id, assignments, List.filter_nil, List.map_nil, List.append_nil]
  | (field, value) :: items, w => by
      have hobj : (w.rows.objects.modify row fun obj =>
          ((field, value) :: items).foldl assignField obj)
          = (w.rows.objects.modify row fun obj => assignField obj (field, value)).modify row
            fun obj => items.foldl assignField obj := by
        rw [List.modify_modify_eq]
        rfl
      have hhas : hasattr row field w
          = (.ok (((w.rows.objects)[row]?).bind fun obj => obj field).isSome, w) := rfl
      rw [hobj, assignAll, bind_of_ok hhas]
      by_cases h : (((w.rows.objects)[row]?).bind fun obj => obj field).isSome = true
      · -- the row has the field: one assignment, and the rest
        have hset : w.rows.objects.modify row (fun obj => Function.update obj field (some value))
            = w.rows.objects.modify row fun obj => assignField obj (field, value) := by
          refine modify_congr fun obj hobj => ?_
          rw [hobj, Option.bind_some] at h
          exact (if_pos h).symm
        have hitems : assignments row w.rows.objects ((field, value) :: items)
            = .setattr row field value :: assignments row w.rows.objects items := by
          rw [assignments, List.filter_cons_of_pos (by exact h), List.map_cons]
          rfl
        rw [if_pos h, bind_of_ok (setattr_run row field value w)]
        show assignAll row items _ = _
        rw [assignAll_run row items]
        dsimp only
        rw [hset, assignments_modify, hitems, List.append_assoc, List.singleton_append]
      · have hset : w.rows.objects.modify row (fun obj => assignField obj (field, value))
            = w.rows.objects := by
          refine (modify_congr fun obj hobj => ?_).trans (List.modify_id row _)
          rw [hobj, Option.bind_some] at h
          exact if_neg h
        have hitems : assignments row w.rows.objects ((field, value) :: items)
            = assignments row w.rows.objects items := by
          rw [assignments, List.filter_cons_of_neg (by exact h)]
          rfl
        rw [if_neg h]
        show assignAll row items w = _
        rw [assignAll_run row items, hset, hitems]

/-- What flushing and refreshing make of the rows. -/
def AsyncSession.save (row : ℕ) (rows : Rows V) : Except PyException ℕ × Rows V :=
  match (session.flush rows).1 with
  | .error e => (.error e, (session.flush rows).2)
  | .ok () =>
    ((session.refresh row (session.flush rows).2).1.map fun _ => row,
      (session.refresh row (session.flush rows).2).2)

/-- Flushing and refreshing see the rows alone. -/
lemma flushAndRefresh_run (row : ℕ) (w : CrudWorld V) : flushAndRefresh session row w
    = ((session.save row w.rows).1, { w with rows := (session.save row w.rows).2 }) := by
  rw [flushAndRefresh, AsyncSession.save]
  cases hflush : (session.flush w.rows).1 with
  | error e =>
      have hrun : onRows session.flush w
          = (.error e, { w with rows := (session.flush w.rows).2 }) := by
        rw [← hflush]
        rfl
      rw [bind_of_error hrun]
  | ok u =>
      have hrun : onRows session.flush w
          = (.ok u, { w with rows := (session.flush w.rows).2 }) := by
        rw [← hflush]
        rfl
      rw [bind_of_ok hrun]
      cases hrefresh : (session.refresh row (session.flush w.rows).2).1 with
      | error e =>
          have hrun' : onRows (session.refresh row) { w with rows := (session.flush w.rows).2 }
              = (.error e, { w with
                  rows := (session.refresh row (session.flush w.rows).2).2 }) := by
            rw [← hrefresh]
            rfl
          exact bind_of_error hrun'
      | ok u' =>
          have hrun' : onRows (session.refresh row) { w with rows := (session.flush w.rows).2 }
              = (.ok u', { w with
                  rows := (session.refresh row (session.flush w.rows).2).2 }) := by
            rw [← hrefresh]
            rfl
          exact bind_of_ok hrun'

omit model modelDump in
variable {session} in
lemma AsyncSession.Keeps.save (hkeeps : session.Keeps) (row : ℕ) (rows : Rows V) :
    (session.save row rows).2.objects = rows.objects := by
  rw [AsyncSession.save]
  split
  · exact hkeeps.flush rows
  · exact (hkeeps.refresh row _).trans (hkeeps.flush rows)

/-- What `update` does with the values once it has them. -/
def updateFrom (dbObj : ℕ) (updateData : Dict String V) : CrudM V ℕ := do
  assignAll dbObj updateData.items
  flushAndRefresh session dbObj

/-- What `create` does with the values once it has them. -/
def createFrom (data extraData : Dict String V) : CrudM V ℕ := do
  let dbObj ← construct model (data.merge extraData)
  sessionAdd dbObj
  flushAndRefresh session dbObj

section Paths

variable {modelDump} {s : S} {d : Dict String V} {ref : ℕ} {w : CrudWorld V}

lemma create_schema (hdump : Dumps modelDump s d) (exclude : Option (List String))
    (extraData : Dict String V) :
    CRUDBaseService.create model session modelDump (.schema s) exclude extraData w
      = createFrom model session (d.erase (exclude.getD [])) extraData w := by
  rw [← hdump false exclude]
  rfl

lemma create_dict (hcaller : w.dicts[ref]? = some d) (exclude : Option (List String))
    (extraData : Dict String V) :
    CRUDBaseService.create model session modelDump (.dict ref) exclude extraData w
      = createFrom model session d extraData w := by
  have hread : readDict ref w = (.ok d, w) := by
    show (Except.ok ((w.dicts[ref]?).getD Dict.empty), w) = _
    rw [hcaller, Option.getD_some]
  exact bind_of_ok hread

lemma update_schema (hdump : Dumps modelDump s d) (dbObj : ℕ) (exclude : Option (List String)) :
    CRUDBaseService.update session modelDump dbObj (.schema s) exclude w
      = updateFrom session dbObj (d.erase (exclude.getD [])) w := by
  rw [← hdump true exclude]
  rfl

lemma update_dict (hcaller : w.dicts[ref]? = some d) (dbObj : ℕ)
    (exclude : Option (List String)) :
    CRUDBaseService.update session modelDump dbObj (.dict ref) exclude w
      = updateFrom session dbObj (d.erase (exclude.getD []))
          { w with dicts := w.dicts ++ [d.erase (exclude.getD [])] } := by
  have hread : readDict ref w = (.ok d, w) := by
    show (Except.ok ((w.dicts[ref]?).getD Dict.empty), w) = _
    rw [hcaller, Option.getD_some]
  have hcopy : copyDict d w = (.ok w.dicts.length, { w with dicts := w.dicts ++ [d] }) := rfl
  have hback : readDict w.dicts.length
      { w with dicts := w.dicts ++ [d.erase (exclude.getD [])] }
      = (.ok (d.erase (exclude.getD [])),
        { w with dicts := w.dicts ++ [d.erase (exclude.getD [])] }) := by
    show (Except.ok (((w.dicts ++ [d.erase (exclude.getD [])])[w.dicts.length]?).getD Dict.empty),
      _) = _
    rw [List.getElem?_concat_length, Option.getD_some]
  have hdata : copyWithout ref exclude w
      = (.ok (d.erase (exclude.getD [])),
        { w with dicts := w.dicts ++ [d.erase (exclude.getD [])] }) := by
    refine (bind_of_ok hread).trans ((bind_of_ok hcopy).trans ?_)
    by_cases hempty : (exclude.any fun fields => !fields.isEmpty) = true
    · have hpop : popAll w.dicts.length (exclude.getD []) { w with dicts := w.dicts ++ [d] }
          = (.ok (), { w with dicts := w.dicts ++ [d.erase (exclude.getD [])] }) := by
        rw [popAll_run]
        dsimp only
        rw [modify_concat]
      rw [if_pos hempty]
      exact (bind_of_ok hpop).trans hback
    · have hnone : exclude.getD [] = [] := by
        cases exclude with
        | none => rfl
        | some fields =>
            cases fields with
            | nil => rfl
            | cons field fields => exact absurd rfl hempty
      rw [if_neg hempty]
      rw [hnone, Dict.erase_nil] at hback ⊢
      exact hback
  exact bind_of_ok hdata

end Paths

lemma updateFrom_run (dbObj : ℕ) (data : Dict String V) (w : CrudWorld V) (rows : Rows V)
    (hrows : rows = { w.rows with
      objects := w.rows.objects.modify dbObj fun obj => data.items.foldl assignField obj }) :
    updateFrom session dbObj data w
      = ((session.save dbObj rows).1, { w with
          rows := (session.save dbObj rows).2
          effects := w.effects ++ assignments dbObj w.rows.objects data.items }) := by
  subst hrows
  exact (bind_of_ok (assignAll_run dbObj data.items w)).trans (flushAndRefresh_run session _ _)

lemma createFrom_refused {data extraData : Dict String V} {e : PyException}
    (h : model.init (data.merge extraData) = .error e) (w : CrudWorld V) :
    createFrom model session data extraData w = (.error e, w) := by
  refine bind_of_error (bind_of_error ?_)
  rw [h]
  rfl

lemma createFrom_accepted {data extraData : Dict String V} {obj : Attributes V}
    (h : model.init (data.merge extraData) = .ok obj) (w : CrudWorld V) (rows : Rows V)
    (hrows : rows = ⟨w.rows.objects ++ [obj], w.rows.added ++ [w.rows.objects.length]⟩) :
    createFrom model session data extraData w
      = ((session.save w.rows.objects.length rows).1, { w with
          rows := (session.save w.rows.objects.length rows).2
          effects := w.effects
            ++ [.construct w.rows.objects.length (data.merge extraData).get?] }) := by
  subst hrows
  have hinit : (ExceptT.mk (pure (model.init (data.merge extraData))) : CrudM V _) w
      = (.ok obj, w) := by
    rw [h]
    rfl
  have hconstruct : construct model (data.merge extraData) w
      = (.ok w.rows.objects.length, { w with
          rows := { w.rows with objects := w.rows.objects ++ [obj] }
          effects := w.effects
            ++ [.construct w.rows.objects.length (data.merge extraData).get?] }) :=
    bind_of_ok hinit
  refine (bind_of_ok hconstruct).trans ?_
  exact (bind_of_ok rfl).trans (flushAndRefresh_run session _ _)

/-! ## When they do the same work -/

section Agreement

variable {model} {session} {modelDump} {s : S} {d : Dict String V} {ref : ℕ} {w : CrudWorld V}

lemma foldl_assignField_of_notMem {field : String} : ∀ {items : List (String × V)}
    {obj : Attributes V}, field ∉ items.map Prod.fst → items.foldl assignField obj field = obj field
  | [], _, _ => rfl
  | item :: items, obj, h => by
      rw [List.map_cons, List.mem_cons, not_or] at h
      rw [List.foldl_cons, foldl_assignField_of_notMem h.2, assignField]
      split_ifs
      · exact Function.update_of_ne h.1 _ _
      · rfl

lemma get?_isSome_iff {d : Dict String V} {k : String} :
    (d.get? k).isSome ↔ k ∈ d.items.map Prod.fst := by
  rw [Option.isSome_iff_exists]
  constructor
  · rintro ⟨v, hv⟩
    exact List.mem_map_of_mem (Dict.get?_eq_some_iff.mp hv)
  · intro h
    obtain ⟨⟨k', v⟩, hmem, rfl⟩ := List.mem_map.mp h
    exact ⟨v, Dict.get?_eq_some_iff.mpr hmem⟩

/-- `update` leaves out what is excluded on both ways. -/
lemma update_same_work (hdump : Dumps modelDump s d) (hcaller : w.dicts[ref]? = some d)
    (dbObj : ℕ) (exclude : Option (List String)) :
    SameWork model session w ref d Dict.empty (exclude.getD [])
      (CRUDBaseService.update session modelDump dbObj (.dict ref) exclude w)
      (CRUDBaseService.update session modelDump dbObj (.schema s) exclude w) := by
  rw [update_schema session hdump, update_dict session hcaller]
  set data := d.erase (exclude.getD []) with hdata
  set rows : Rows V := { w.rows with
    objects := w.rows.objects.modify dbObj fun obj => data.items.foldl assignField obj } with hrows
  rw [updateFrom_run session dbObj data w rows hrows,
    updateFrom_run session dbObj data { w with dicts := w.dicts ++ [data] } rows hrows]
  have hkey : ∀ field, field ∈ data.items.map Prod.fst →
      field ∉ exclude.getD [] ∧ (d.get? field).isSome := by
    intro field hmem
    rw [← get?_isSome_iff, hdata, Dict.get?_erase] at hmem
    split_ifs at hmem with hex
    · exact absurd hmem (by simp)
    · exact ⟨hex, hmem⟩
  refine ⟨rfl, rfl, ⟨assignments dbObj w.rows.objects data.items, rfl, rfl, ?_⟩, ?_, ?_⟩
  · intro e he field hwrites
    rw [assignments, List.mem_map] at he
    obtain ⟨item, hitem, rfl⟩ := he
    have hfield : item.1 = field := hwrites
    subst hfield
    have h := hkey item.1 (List.mem_map_of_mem (List.mem_of_mem_filter hitem))
    exact ⟨fun hex => absurd hex h.1, .inl h.2⟩
  · intro hkeeps row obj hobj field hd _
    have hnot : field ∉ data.items.map Prod.fst := by
      intro hmem
      have hsome := (hkey field hmem).2
      rw [hd] at hsome
      cases hsome
    have hobj' : rows.objects[row]? = some obj := by
      rw [← hkeeps.save dbObj rows]
      exact hobj
    rw [hrows] at hobj'
    dsimp only at hobj'
    rw [List.getElem?_modify] at hobj'
    cases hold : w.rows.objects[row]? with
    | none =>
        rw [hold] at hobj'
        cases hobj'
    | some old =>
        rw [List.getElem?_append_left (List.getElem?_eq_some_iff.mp hold).1, hold]
        rw [hold] at hobj'
        have hold' := Option.some.inj hobj'
        rw [← hold', Option.map_some]
        split_ifs
        · exact congrArg some (foldl_assignField_of_notMem hnot).symm
        · rfl
  · dsimp only
    rw [List.getElem?_append_left (List.getElem?_eq_some_iff.mp hcaller).1, hcaller]

/-- The fields of `exclude` that the dictionary has are all named by the extra data; or the model
refuses the other values anyway, for a name that is no attribute. -/
def CreateIgnoresExclude (model : ModelClass V) (d extra : Dict String V) (exclude : List String) :
    Prop :=
  (∀ field ∈ exclude, (d.get? field).isSome → (extra.get? field).isSome)
  ∨ ∃ field, (((d.erase exclude).merge extra).get? field).isSome ∧ ¬ model.hasAttribute field

lemma merge_isSome_iff {d extra : Dict String V} {field : String} :
    ((d.merge extra).get? field).isSome
      ↔ (d.get? field).isSome ∨ (extra.get? field).isSome := by
  rw [Dict.get?_merge, Option.isSome_or, Bool.or_eq_true, or_comm]

/-- Nothing that is excluded is left in the values: they are the same. -/
lemma merge_erase_get? {d extra : Dict String V} {exclude : List String}
    (h : ∀ field ∈ exclude, (d.get? field).isSome → (extra.get? field).isSome) (field : String) :
    (d.merge extra).get? field = ((d.erase exclude).merge extra).get? field := by
  rw [Dict.get?_merge, Dict.get?_merge, Dict.get?_erase]
  split_ifs with hex
  · cases hextra : extra.get? field with
    | some v => rfl
    | none =>
        cases hd : d.get? field with
        | none => rfl
        | some v =>
            have hsome := h field hex (by rw [hd]; rfl)
            rw [hextra] at hsome
            cases hsome
  · rfl

/-- Both ways are refused. -/
lemma create_refused_same_work {d' : Dict String V} {extra : Dict String V}
    {exclude : List String} {e e' : PyException}
    (hdict : model.init (d.merge extra) = .error e)
    (hschema : model.init (d'.merge extra) = .error e') (hcaller : w.dicts[ref]? = some d) :
    SameWork model session w ref d extra exclude (createFrom model session d extra w)
      (createFrom model session d' extra w) := by
  rw [createFrom_refused model session hdict, createFrom_refused model session hschema]
  refine ⟨rfl, rfl, ⟨[], (List.append_nil _).symm, (List.append_nil _).symm, nofun⟩, ?_, hcaller⟩
  intro _ row obj hobj field _ _
  dsimp only at hobj
  rw [List.getElem?_append_left (List.getElem?_eq_some_iff.mp hobj).1, hobj]
  rfl

/-- Both ways build the same object. -/
lemma create_accepted_same_work (hmodel : model.Declarative) {extra : Dict String V}
    {exclude : List String}
    (hattr : ∀ k, (((d.erase exclude).merge extra).get? k).isSome → model.hasAttribute k)
    (hnamed : ∀ field ∈ exclude, (d.get? field).isSome → (extra.get? field).isSome)
    (hcaller : w.dicts[ref]? = some d) :
    SameWork model session w ref d extra exclude (createFrom model session d extra w)
      (createFrom model session (d.erase exclude) extra w) := by
  have hget := merge_erase_get? hnamed
  have hfun : (d.merge extra).get? = ((d.erase exclude).merge extra).get? := funext hget
  have hschema := hmodel.accepts _ hattr
  have hdict := hmodel.accepts (d.merge extra) fun k hk => hattr k (by rw [← hget]; exact hk)
  rw [hfun] at hdict
  set obj : Attributes V := fun field =>
    (((d.erase exclude).merge extra).get? field).or (model.fresh field) with hobj
  rw [createFrom_accepted model session hdict w _ rfl,
    createFrom_accepted model session hschema w _ rfl, hfun]
  refine ⟨rfl, rfl, ⟨[_], rfl, rfl, ?_⟩, ?_, hcaller⟩
  · intro e he field hwrites
    rw [List.mem_singleton] at he
    subst he
    have hkey : ((d.merge extra).get? field).isSome := by
      rw [hfun]
      exact hwrites
    have hor := merge_isSome_iff.mp hkey
    refine ⟨fun hex => ?_, hor⟩
    rcases hor with hd | hextra
    · exact hnamed field hex hd
    · exact hextra
  · intro hkeeps row o ho field hd hextra
    dsimp only at ho
    rw [hkeeps.save] at ho
    dsimp only at ho
    -- the new row is the last one; every other one is as before
    by_cases hlt : row < w.rows.objects.length
    · rw [List.getElem?_append_left hlt] at ho ⊢
      rw [ho]
      rfl
    · have hlast : row = w.rows.objects.length := by
        have hbound := (List.getElem?_eq_some_iff.mp ho).1
        rw [List.length_append, List.length_singleton] at hbound
        omega
      subst hlast
      rw [List.getElem?_concat_length] at ho ⊢
      have hnone : ((d.erase exclude).merge extra).get? field = none := by
        rw [← hget, Dict.get?_merge, hextra, hd]
        rfl
      rw [← Option.some.inj ho, Option.map_some, hobj]
      dsimp only
      rw [hnone, Option.none_or]

/-- `create` does the same work on both ways only if the dictionary has nothing to leave out, or
nothing is created at all. -/
lemma create_same_work_iff (hmodel : model.Declarative) (hdump : Dumps modelDump s d)
    (hcaller : w.dicts[ref]? = some d) (exclude : Option (List String)) (extra : Dict String V) :
    SameWork model session w ref d extra (exclude.getD [])
      (CRUDBaseService.create model session modelDump (.dict ref) exclude extra w)
      (CRUDBaseService.create model session modelDump (.schema s) exclude extra w)
    ↔ CreateIgnoresExclude model d extra (exclude.getD []) := by
  rw [create_schema model session hdump, create_dict model session hcaller]
  set ex := exclude.getD []
  by_cases hbad : ∃ k, (((d.erase ex).merge extra).get? k).isSome ∧ ¬ model.hasAttribute k
  · refine ⟨fun _ => .inr hbad, fun _ => ?_⟩
    obtain ⟨k, hk, hnot⟩ := hbad
    have hk' : ((d.merge extra).get? k).isSome := by
      rw [merge_isSome_iff, Dict.get?_erase] at hk
      rw [merge_isSome_iff]
      split_ifs at hk
      · exact hk.imp (fun h => absurd h (by simp)) id
      · exact hk
    obtain ⟨e', hschema⟩ := hmodel.refuses _ k hk hnot
    obtain ⟨e, hdict⟩ := hmodel.refuses _ k hk' hnot
    exact create_refused_same_work hdict hschema hcaller
  · have hattr : ∀ k, (((d.erase ex).merge extra).get? k).isSome → model.hasAttribute k :=
      fun k hk => by_contra fun hnot => hbad ⟨k, hk, hnot⟩
    refine ⟨fun hsame => .inl ?_, fun h => ?_⟩
    · intro field hex hd
      have hschema := createFrom_accepted model session (hmodel.accepts _ hattr) w _ rfl
      obtain ⟨es, hdict, hes, hwrites⟩ := hsame.effects
      rw [hschema] at hes
      have hsingle := List.append_cancel_left hes
      cases hinit : model.init (d.merge extra) with
      | error e =>
          -- the dictionary is refused and the schema is not
          rw [createFrom_refused model session hinit, ← hsingle] at hdict
          have hlength := congrArg List.length hdict
          simp at hlength
      | ok obj =>
          -- what is excluded is written
          rw [createFrom_accepted model session hinit w _ rfl] at hdict
          have hsingle' := List.append_cancel_left hdict
          refine (hwrites _ (hsingle' ▸ List.mem_singleton_self _) field ?_).1 hex
          show ((d.merge extra).get? field).isSome
          exact merge_isSome_iff.mpr (.inl hd)
    · exact create_accepted_same_work hmodel hattr (h.resolve_right hbad) hcaller

/-- **When the two ways do the same work.**  `update` always does.  `create` takes a dictionary as
it is, so it does exactly when the dictionary has no field of `exclude` that the extra data does not
name, or when the other values are refused anyway. -/
theorem same_work_iff (hmodel : model.Declarative) (hdump : Dumps modelDump s d)
    (hcaller : w.dicts[ref]? = some d) (dbObj : ℕ) (exclude : Option (List String))
    (extra : Dict String V) :
    SameWork model session w ref d Dict.empty (exclude.getD [])
      (CRUDBaseService.update session modelDump dbObj (.dict ref) exclude w)
      (CRUDBaseService.update session modelDump dbObj (.schema s) exclude w)
    ∧ (SameWork model session w ref d extra (exclude.getD [])
        (CRUDBaseService.create model session modelDump (.dict ref) exclude extra w)
        (CRUDBaseService.create model session modelDump (.schema s) exclude extra w)
      ↔ CreateIgnoresExclude model d extra (exclude.getD [])) :=
  ⟨update_same_work hdump hcaller dbObj exclude,
    create_same_work_iff hmodel hdump hcaller exclude extra⟩

end Agreement

end Engine

/-! ## A row with an id -/

/-- A table with an id and a name. -/
def personModel : ModelClass ℕ where
  hasAttribute field := ["id", "name"].contains field
  fresh field := if ["id", "name"].contains field then some 0 else none
  init kwargs :=
    if kwargs.items.all fun item => ["id", "name"].contains item.1 then
      .ok fun field =>
        (kwargs.get? field).or (if ["id", "name"].contains field then some 0 else none)
    else .error ⟨.typeError, "TypeError", "invalid keyword argument for Person"⟩

lemma personModel_declarative : personModel.Declarative where
  accepts kwargs h := by
    refine if_pos (List.all_eq_true.mpr fun item hitem => ?_)
    exact h item.1 (get?_isSome_iff.mpr (List.mem_map_of_mem hitem))
  refuses kwargs k hk hnot := by
    refine ⟨_, if_neg fun hall => hnot ?_⟩
    obtain ⟨item, hitem, rfl⟩ := List.mem_map.mp (get?_isSome_iff.mp hk)
    exact List.all_eq_true.mp hall item hitem

/-- A session that stores nothing. -/
def fakeSession : AsyncSession ℕ where
  flush rows := (.ok (), rows)
  refresh _ rows := (.ok (), rows)

/-- A schema object that has all its fields set. -/
def dumpValues : ModelDump (Dict String ℕ) ℕ := fun s _ exclude => s.erase (exclude.getD [])

/-- A row that is there, and the values that a caller passes. -/
def personValues : Dict String ℕ := Dict.ofPairs [("id", 7), ("name", 1)]

def personWorld : CrudWorld ℕ := ⟨[personValues], ⟨[personModel.fresh], [0]⟩, []⟩

/-- The id is given by the extra data as well. -/
theorem same_work_person :
    SameWork personModel fakeSession personWorld 0 personValues Dict.empty ["id"]
      (CRUDBaseService.update fakeSession dumpValues 0 (.dict 0) (some ["id"]) personWorld)
      (CRUDBaseService.update fakeSession dumpValues 0 (.schema personValues) (some ["id"])
        personWorld)
    ∧ (SameWork personModel fakeSession personWorld 0 personValues (Dict.ofPairs [("id", 3)])
        ["id"] (CRUDBaseService.create personModel fakeSession dumpValues (.dict 0) (some ["id"])
          (Dict.ofPairs [("id", 3)]) personWorld)
        (CRUDBaseService.create personModel fakeSession dumpValues (.schema personValues)
          (some ["id"]) (Dict.ofPairs [("id", 3)]) personWorld)
      ↔ CreateIgnoresExclude personModel personValues (Dict.ofPairs [("id", 3)]) ["id"]) :=
  same_work_iff personModel_declarative (fun _ _ => rfl) rfl 0 (some ["id"])
    (Dict.ofPairs [("id", 3)])

/-- **An excluded id is written when it comes in a dictionary.** -/
theorem create_writes_excluded :
    (∃ e ∈ (CRUDBaseService.create personModel fakeSession dumpValues (.dict 0) (some ["id"])
        Dict.empty personWorld).2.effects, e.Writes "id")
    ∧ ¬ SameWork personModel fakeSession personWorld 0 personValues Dict.empty ["id"]
        (CRUDBaseService.create personModel fakeSession dumpValues (.dict 0) (some ["id"])
          Dict.empty personWorld)
        (CRUDBaseService.create personModel fakeSession dumpValues (.schema personValues)
          (some ["id"]) Dict.empty personWorld) := by
  have heffects : (CRUDBaseService.create personModel fakeSession dumpValues (.dict 0)
      (some ["id"]) Dict.empty personWorld).2.effects
      = [.construct 1 (personValues.merge Dict.empty).get?] := rfl
  have hwrites : (Effect.construct 1 (personValues.merge Dict.empty).get?).Writes "id" := rfl
  refine ⟨⟨_, heffects ▸ List.mem_singleton_self _, hwrites⟩, fun hsame => ?_⟩
  obtain ⟨es, hdict, -, hall⟩ := hsame.effects
  have hes : [.construct 1 (personValues.merge Dict.empty).get?] = es := heffects ▸ hdict
  have hnamed := (hall _ (hes ▸ List.mem_singleton_self _) "id" hwrites).1
    (List.mem_singleton_self _)
  exact absurd hnamed (by decide)

end Atsig
