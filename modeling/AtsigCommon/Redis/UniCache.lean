import AtsigCommon.Coroutine.Contract
import AtsigCommon.Logger.Context
import AtsigCommon.Python.Values
import AtsigCommon.Redis.Keyspace
import Mathlib.Algebra.Order.Field.Rat

/-!
# The cache of departments

The coroutines of `atsig_common.redis.uni_cache`, as the source writes them, over the commands of
Redis and the questions to UniAPI that they await.  The records of departments, the departments of a
school and the map from departments to universities have keys of their own, and every one of them
expires.

* `Department` — a department as UniAPI gives it: a dictionary with an integer `id`.
* `Lookup` — the four cached lookups.
-/

namespace Atsig

open Coroutine Python

/-! ## What UniAPI gives -/

/-- A department: a dictionary with an `id`, and perhaps a `university_id`, both integers. -/
structure Department where
  items : List (String × Json)
  id : ℤ
  universityId : Option ℤ
  nodup : (items.map Prod.fst).Nodup
  hasId : items.lookup "id" = some (.num id)
  hasUniversity : (items.lookup "university_id").filter Json.truthy
    = universityId.map fun n => .num n

/-- The department as a value. -/
def Department.record (dep : Department) : Json := .obj dep.items

lemma Department.record_truthy (dep : Department) : dep.record.truthy = true := by
  have hid := dep.hasId
  rw [record, Json.truthy]
  cases hitems : dep.items with
  | nil =>
      rw [hitems] at hid
      cases hid
  | cons p items => rfl

/-- The questions that are answered with departments. -/
inductive Listing
  | byIds (ids : List ℤ)
  | byUniversityIds (ids : List ℤ)
  | bySchoolId (schoolId : ℤ)

/-- What the cache awaits. -/
inductive UniCommand
  | redis (c : Keyspace.Command String String ℚ)
  | getDepartment (departmentId : ℤ)
  | getDepartments (listing : Listing)

def UniCommand.Answer : UniCommand → Type
  | .redis c => c.Answer
  | .getDepartment _ => Json
  | .getDepartments _ => List Department

/-- The coroutines share the log; the cache has no state of its own. -/
@[reducible] def uniSig : Signature where
  State := List (Level × String)
  Command := UniCommand
  Answer := UniCommand.Answer
  Raise := Raised

abbrev Uni (α : Type) : Type := Co uniSig α

/-- `logger.<level>(text)` -/
def writeUniLog (level : Level) (text : String) : Uni Unit :=
  .modify fun log => log ++ [(level, text)]

/-- An exception of a plain function. -/
def Uni.ofExcept {α : Type} (x : Except PyException α) : Uni α :=
  Co.ofExcept (S := uniSig) (x.mapError .exception)

@[simp] lemma Uni.ofExcept_ok {α : Type} (a : α) : Uni.ofExcept (.ok a) = Co.ret a := rfl

/-- The server that the cache is on. -/
abbrev UniServer : Type := Keyspace.Server String String ℚ

/-- The reply to a command. -/
def uniReply {α : Type} : Option α → Except Raised α
  | some a => .ok a
  | none => .error (.exception ⟨.responseError, "ResponseError",
      "WRONGTYPE Operation against a key holding the wrong kind of value"⟩)

/-- A command of Redis. -/
def Uni.redis (c : Keyspace.Command String String ℚ) : Uni c.Answer :=
  Co.call (S := uniSig) (.redis c)

/-- `uni_api.get_departments_by_ids` and the other two that answer with departments -/
def UniApi.getDepartments (listing : Listing) : Uni (List Department) :=
  Co.call (S := uniSig) (.getDepartments listing)

/-- `uni_api.get_department` -/
def UniApi.getDepartment (departmentId : ℤ) : Uni Json :=
  Co.call (S := uniSig) (.getDepartment departmentId)

/-- Writing to the log does not await. -/
lemma wp_writeUniLog {G : Type} {C : Contract uniSig G} {φ : Unit → G → uniSig.State → Prop}
    {ψ : Raised → G → uniSig.State → Prop} (level : Level) (text : String) :
    (writeUniLog level text).wp C φ ψ = fun g log => φ () g (log ++ [(level, text)]) := rfl

/-! ## `RedisManager` -/

namespace RedisManager

/-- `get` -/
def get (key : String) : Uni (Option String) := Uni.redis (.get key)

/-- `set` -/
def set (key value : String) (expire : ℚ) : Uni Unit := Uni.redis (.set key value expire)

/-- `expire` -/
def expire (key : String) (expire : ℚ) : Uni Unit := Uni.redis (.expire key expire)

/-- `hgetall` -/
def hgetall (key : String) : Uni (Dict String String) := Uni.redis (.hgetall key)

/-- What the client raises for a mapping without pairs, before it sends anything. -/
def dataError : PyException := ⟨.other, "DataError", "'hset' with no key value pairs"⟩

/-- `hset` -/
def hset (key : String) (mapping : Dict String String) : Uni Unit :=
  if mapping.items.isEmpty then .raise (.exception dataError)
  else Uni.redis (.hset key mapping)

/-- `hdel` -/
def hdel (key : String) (keys : List String) : Uni Unit := Uni.redis (.hdel key keys)

variable [StandardLibrary]

/-- `get_json` -/
def getJson (key : String) : Uni (Option Json) := do
  match ← get key with
  | none => return none
  | some data =>
      if data = "" then return none
      else return some (← Uni.ofExcept (StandardLibrary.loads data))

/-- `set_json` -/
def setJson (key : String) (value : Json) (expire : ℚ) : Uni Unit :=
  set key (StandardLibrary.dumps value) expire

end RedisManager

/-! ## `UniCache` -/

/-- `CACHE_TTL` -/
def cacheTtl : ℚ := 3600

/-- `DEPT_KEY.format(department_id)` -/
def deptKey (departmentId : ℤ) : String := "department:" ++ toString departmentId

/-- `SCHOOL_KEY.format(school_id)` -/
def schoolKey (schoolId : ℤ) : String := "school_departments:" ++ toString schoolId

/-- `UNI_HASH_KEY` -/
def uniHashKey : String := "department_university_map"

/-! The keys do not meet. -/

lemma append_toString_injective (s : String) :
    Function.Injective fun n : ℤ => s ++ toString n := by
  intro m n h
  have hlist : (s ++ toString m).toList = (s ++ toString n).toList := congrArg String.toList h
  rw [String.toList_append, String.toList_append] at hlist
  exact toString_int_injective (String.toList_inj.mp (List.append_cancel_left hlist))

lemma deptKey_injective : Function.Injective deptKey := append_toString_injective _

lemma schoolKey_injective : Function.Injective schoolKey := append_toString_injective _

lemma deptKey_char (n : ℤ) : (deptKey n).toList[10]? = some ':' := by
  have hlist : (deptKey n).toList = "department:".toList ++ (toString n).toList :=
    String.toList_append
  have hlength : 10 < "department:".toList.length := by decide
  rw [hlist, List.getElem?_append_left hlength]
  decide

lemma schoolKey_char (n : ℤ) : (schoolKey n).toList[10]? = some 'a' := by
  have hlist : (schoolKey n).toList = "school_departments:".toList ++ (toString n).toList :=
    String.toList_append
  have hlength : 10 < "school_departments:".toList.length := by decide
  rw [hlist, List.getElem?_append_left hlength]
  decide

lemma uniHashKey_char : uniHashKey.toList[10]? = some '_' := by decide

lemma deptKey_ne_schoolKey (m n : ℤ) : deptKey m ≠ schoolKey n := by
  intro h
  have hchar := deptKey_char m
  rw [h, schoolKey_char] at hchar
  cases hchar

lemma deptKey_ne_uniHashKey (n : ℤ) : deptKey n ≠ uniHashKey := by
  intro h
  have hchar := deptKey_char n
  rw [h, uniHashKey_char] at hchar
  cases hchar

lemma schoolKey_ne_uniHashKey (n : ℤ) : schoolKey n ≠ uniHashKey := by
  intro h
  have hchar := schoolKey_char n
  rw [h, uniHashKey_char] at hchar
  cases hchar

/-- `[dep_id for dep_id, u_id in existing_map.items() if int(u_id) in uni_ids]` -/
def staleIds (uniIds : List ℤ) (existingMap : Dict String String) :
    Except PyException (List String) :=
  comprehendIf (fun _ uId => (parseInt uId).map fun n => decide (n ∈ uniIds))
    (fun depId _ => .ok depId) existingMap.items

/-- `{str(dep["id"]): str(dep["university_id"]) for dep in departments if …}` -/
def universityMapping (departments : List Department) : Dict String String :=
  .ofPairs (departments.filterMap fun dep =>
    dep.universityId.map fun uniId => (toString dep.id, toString uniId))

/-- `update_department_university_map` -/
def updateDepartmentUniversityMap (departments : List Department) : Uni Unit :=
  if departments.isEmpty then return ()
  else do
    writeUniLog .info ("[UniCache] Updating university map for " ++ toString departments.length
      ++ " departments")
    let uniIds := departments.filterMap Department.universityId
    let existingMap ← RedisManager.hgetall uniHashKey
    let toDelete ← Uni.ofExcept (staleIds uniIds existingMap)
    if toDelete.isEmpty = false then
      writeUniLog .debug ("[UniCache] Removing " ++ toString toDelete.length
        ++ " stale mappings from hash")
      RedisManager.hdel uniHashKey toDelete
    RedisManager.hset uniHashKey (universityMapping departments)
    RedisManager.expire uniHashKey cacheTtl
    writeUniLog .info "[UniCache] University map update completed"

section Lookups

variable [StandardLibrary]

/-- The loop over the ids: what is cached, and the ids of what is not. -/
def readDepartments (departments : Dict ℤ Json) (missingIds : List ℤ) :
    List ℤ → Uni (Dict ℤ Json × List ℤ)
  | [] => return (departments, missingIds)
  | depId :: depIds => do
      match (← RedisManager.getJson (deptKey depId)).filter Json.truthy with
      | some data =>
          writeUniLog .info ("[UniCache] Cache HIT for department:" ++ toString depId)
          readDepartments (departments.set depId data) missingIds depIds
      | none =>
          writeUniLog .warning ("[UniCache] Cache MISS for department:" ++ toString depId)
          readDepartments departments (missingIds ++ [depId]) depIds

/-- The loop over what UniAPI has given. -/
def storeDepartments (departments : Dict ℤ Json) : List Department → Uni (Dict ℤ Json)
  | [] => return departments
  | dep :: apiDeps => do
      RedisManager.setJson (deptKey dep.id) dep.record cacheTtl
      storeDepartments (departments.set dep.id dep.record) apiDeps

/-- `get_departments_by_ids_cached` -/
def getDepartmentsByIdsCached (departmentIds : List ℤ) : Uni (Dict ℤ Json) := do
  let (departments, missingIds) ← readDepartments .empty [] departmentIds
  if missingIds.isEmpty then return departments
  else
    writeUniLog .info ("[UniCache] Fetching " ++ toString missingIds.length
      ++ " missing departments from UniAPI...")
    let apiDeps ← UniApi.getDepartments (.byIds missingIds)
    let departments ← storeDepartments departments apiDeps
    writeUniLog .info ("[UniCache] Successfully cached " ++ toString apiDeps.length
      ++ " new departments")
    return departments

/-- `[int(dep_id) for dep_id, u_id in all_dep_map.items() if int(u_id) == uni_id]` -/
def uniDepIds (uniId : ℤ) (allDepMap : Dict String String) : Except PyException (List ℤ) :=
  comprehendIf (fun _ uId => (parseInt uId).map fun n => decide (n = uniId))
    (fun depId _ => parseInt depId) allDepMap.items

/-- The loop over the universities: the departments of those in the map, and the ids of those that
are not. -/
def readUniversities (allDepMap : Dict String String) (departments : Dict ℤ Json)
    (missingUnis : List ℤ) : List ℤ → Uni (Dict ℤ Json × List ℤ)
  | [] => return (departments, missingUnis)
  | uniId :: uniIds => do
      let depIds ← Uni.ofExcept (uniDepIds uniId allDepMap)
      if depIds.isEmpty then
        writeUniLog .warning ("[UniCache] No mapping found in hash for uni:" ++ toString uniId)
        readUniversities allDepMap departments (missingUnis ++ [uniId]) uniIds
      else
        writeUniLog .info ("[UniCache] Found " ++ toString depIds.length
          ++ " departments in hash for uni:" ++ toString uniId)
        let cachedDeps ← getDepartmentsByIdsCached depIds
        readUniversities allDepMap (departments.merge cachedDeps) missingUnis uniIds

/-- `get_departments_by_university_ids_cached` -/
def getDepartmentsByUniversityIdsCached (universityIds : List ℤ) : Uni (Dict ℤ Json) :=
  if universityIds.isEmpty then return .empty
  else do
    writeUniLog .info ("[UniCache] Requesting departments for universities: "
      ++ toString universityIds)
    let allDepMap ← RedisManager.hgetall uniHashKey
    let (departments, missingUnis) ← readUniversities allDepMap .empty [] universityIds
    if missingUnis.isEmpty then return departments
    else
      writeUniLog .warning ("[UniCache] Cache MISS for universities " ++ toString missingUnis
        ++ ". Fetching from API...")
      let apiDepartments ← UniApi.getDepartments (.byUniversityIds missingUnis)
      let departments ← storeDepartments departments apiDepartments
      updateDepartmentUniversityMap apiDepartments
      return departments

/-- `len(cached_data)` -/
def cachedLength : Json → Except PyException ℕ
  | .obj items => .ok items.length
  | .arr items => .ok items.length
  | .str s => .ok s.length
  | _ => .error ⟨.typeError, "TypeError", "object has no len()"⟩

/-- `{int(dep_id): dep for dep_id, dep in cached_data.items()}` -/
def schoolDepartments : Json → Except PyException (Dict ℤ Json)
  | .obj items => (items.mapM fun p => (parseInt p.1).map fun n => (n, p.2)).map .ofPairs
  | _ => .error ⟨.other, "AttributeError", "object has no attribute 'items'"⟩

/-- What `json.dumps` makes of the keys: they become texts. -/
def departmentMapJson (departmentMap : Dict ℤ Json) : Json :=
  .obj (departmentMap.items.map fun p => (toString p.1, p.2))

/-- `{int(dep["id"]): dep for dep in school_departments}` -/
def departmentMap (departments : List Department) : Dict ℤ Json :=
  .ofPairs (departments.map fun dep => (dep.id, dep.record))

/-- `get_departments_by_school_id_cached` -/
def getDepartmentsBySchoolIdCached (schoolId : ℤ) : Uni (Dict ℤ Json) := do
  match (← RedisManager.getJson (schoolKey schoolId)).filter Json.truthy with
  | some cachedData =>
      let length ← Uni.ofExcept (cachedLength cachedData)
      writeUniLog .info ("[UniCache] Cache HIT for school:" ++ toString schoolId ++ " (found "
        ++ toString length ++ " depts)")
      Uni.ofExcept (schoolDepartments cachedData)
  | none =>
      writeUniLog .warning ("[UniCache] Cache MISS for school:" ++ toString schoolId
        ++ ". Fetching from API...")
      let departments ← UniApi.getDepartments (.bySchoolId schoolId)
      RedisManager.setJson (schoolKey schoolId) (departmentMapJson (departmentMap departments))
        cacheTtl
      writeUniLog .info ("[UniCache] Successfully cached "
        ++ toString (departmentMap departments).items.length ++ " departments for school:"
        ++ toString schoolId)
      return departmentMap departments

/-- `except Exception as e`: a cancellation passes through. -/
def Uni.exceptException {α : Type} (x : Uni α) (handler : PyException → Uni α) : Uni α :=
  x.protect fun
    | .exception e => handler e
    | .cancelled => .raise .cancelled

/-- `get_department_by_id_cached` -/
def getDepartmentByIdCached (departmentId : ℤ) : Uni (Option Json) := do
  match (← RedisManager.getJson (deptKey departmentId)).filter Json.truthy with
  | some depData =>
      writeUniLog .info ("[UniCache] Cache HIT for department:" ++ toString departmentId)
      return some depData
  | none =>
      writeUniLog .warning ("[UniCache] Cache MISS for department:" ++ toString departmentId
        ++ ". Fetching from API...")
      Uni.exceptException
        (do
          let depData ← UniApi.getDepartment departmentId
          if depData.truthy then
            RedisManager.setJson (deptKey departmentId) depData cacheTtl
            writeUniLog .info ("[UniCache] Successfully cached department:"
              ++ toString departmentId)
            return some depData
          else
            writeUniLog .error ("[UniCache] Department:" ++ toString departmentId
              ++ " not found in UniAPI")
            return none)
        fun e => do
          writeUniLog .error ("[UniCache] Failed to fetch department:" ++ toString departmentId
            ++ " from API: " ++ e.text)
          return none

end Lookups

/-! ## Lookups -/

/-- The cached lookups. -/
inductive Lookup
  | departments (listing : Listing)
  | department (departmentId : ℤ)

/-- What they give. -/
inductive Found
  | departments (found : Dict ℤ Json)
  | department (found : Option Json)

/-- The coroutine of a lookup. -/
def Lookup.run [StandardLibrary] : Lookup → Uni Found
  | .departments (.byIds departmentIds) => do
      return .departments (← getDepartmentsByIdsCached departmentIds)
  | .departments (.byUniversityIds universityIds) => do
      return .departments (← getDepartmentsByUniversityIdsCached universityIds)
  | .departments (.bySchoolId schoolId) => do
      return .departments (← getDepartmentsBySchoolIdCached schoolId)
  | .department departmentId => do
      return .department (← getDepartmentByIdCached departmentId)

end Atsig
