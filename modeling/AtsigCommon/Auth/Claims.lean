import AtsigCommon.Auth.Groups
import AtsigCommon.Python.Decoded

/-!
# The claims of a token

What `get_auth` and `build_auth_context` make of the payload of a valid token.  The checks ask
whether the claims are there; the values are whatever JSON the token has, so the groups are tested
and walked through as Python does it with any value.

* `validateUserGroupsAny`, `TokenContext.hasGroup` — the scope check and the roles over any claim.
* `validateUserGroupsAny_texts`, `hasGroup_texts` — over texts they are those of `Auth.Groups`.
* `claims_refused_iff` — when a token is refused and never fails.
-/

namespace Atsig

open Python Uri

/-! ## Reading the claims -/

/-- `HTTPException` -/
structure HTTPException where
  statusCode : ℕ
  detail : String
  headers : List (String × String)
  deriving DecidableEq, Repr

/-- What a dependency raises: an answer of the service, or anything else, which becomes a 500. -/
inductive DependencyError
  | http (e : HTTPException)
  | failure (e : PyException)
  deriving DecidableEq, Repr

/-- `_unauthorized` -/
def unauthorized (detail : String) : HTTPException :=
  ⟨401, detail, [("WWW-Authenticate", "Bearer")]⟩

/-- `user_group == required or user_group.startswith(f"{required}/")` -/
def coversAny (required : String) : Decoded → Except PyException Bool
  | .str userGroup => .ok (covers required userGroup)
  | _ => .error (attributeError "startswith")

/-- `validate_user_groups`, for groups of any type. -/
def validateUserGroupsAny (userGroups : Decoded) (requiredScopes superGroups : List String) :
    Except PyException Bool := do
  if ← anyOf (fun group => userGroups.contains group) superGroups then
    return true
  if requiredScopes = [] then
    return true
  anyOf (fun required => do anyOf (coversAny required) (← userGroups.iterate)) requiredScopes

/-- The payload of a token. -/
abbrev TokenPayload := Dict String Decoded

/-- `payload.get(claim, default)` -/
def TokenPayload.getD (payload : TokenPayload) (claim : String) (default : Decoded) : Decoded :=
  (payload.get? claim).getD default

/-- A context as `build_auth_context` makes it: nothing checks the types of the claims. -/
structure TokenContext where
  sub : Decoded
  email : Decoded
  groups : Decoded
  givenName : Decoded
  familyName : Decoded
  departmentId : Option ℤ

/-- `has_group` -/
def TokenContext.hasGroup (ctx : TokenContext) (suffix : GroupEnum) : Except PyException Bool := do
  anyOf (coversAny suffix.value) (← ctx.groups.iterate)

/-- `REQUIRED_CLAIMS` -/
def requiredClaims : List String := ["sub", "email", "groups"]

section Dependencies

variable [UnicodeData]

/-- `str(values)` for a list of texts. -/
def reprList (values : List String) : String :=
  "[" ++ ", ".intercalate (values.map UnicodeData.repr) ++ "]"

/-- `get_auth` -/
def getAuth (scopes : List String) (payload : TokenPayload) :
    Except DependencyError TokenPayload := do
  let isValid ← (validateUserGroupsAny (payload.getD "groups" (.arr [])) scopes
    superGroups).mapError .failure
  if !isValid then
    throw (.http ⟨403, "User not in required group(s): " ++ reprList scopes,
      [("WWW-Authenticate", "Bearer")]⟩)
  return payload

/-- `int(raw_department_id) if raw_department_id else None` -/
def rawDepartmentId (payload : TokenPayload) : Except PyException (Option ℤ) :=
  let raw := payload.getD "department_id" .null
  if raw.truthy then raw.toInt.map some else .ok none

/-- `[claim for claim in REQUIRED_CLAIMS if claim not in payload]` -/
def missingClaims (payload : TokenPayload) : List String :=
  requiredClaims.filter fun claim => (payload.get? claim).isNone

/-- The `department_id`: what `int` refuses is a 401 when strict, and no id otherwise. -/
def readDepartmentId (strict : Bool) (payload : TokenPayload) :
    Except DependencyError (Option ℤ) :=
  match rawDepartmentId payload with
  | .ok departmentId => .ok departmentId
  | .error e =>
    if isTypeOrValueError e then
      if strict then .error (.http (unauthorized "Token has an invalid department_id claim"))
      else .ok none
    else .error (.failure e)

/-- `build_auth_context` -/
def buildAuthContext (strict : Bool) (payload : TokenPayload) :
    Except DependencyError TokenContext := do
  if strict && !(missingClaims payload).isEmpty then
    throw (.http (unauthorized
      ("Token is missing required claim(s): " ++ ", ".intercalate (missingClaims payload))))
  let departmentId ← readDepartmentId strict payload
  return {
    sub := payload.getD "sub" (.str "")
    email := payload.getD "email" (.str "")
    groups := payload.getD "groups" (.arr [])
    givenName := payload.getD "given_name" (.str "")
    familyName := payload.getD "family_name" (.str "")
    departmentId }

end Dependencies

/-! ## The role properties -/

section Roles

variable (ctx : TokenContext)

/-- `a or b` for two properties. -/
def orElse (a b : Except PyException Bool) : Except PyException Bool := do
  if ← a then
    return true
  b

/-- `is_admin` -/
def TokenContext.isAdmin : Except PyException Bool := ctx.hasGroup .admin

/-- `is_department_secretary` -/
def TokenContext.isDepartmentSecretary : Except PyException Bool :=
  ctx.hasGroup .departmentSecretary

/-- `is_program_secretary` -/
def TokenContext.isProgramSecretary : Except PyException Bool := ctx.hasGroup .programSecretary

/-- `is_secretary` -/
def TokenContext.isSecretary : Except PyException Bool :=
  orElse ctx.isProgramSecretary ctx.isDepartmentSecretary

/-- `is_evaluator` -/
def TokenContext.isEvaluator : Except PyException Bool := ctx.hasGroup .evaluator

/-- `is_applicant` -/
def TokenContext.isApplicant : Except PyException Bool := ctx.hasGroup .applicant

/-- `is_child_agent` -/
def TokenContext.isChildAgent : Except PyException Bool := ctx.hasGroup .childAgent

/-- `is_parent_agent` -/
def TokenContext.isParentAgent : Except PyException Bool := ctx.hasGroup .parentAgent

/-- `is_agent` -/
def TokenContext.isAgent : Except PyException Bool := orElse ctx.isParentAgent ctx.isChildAgent

/-- All role properties. -/
def TokenContext.roles : List (Except PyException Bool) :=
  [ctx.isAdmin, ctx.isSecretary, ctx.isDepartmentSecretary, ctx.isProgramSecretary,
    ctx.isEvaluator, ctx.isApplicant, ctx.isAgent, ctx.isChildAgent, ctx.isParentAgent]

/-- The groups that a role property asks for. -/
def roleGroups : List GroupEnum :=
  [.admin, .departmentSecretary, .programSecretary, .evaluator, .applicant, .childAgent,
    .parentAgent]

end Roles

/-! ## Groups that are texts -/

lemma anyOf_coversAny_texts (required : String) (groups : List String) :
    anyOf (coversAny required) (groups.map .str)
      = .ok (groups.any fun userGroup => covers required userGroup) := by
  rw [anyOf_map]
  exact anyOf_of_ok fun _ _ => rfl

/-- Over texts, the scope check is `validate_user_groups`. -/
theorem validateUserGroupsAny_texts (groups scopes superGroups : List String) :
    validateUserGroupsAny (.arr (groups.map .str)) scopes superGroups
      = .ok (validateUserGroups groups scopes superGroups) := by
  have hsuper : anyOf (fun group => (Decoded.arr (groups.map .str)).contains group) superGroups
      = .ok (superGroups.any fun group => groups.contains group) := by
    refine anyOf_of_ok fun group _ => ?_
    show Except.ok ((groups.map Decoded.str).any (Decoded.isText group)) = _
    rw [List.any_map, List.contains_eq_any_beq]
    refine congrArg Except.ok (congrArg groups.any (funext fun g => Bool.eq_iff_iff.mpr ?_))
    rw [Function.comp, Decoded.isText, decide_eq_true_eq, beq_iff_eq, eq_comm]
  have hscopes : anyOf (fun required => do
        anyOf (coversAny required) (← (Decoded.arr (groups.map .str)).iterate)) scopes
      = .ok (scopes.any fun required => groups.any fun userGroup => covers required userGroup) :=
    anyOf_of_ok fun required _ => anyOf_coversAny_texts required groups
  rw [validateUserGroupsAny, hsuper, validateUserGroups]
  by_cases hany : (superGroups.any fun group => groups.contains group) = true
  · rw [if_pos hany, hany]
    rfl
  · rw [if_neg hany, Bool.eq_false_iff.mpr hany]
    by_cases hnone : scopes = []
    · rw [if_pos hnone]
      subst hnone
      rfl
    · rw [if_neg hnone]
      exact hscopes.trans (by rw [if_neg hnone])

/-- Over texts, a role is the one of `BaseAuthContext`. -/
theorem hasGroup_texts (ctx : TokenContext) (groups : List String)
    (hgroups : ctx.groups = .arr (groups.map .str)) (suffix : GroupEnum) :
    ctx.hasGroup suffix = .ok ((BaseAuthContext.mk groups).hasGroup suffix) := by
  rw [TokenContext.hasGroup, hgroups]
  exact anyOf_coversAny_texts suffix.value groups

/-! ## When nothing fails -/

/-- Every item that is not a text comes after a group at or below the required one. -/
def ReadableFor (required : String) (items : List Decoded) : Prop :=
  ∀ before item after, items = before ++ item :: after → (∀ s, item ≠ .str s) →
    ∃ s, .str s ∈ before ∧ covers required s

/-- The groups are a list, a text or an object, in which the super group is or the first scope is
met before anything that is not a text. -/
def ScopesReadable (groups : Decoded) (scopes : List String) : Prop :=
  ∃ items, groups.iterate = .ok items
    ∧ (groups.contains GroupEnum.admin.value = .ok true
      ∨ ∀ required, scopes.head? = some required → ReadableFor required items)

/-- The groups are a list, a text or an object, in which every role is met before anything that is
not a text. -/
def RolesReadable (groups : Decoded) : Prop :=
  ∃ items, groups.iterate = .ok items ∧ ∀ group ∈ roleGroups, ReadableFor group.value items

lemma coversAny_error_iff (required : String) {item : Decoded} :
    (∃ e, coversAny required item = .error e) ↔ ∀ s, item ≠ .str s := by
  cases item with
  | str s => exact iff_of_false nofun fun h => h s rfl
  | _ => exact iff_of_true ⟨_, rfl⟩ nofun

lemma coversAny_true_iff {required : String} {item : Decoded} :
    coversAny required item = .ok true ↔ ∃ s, item = .str s ∧ covers required s := by
  cases item with
  | str s =>
      rw [coversAny, Except.ok.injEq]
      exact ⟨fun h => ⟨s, rfl, h⟩, by rintro ⟨_, hs, h⟩; cases hs; exact h⟩
  | _ => exact iff_of_false nofun (by rintro ⟨_, hs, -⟩; cases hs)

/-- The walk along the groups raises nothing. -/
lemma anyOf_coversAny_ok_iff (required : String) (items : List Decoded) :
    (∃ b, anyOf (coversAny required) items = .ok b) ↔ ReadableFor required items := by
  rw [anyOf_ok_iff]
  have hhit : ∀ before : List Decoded, (∃ item ∈ before, coversAny required item = .ok true)
      ↔ ∃ s, .str s ∈ before ∧ covers required s := by
    intro before
    constructor
    · rintro ⟨item, hitem, htrue⟩
      obtain ⟨s, rfl, hs⟩ := coversAny_true_iff.mp htrue
      exact ⟨s, hitem, hs⟩
    · rintro ⟨s, hmem, hs⟩
      exact ⟨_, hmem, coversAny_true_iff.mpr ⟨s, rfl, hs⟩⟩
  constructor
  · intro h before item after hitems hitem
    exact (hhit before).mp (h before item after hitems ((coversAny_error_iff required).mpr hitem))
  · intro h before item after hitems hitem
    exact (hhit before).mpr (h before item after hitems ((coversAny_error_iff required).mp hitem))

/-- After the walk for the first scope, the others raise nothing either. -/
lemma anyOf_scopes_ok_iff (items : List Decoded) (scopes : List String) :
    (∃ b, anyOf (fun required => anyOf (coversAny required) items) scopes = .ok b)
      ↔ ∀ required, scopes.head? = some required → ReadableFor required items := by
  cases scopes with
  | nil => exact iff_of_true ⟨false, rfl⟩ nofun
  | cons first rest =>
      have hhead : (∀ required, (first :: rest).head? = some required →
          ReadableFor required items) ↔ ReadableFor first items :=
        ⟨fun h => h first rfl, fun h required hr => Option.some.inj hr ▸ h⟩
      rw [hhead, ← anyOf_coversAny_ok_iff]
      cases hfirst : anyOf (coversAny first) items with
      | error e =>
          rw [anyOf_cons_error (by exact hfirst)]
      | ok hit =>
          cases hit with
          | true =>
              rw [anyOf_cons_true (by exact hfirst)]
          | false =>
              -- no hit for the first scope: every item was asked, so every item is a text
              rw [anyOf_cons_false (by exact hfirst)]
              refine iff_of_true ?_ ⟨_, rfl⟩
              have htext : ∀ item ∈ items, ∃ s, item = .str s := by
                intro item hitem
                by_contra hnot
                obtain ⟨e, he⟩ := (coversAny_error_iff first).mpr
                  (not_exists.mp hnot)
                rw [anyOf_false hfirst item hitem] at he
                cases he
              have hreadable : ∀ required, ReadableFor required items := by
                intro required before item after hitems hitem
                obtain ⟨s, hs⟩ := htext item (hitems ▸ List.mem_append_right _
                  (List.mem_cons_self ..))
                exact absurd hs (hitem s)
              rw [anyOf_ok_iff]
              intro before required after _ herror
              obtain ⟨b, hb⟩ := (anyOf_coversAny_ok_iff required items).mpr (hreadable required)
              obtain ⟨e, he⟩ := herror
              exact absurd (hb.symm.trans he) nofun

/-- The scope check raises nothing. -/
lemma validateUserGroupsAny_ok_iff (groups : Decoded) (scopes : List String) :
    (∃ b, validateUserGroupsAny groups scopes superGroups = .ok b)
      ↔ ScopesReadable groups scopes := by
  cases hiterate : groups.iterate with
  | error e =>
      have hcontains : ∀ b, groups.contains GroupEnum.admin.value ≠ .ok b := by
        intro b hb
        obtain ⟨items, hitems⟩ := (groups.contains_ok_iff _).mp ⟨b, hb⟩
        rw [hiterate] at hitems
        cases hitems
      cases hc : groups.contains GroupEnum.admin.value with
      | ok b => exact absurd hc (hcontains b)
      | error e' =>
          rw [validateUserGroupsAny, superGroups, anyOf_cons_error (by exact hc)]
          refine iff_of_false (by rintro ⟨b, hb⟩; cases hb) ?_
          rintro ⟨items, hitems, -⟩
          rw [hiterate] at hitems
          cases hitems
  | ok items =>
      obtain ⟨hit, hc⟩ := (groups.contains_ok_iff GroupEnum.admin.value).mpr ⟨items, hiterate⟩
      have hwalk : (∃ b, anyOf (fun required => do anyOf (coversAny required) (← groups.iterate))
          scopes = .ok b) ↔ ∀ required, scopes.head? = some required →
            ReadableFor required items := by
        rw [← anyOf_scopes_ok_iff, hiterate]
        exact Iff.rfl
      have hreadable : ScopesReadable groups scopes ↔ hit = true
          ∨ ∀ required, scopes.head? = some required → ReadableFor required items := by
        rw [ScopesReadable, hc, Except.ok.injEq]
        constructor
        · rintro ⟨items', hitems', h⟩
          rw [hiterate] at hitems'
          cases hitems'
          exact h
        · exact fun h => ⟨items, hiterate, h⟩
      rw [hreadable, validateUserGroupsAny, superGroups]
      cases hit with
      | true =>
          rw [anyOf_cons_true (by exact hc)]
          exact iff_of_true ⟨true, rfl⟩ (.inl rfl)
      | false =>
          rw [anyOf_cons_false (by exact hc)]
          show (∃ b, (if scopes = [] then _ else _) = _) ↔ _
          by_cases hnone : scopes = []
          · rw [if_pos hnone]
            subst hnone
            exact iff_of_true ⟨true, rfl⟩ (.inr fun required hr => by cases hr)
          · rw [if_neg hnone]
            exact hwalk.trans ⟨.inr, fun h => h.resolve_left Bool.false_ne_true⟩

lemma hasGroup_ok_iff (ctx : TokenContext) (suffix : GroupEnum) :
    (∃ b, ctx.hasGroup suffix = .ok b)
      ↔ ∃ items, ctx.groups.iterate = .ok items ∧ ReadableFor suffix.value items := by
  rw [TokenContext.hasGroup]
  cases hiterate : ctx.groups.iterate with
  | error e => exact iff_of_false nofun nofun
  | ok items =>
      refine (anyOf_coversAny_ok_iff suffix.value items).trans ⟨fun h => ⟨items, rfl, h⟩, ?_⟩
      rintro ⟨items', hitems', h⟩
      cases hitems'
      exact h

lemma orElse_ok {a b : Except PyException Bool} (ha : ∃ x, a = .ok x) (hb : ∃ y, b = .ok y) :
    ∃ z, orElse a b = .ok z := by
  obtain ⟨x, rfl⟩ := ha
  cases x with
  | true => exact ⟨true, rfl⟩
  | false => exact hb

lemma hasGroup_mem_roles (ctx : TokenContext) {group : GroupEnum} (h : group ∈ roleGroups) :
    ctx.hasGroup group ∈ ctx.roles := by
  simp only [roleGroups, List.mem_cons, List.not_mem_nil, or_false] at h
  rcases h with rfl | rfl | rfl | rfl | rfl | rfl | rfl
  all_goals simp [TokenContext.roles, TokenContext.isAdmin, TokenContext.isDepartmentSecretary,
    TokenContext.isProgramSecretary, TokenContext.isEvaluator, TokenContext.isApplicant,
    TokenContext.isChildAgent, TokenContext.isParentAgent]

/-- Every role property can be evaluated. -/
lemma roles_ok_iff (ctx : TokenContext) :
    (∀ r ∈ ctx.roles, ∃ b, r = .ok b) ↔ RolesReadable ctx.groups := by
  have hgroups : (∀ r ∈ ctx.roles, ∃ b, r = .ok b)
      ↔ ∀ group ∈ roleGroups, ∃ b, ctx.hasGroup group = .ok b := by
    constructor
    · exact fun h group hgroup => h _ (hasGroup_mem_roles ctx hgroup)
    · intro h
      have hdep := h .departmentSecretary (by decide)
      have hprog := h .programSecretary (by decide)
      have hchild := h .childAgent (by decide)
      have hparent := h .parentAgent (by decide)
      intro r hr
      simp only [TokenContext.roles, List.mem_cons, List.not_mem_nil, or_false] at hr
      rcases hr with rfl | rfl | rfl | rfl | rfl | rfl | rfl | rfl | rfl
      · exact h .admin (by decide)
      · exact orElse_ok hprog hdep
      · exact hdep
      · exact hprog
      · exact h .evaluator (by decide)
      · exact h .applicant (by decide)
      · exact orElse_ok hparent hchild
      · exact hchild
      · exact hparent
  rw [hgroups]
  simp only [hasGroup_ok_iff]
  constructor
  · intro h
    obtain ⟨items, hitems, -⟩ := h .admin (by decide)
    refine ⟨items, hitems, fun group hgroup => ?_⟩
    obtain ⟨items', hitems', hread⟩ := h group hgroup
    rw [hitems] at hitems'
    cases hitems'
    exact hread
  · rintro ⟨items, hitems, h⟩ group hgroup
    exact ⟨items, hitems, h group hgroup⟩

/-! ## When a token is refused and never fails -/

section Refusal

variable [UnicodeData] (scopes : List String) (payload : TokenPayload)

/-- The payload, or a 403 or 401. -/
def AuthAnswers : Prop :=
  getAuth scopes payload = .ok payload
    ∨ ∃ e, getAuth scopes payload = .error (.http e) ∧ (e.statusCode = 403 ∨ e.statusCode = 401)

/-- A 401, or a context on which every role property can be evaluated; its `department_id` is an
int or `None` by its type. -/
def ContextAnswers : Prop :=
  (∃ e, buildAuthContext true payload = .error (.http e) ∧ e.statusCode = 401)
    ∨ ∃ ctx, buildAuthContext true payload = .ok ctx ∧ ∀ r ∈ ctx.roles, ∃ b, r = .ok b

/-- A required claim is missing; or the `department_id` is not infinite, and `int` refuses it or the
roles can be read. -/
def ContextReadable : Prop :=
  (∃ claim ∈ requiredClaims, payload.get? claim = none)
    ∨ (∀ negative, payload.getD "department_id" .null ≠ .float (.infinite negative))
      ∧ ((payload.getD "department_id" .null).truthy
            ∧ (∃ e, (payload.getD "department_id" .null).toInt = .error e)
          ∨ RolesReadable (payload.getD "groups" (.arr [])))

lemma authAnswers_iff :
    AuthAnswers scopes payload ↔ ScopesReadable (payload.getD "groups" (.arr [])) scopes := by
  rw [← validateUserGroupsAny_ok_iff, AuthAnswers, getAuth]
  cases hvalid : validateUserGroupsAny (payload.getD "groups" (.arr [])) scopes superGroups with
  | error e =>
      refine iff_of_false ?_ nofun
      rintro (h | ⟨e', h, -⟩)
      · cases h
      · cases h
  | ok isValid =>
      cases isValid with
      | true => exact iff_of_true (.inl rfl) ⟨_, rfl⟩
      | false => exact iff_of_true (.inr ⟨_, rfl, .inl rfl⟩) ⟨_, rfl⟩

lemma rawDepartmentId_error {e : PyException} : rawDepartmentId payload = .error e
    ↔ (payload.getD "department_id" .null).truthy
      ∧ (payload.getD "department_id" .null).toInt = .error e := by
  rw [rawDepartmentId]
  generalize payload.getD "department_id" .null = raw
  by_cases htruthy : raw.truthy = true
  · rw [if_pos htruthy]
    cases raw.toInt with
    | error e' =>
        rw [and_iff_right htruthy, Except.map, Except.error.injEq, Except.error.injEq]
    | ok n => exact iff_of_false nofun fun h => nomatch h.2
  · rw [if_neg htruthy]
    exact iff_of_false nofun fun h => htruthy h.1

/-- A claim is missing: a 401. -/
lemma buildAuthContext_missing (h : ∃ claim ∈ requiredClaims, payload.get? claim = none) :
    buildAuthContext true payload = .error (.http (unauthorized
      ("Token is missing required claim(s): " ++ ", ".intercalate (missingClaims payload)))) := by
  obtain ⟨claim, hmem, hnone⟩ := h
  have hmissing : claim ∈ missingClaims payload :=
    List.mem_filter.mpr ⟨hmem, by rw [hnone]; rfl⟩
  have hempty : (missingClaims payload).isEmpty = false := by
    cases hm : missingClaims payload with
    | nil => exact absurd (hm ▸ hmissing) List.not_mem_nil
    | cons c cs => rfl
  rw [buildAuthContext, hempty, if_pos (by rfl)]
  rfl

/-- All claims are there: what is left is the `department_id`. -/
lemma buildAuthContext_present (h : ¬ ∃ claim ∈ requiredClaims, payload.get? claim = none) :
    (∀ {e}, readDepartmentId true payload = .error e → buildAuthContext true payload = .error e)
    ∧ ∀ {d}, readDepartmentId true payload = .ok d → ∃ ctx, buildAuthContext true payload = .ok ctx
      ∧ ctx.groups = payload.getD "groups" (.arr []) := by
  have hmissing : missingClaims payload = [] := by
    refine List.filter_eq_nil_iff.mpr fun claim hmem hnone => h ⟨claim, hmem, ?_⟩
    exact Option.isNone_iff_eq_none.mp hnone
  constructor
  · intro e he
    rw [buildAuthContext, hmissing, if_neg (by decide), he]
    rfl
  · intro d hd
    rw [buildAuthContext, hmissing, if_neg (by decide), hd]
    exact ⟨_, rfl, rfl⟩

/-- The `department_id` can not be read: the token is refused, if the exception is caught. -/
lemma contextAnswers_iff_of_error (hmissing : ¬ ∃ claim ∈ requiredClaims, payload.get? claim = none)
    {e : PyException} (hraw : rawDepartmentId payload = .error e) :
    ContextAnswers payload ↔ ContextReadable payload := by
  obtain ⟨herror, -⟩ := buildAuthContext_present payload hmissing
  obtain ⟨htruthy, hint⟩ := (rawDepartmentId_error payload).mp hraw
  have hkind := Decoded.toInt_error hint
  by_cases htype : isTypeOrValueError e = true
  · have hread : readDepartmentId true payload
        = .error (.http (unauthorized "Token has an invalid department_id claim")) := by
      rw [readDepartmentId, hraw]
      dsimp only
      rw [if_pos htype, if_pos rfl]
    exact iff_of_true (.inl ⟨_, herror hread, rfl⟩)
      (.inr ⟨hkind.mp htype, .inl ⟨htruthy, e, hint⟩⟩)
  · have hread : readDepartmentId true payload = .error (.failure e) := by
      rw [readDepartmentId, hraw]
      dsimp only
      rw [if_neg htype]
    have hbuild := herror hread
    refine iff_of_false ?_ ?_
    · rintro (⟨e', h, -⟩ | ⟨ctx, h, -⟩)
      · rw [hbuild] at h
        cases h
      · rw [hbuild] at h
        cases h
    · rintro (h | ⟨hfinite, -⟩)
      · exact hmissing h
      · exact htype (hkind.mpr hfinite)

/-- The `department_id` is read: the context is built, and its roles are what remains. -/
lemma contextAnswers_iff_of_ok (hmissing : ¬ ∃ claim ∈ requiredClaims, payload.get? claim = none)
    {d : Option ℤ} (hraw : rawDepartmentId payload = .ok d) :
    ContextAnswers payload ↔ ContextReadable payload := by
  obtain ⟨-, hok⟩ := buildAuthContext_present payload hmissing
  have hread : readDepartmentId true payload = .ok d := by
    rw [readDepartmentId, hraw]
  obtain ⟨ctx, hbuild, hgroups⟩ := hok hread
  have hint : ¬ ((payload.getD "department_id" .null).truthy
      ∧ ∃ e, (payload.getD "department_id" .null).toInt = .error e) := by
    rintro ⟨htruthy, e, he⟩
    rw [(rawDepartmentId_error payload).mpr ⟨htruthy, he⟩] at hraw
    cases hraw
  have hfinite : ∀ negative,
      payload.getD "department_id" .null ≠ .float (.infinite negative) := by
    intro negative h
    rw [h] at hint
    exact hint ⟨rfl, _, rfl⟩
  rw [ContextAnswers, ContextReadable, ← hgroups, ← roles_ok_iff]
  constructor
  · rintro (⟨e, h, -⟩ | ⟨ctx', h, hroles⟩)
    · rw [hbuild] at h
      cases h
    · rw [hbuild] at h
      cases h
      exact .inr ⟨hfinite, .inr hroles⟩
  · rintro (h | ⟨-, h | hroles⟩)
    · exact absurd h hmissing
    · exact absurd h hint
    · exact .inr ⟨ctx, hbuild, hroles⟩

lemma contextAnswers_iff : ContextAnswers payload ↔ ContextReadable payload := by
  by_cases hmissing : ∃ claim ∈ requiredClaims, payload.get? claim = none
  · exact iff_of_true (.inl ⟨_, buildAuthContext_missing payload hmissing, rfl⟩) (.inl hmissing)
  · cases hraw : rawDepartmentId payload with
    | error e => exact contextAnswers_iff_of_error payload hmissing hraw
    | ok d => exact contextAnswers_iff_of_ok payload hmissing hraw

/-- **When a token is refused and never fails.**  `get_auth` gives the payload or a 403 exactly
when the groups are a list, a text or an object with the super group in it, or where the first
scope is met before anything that is not a text.  The context is built or refused with a 401 exactly
when a required claim is missing, or the `department_id` is not infinite and either `int` refuses it
or every role can be read from the groups. -/
theorem claims_refused_iff :
    (AuthAnswers scopes payload ↔ ScopesReadable (payload.getD "groups" (.arr [])) scopes)
    ∧ (ContextAnswers payload ↔ ContextReadable payload) :=
  ⟨authAnswers_iff scopes payload, contextAnswers_iff payload⟩

end Refusal

/-! ## Three malformed tokens -/

section Malformed

/-- ASCII texts. -/
@[reducible] def asciiData : UnicodeData where
  decimal c := if c.isDigit then some (c.toNat - '0'.toNat) else none
  isSpace c := c.isWhitespace
  repr s := "'" ++ s ++ "'"

attribute [local instance] asciiData

/-- The claims of a user, with these groups and this department. -/
def userPayload (groups departmentId : Decoded) : TokenPayload :=
  Dict.ofPairs [("sub", .str "u"), ("email", .str "u@gr"), ("groups", groups),
    ("department_id", departmentId)]

/-- **Malformed claims fail**: groups that are null in the scope check, a number among the groups
in the scope check and in a role, and an infinite `department_id`. -/
theorem malformed_claims_fail :
    getAuth ["/Applicants"] (userPayload .null .null) = .error (.failure notIterableError)
    ∧ ¬ AuthAnswers ["/Applicants"] (userPayload .null .null)
    ∧ ¬ AuthAnswers ["/Applicants"] (userPayload (.arr [.int 5]) .null)
    ∧ ¬ ContextAnswers (userPayload (.arr [.int 5]) .null)
    ∧ buildAuthContext true (userPayload (.arr []) (.float (.infinite false)))
        = .error (.failure infinityError)
    ∧ ¬ ContextAnswers (userPayload (.arr []) (.float (.infinite false))) := by
  have hnull : getAuth ["/Applicants"] (userPayload .null .null)
      = .error (.failure notIterableError) := rfl
  have hnumber : getAuth ["/Applicants"] (userPayload (.arr [.int 5]) .null)
      = .error (.failure (attributeError "startswith")) := rfl
  have hinfinite : buildAuthContext true (userPayload (.arr []) (.float (.infinite false)))
      = .error (.failure infinityError) := rfl
  have hauth : ∀ {scopes payload e}, getAuth scopes payload = .error (.failure e) →
      ¬ AuthAnswers scopes payload := by
    rintro scopes payload e h (hok | ⟨e', herror, -⟩)
    · exact absurd (h.symm.trans hok) nofun
    · exact absurd (h.symm.trans herror) nofun
  refine ⟨hnull, hauth hnull, hauth hnumber, ?_, hinfinite, ?_⟩
  · rintro (⟨e, herror, -⟩ | ⟨ctx, hok, hroles⟩)
    · exact absurd herror nofun
    · have hgroups : ctx.groups = .arr [.int 5] := by
        cases hok
        rfl
      obtain ⟨b, hb⟩ := hroles ctx.isAdmin (List.mem_cons_self ..)
      rw [TokenContext.isAdmin, TokenContext.hasGroup, hgroups] at hb
      cases hb
  · rintro (⟨e, herror, -⟩ | ⟨ctx, hok, -⟩)
    · exact absurd (hinfinite.symm.trans herror) nofun
    · exact absurd (hinfinite.symm.trans hok) nofun

end Malformed

end Atsig
