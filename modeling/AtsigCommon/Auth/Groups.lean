import AtsigCommon.Uri.Reference

/-!
# Groups, roles and scopes

The groups of the realm, the check of the scopes of a route (`validate_user_groups`), and the role
properties of `BaseAuthContext`.  Both walk along the path of a group in the same way; a super
group is looked for by equality only.

* `covers_iff` — a group covers another one if its segments are the first ones of the other.
* `role_and_scope_iff` — when a role and a scope agree.
-/

namespace Atsig

open Uri

/-- `GroupEnum` -/
inductive GroupEnum
  | evaluator
  | applicant
  | secretary
  | departmentSecretary
  | programSecretary
  | admin
  | agent
  | parentAgent
  | childAgent
  deriving DecidableEq, Repr

/-- The path of the group in Keycloak. -/
def GroupEnum.value : GroupEnum → String
  | .evaluator => "/Evaluators"
  | .applicant => "/Applicants"
  | .secretary => "/Secretary"
  | .departmentSecretary => "/Secretary/Department"
  | .programSecretary => "/Secretary/Program"
  | .admin => "/Administrators"
  | .agent => "/Agents"
  | .parentAgent => "/Agents/Parent"
  | .childAgent => "/Agents/Child"

/-- `SUPER_GROUPS` -/
def superGroups : List String := [GroupEnum.admin.value]

/-- `text.startswith(start)` -/
def startsWith (text start : String) : Bool := start.toList.isPrefixOf text.toList

/-- `user_group == required or user_group.startswith(f"{required}/")` -/
def covers (required userGroup : String) : Bool :=
  userGroup = required || startsWith userGroup (required ++ "/")

/-- `validate_user_groups` -/
def validateUserGroups (userGroups requiredScopes superGroups : List String) : Bool :=
  if superGroups.any fun group => userGroups.contains group then true
  else if requiredScopes = [] then true
  else requiredScopes.any fun required => userGroups.any fun userGroup => covers required userGroup

/-- What the role properties read of `BaseAuthContext`. -/
structure BaseAuthContext where
  groups : List String

/-- `has_group` -/
def BaseAuthContext.hasGroup (ctx : BaseAuthContext) (suffix : GroupEnum) : Bool :=
  ctx.groups.any fun group => group = suffix.value || startsWith group (suffix.value ++ "/")

/-- `is_admin` -/
def BaseAuthContext.isAdmin (ctx : BaseAuthContext) : Bool := ctx.hasGroup .admin

/-! ## Paths -/

/-- **A group covers another one** if its segments are the first ones of the other. -/
theorem covers_iff (required userGroup : String) : covers required userGroup
    ↔ required.toList.splitOn '/' <+: userGroup.toList.splitOn '/' := by
  rw [splitOn_prefix_iff, covers, startsWith, Bool.or_eq_true, decide_eq_true_eq,
    List.isPrefixOf_iff_prefix, String.toList_append, String.toList_inj]
  rfl

/-- The segments of one path are the first ones of the other. -/
def AtOrBelow (group userGroup : String) : Prop :=
  group.toList.splitOn '/' <+: userGroup.toList.splitOn '/'

/-- The user is an administrator by a group below `/Administrators` alone, and has no group at or
below one of the scopes. -/
structure OnlyBelowAdmin (groups : List String) (scopes : List GroupEnum) : Prop where
  below : ∃ g ∈ groups, AtOrBelow GroupEnum.admin.value g
  notAdmin : GroupEnum.admin.value ∉ groups
  noScope : ∀ s ∈ scopes, ∀ g ∈ groups, ¬ AtOrBelow s.value g

section Agreement

variable (groups : List String) (scopes : List GroupEnum)

lemma hasGroup_iff (suffix : GroupEnum) :
    (BaseAuthContext.mk groups).hasGroup suffix ↔ ∃ g ∈ groups, AtOrBelow suffix.value g := by
  have hcovers : ∀ g, (decide (g = suffix.value) || startsWith g (suffix.value ++ "/")) = true
      ↔ AtOrBelow suffix.value g := covers_iff suffix.value
  simp only [BaseAuthContext.hasGroup, List.any_eq_true, hcovers]

/-- The scope check: a super group, or a group at or below one of the scopes. -/
lemma validateUserGroups_iff (hscopes : scopes ≠ []) :
    validateUserGroups groups (scopes.map GroupEnum.value) superGroups
      ↔ GroupEnum.admin.value ∈ groups ∨ ∃ s ∈ scopes, ∃ g ∈ groups, AtOrBelow s.value g := by
  have hsuper : (superGroups.any fun group => groups.contains group) = true
      ↔ GroupEnum.admin.value ∈ groups := by simp [superGroups]
  rw [validateUserGroups]
  split
  · rename_i h
    simp [hsuper.mp h]
  · rename_i h
    rw [if_neg (by simpa using hscopes)]
    simp only [List.any_eq_true, List.mem_map, covers_iff, AtOrBelow]
    rw [hsuper] at h
    constructor
    · rintro ⟨_, ⟨s, hs, rfl⟩, hg⟩
      exact Or.inr ⟨s, hs, hg⟩
    · rintro (hadmin | ⟨s, hs, hg⟩)
      · exact absurd hadmin h
      · exact ⟨_, ⟨s, hs, rfl⟩, hg⟩

/-- **When a role and a scope agree.**  The scope check gives what the role properties give, unless
a group below `/Administrators` is all that the user has for the scopes; and a group covers another
one exactly when its segments are the first ones of the other. -/
theorem role_and_scope_iff (hscopes : scopes ≠ []) :
    (validateUserGroups groups (scopes.map GroupEnum.value) superGroups
        = ((BaseAuthContext.mk groups).isAdmin || scopes.any (BaseAuthContext.mk groups).hasGroup)
      ↔ ¬ OnlyBelowAdmin groups scopes)
    ∧ ∀ g u, covers g u ↔ AtOrBelow g u := by
  refine ⟨?_, covers_iff⟩
  have hadmin : GroupEnum.admin.value ∈ groups →
      ∃ g ∈ groups, AtOrBelow GroupEnum.admin.value g :=
    fun h => ⟨_, h, List.prefix_refl _⟩
  rw [Bool.eq_iff_iff, validateUserGroups_iff groups scopes hscopes, Bool.or_eq_true,
    BaseAuthContext.isAdmin, hasGroup_iff, List.any_eq_true]
  simp only [hasGroup_iff]
  constructor
  · rintro h ⟨hbelow, hnot, hscope⟩
    rcases h.mpr (Or.inl hbelow) with h | ⟨s, hs, g, hg, hcover⟩
    · exact hnot h
    · exact hscope s hs g hg hcover
  · intro h
    constructor
    · rintro (h' | h')
      · exact Or.inl (hadmin h')
      · exact Or.inr h'
    · rintro (hbelow | h')
      · by_contra hneither
        simp only [not_or, not_exists, not_and] at hneither
        exact h ⟨hbelow, hneither.1, hneither.2⟩
      · exact Or.inr h'

end Agreement

/-- A secretary of a programme. -/
theorem role_and_scope_secretary :
    validateUserGroups ["/Secretary/Program"] ["/Secretary"] superGroups
      = ((BaseAuthContext.mk ["/Secretary/Program"]).isAdmin
        || [GroupEnum.secretary].any (BaseAuthContext.mk ["/Secretary/Program"]).hasGroup) := by
  refine (role_and_scope_iff ["/Secretary/Program"] [.secretary] (by simp)).1.mpr ?_
  rintro ⟨-, -, hscope⟩
  exact hscope .secretary (by simp) _ (List.mem_singleton_self _) ((covers_iff _ _).mp rfl)

/-- **A group below `/Administrators` makes an administrator that no scope lets in.** -/
theorem subadmin_refused : (BaseAuthContext.mk ["/Administrators/Staff"]).isAdmin = true
    ∧ validateUserGroups ["/Administrators/Staff"] ["/Applicants"] superGroups = false := by
  decide

end Atsig
