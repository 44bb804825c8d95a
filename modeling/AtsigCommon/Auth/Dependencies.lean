import AtsigCommon.Auth.Claims
import AtsigCommon.Coroutine.Contract

/-!
# The dependencies of a request

`make_get_token_payload`, `make_get_auth`, `make_get_auth_context` and
`make_get_optional_auth_context` of `atsig_common.auth.dependencies`, with
`BaseAuthContext.load_role_contexts`.  FastAPI resolves the dependencies of a request one after
another; they share `request.state`, in which `_decode_once` keeps the payload of the last token
that was valid.  The decoding of a token and the three loaders of a service are awaited.

* `Dependency.resolve` — one dependency, and `resolveAll` — those of a request, in any number and
  order, each with the token that its scheme found.
* `token_decoded_once` — a token that was valid is not decoded again, and nobody gets the payload of
  another token.
-/

namespace Atsig

open Coroutine Python

/-! ## What is awaited -/

structure SecretaryContext where
  departmentId : ℤ
  programmeIds : List ℤ
  callIds : List ℤ

structure EvaluatorContext where
  callIds : List ℤ

structure AgentContext where
  subAgents : List String
  applicants : List String

/-- `BaseAuthContext`, with the contexts of the roles. -/
structure LoadedContext where
  user : TokenContext
  secretary : Option SecretaryContext := none
  agent : Option AgentContext := none
  evaluator : Option EvaluatorContext := none

/-- `adecode_token`, and the loaders that a service overrides. -/
inductive RequestCommand
  | decode (token : String)
  | loadSecretaryContext (ctx : LoadedContext)
  | loadAgentContext (ctx : LoadedContext)
  | loadEvaluatorContext (ctx : LoadedContext)

@[reducible] def RequestCommand.Answer : RequestCommand → Type
  | .decode _ => TokenPayload
  | .loadSecretaryContext _ => Option SecretaryContext
  | .loadAgentContext _ => Option AgentContext
  | .loadEvaluatorContext _ => Option EvaluatorContext

/-- What gets out of a dependency. -/
inductive RequestRaised
  | dependency (e : DependencyError)
  | cancelled

/-- The state is `request.state.token_payload`. -/
abbrev requestSig : Signature :=
  ⟨Option (String × TokenPayload), RequestCommand, RequestCommand.Answer, RequestRaised⟩

/-- A coroutine of a dependency. -/
abbrev Depends (α : Type) := Co requestSig α

/-- `await`, for a command of a dependency. -/
def awaitCommand (c : RequestCommand) : Depends c.Answer := Co.call (S := requestSig) c

/-- A result that is there, or an exception. -/
def ofResult {α : Type} (r : Except DependencyError α) : Depends α :=
  Co.ofExcept (S := requestSig) (r.mapError .dependency)

/-! ## The dependencies -/

/-- The part of `_decode_once` after the look at the cache. -/
def decodeFresh (token : String) : Depends TokenPayload := do
  let payload ← awaitCommand (.decode token)
  Co.modify (S := requestSig) fun _ => some (token, payload)
  return payload

/-- `_decode_once` -/
def decodeOnce (token : String) : Depends TokenPayload := do
  match ← (Co.get : Depends (Option (String × TokenPayload))) with
  | some (cachedToken, payload) =>
      if cachedToken = token then return payload else decodeFresh token
  | none => decodeFresh token

/-- `if self.is_<role> and self.<context> is None`, and the loading. -/
def loadRole (held : Except PyException Bool) (isLoaded : Bool) (load : Depends LoadedContext)
    (ctx : LoadedContext) : Depends LoadedContext := do
  if (← ofResult (held.mapError .failure)) && !isLoaded then load else return ctx

/-- The assignment of `self.secretary`. -/
def loadSecretary (ctx : LoadedContext) : Depends LoadedContext := do
  let secretary ← awaitCommand (.loadSecretaryContext ctx)
  return { ctx with secretary }

/-- The assignment of `self.agent`. -/
def loadAgent (ctx : LoadedContext) : Depends LoadedContext := do
  let agent ← awaitCommand (.loadAgentContext ctx)
  return { ctx with agent }

/-- The assignment of `self.evaluator`. -/
def loadEvaluator (ctx : LoadedContext) : Depends LoadedContext := do
  let evaluator ← awaitCommand (.loadEvaluatorContext ctx)
  return { ctx with evaluator }

/-- `load_role_contexts` -/
def loadRoleContexts (ctx : LoadedContext) : Depends LoadedContext := do
  let ctx ← loadRole ctx.user.isSecretary ctx.secretary.isSome (loadSecretary ctx) ctx
  let ctx ← loadRole ctx.user.isAgent ctx.agent.isSome (loadAgent ctx) ctx
  loadRole ctx.user.isEvaluator ctx.evaluator.isSome (loadEvaluator ctx) ctx

/-- What a route does with a token that is not valid, when it may be called without a user. -/
inductive OnInvalid
  | anonymous
  | unauthorized
  deriving DecidableEq

section Dependencies

variable [UnicodeData]

/-- `get_token_payload` -/
def getTokenPayload (token : String) : Depends TokenPayload := decodeOnce token

/-- `get_auth`, of the payload that `get_token_payload` gives. -/
def getAuthDependency (scopes : List String) (token : String) : Depends TokenPayload := do
  let payload ← getTokenPayload token
  ofResult (getAuth scopes payload)

/-- `get_auth_context`, of the payload that `get_token_payload` gives. -/
def getAuthContext (strict : Bool) (token : String) : Depends LoadedContext := do
  let payload ← getTokenPayload token
  let user ← ofResult (buildAuthContext strict payload)
  loadRoleContexts { user }

/-- The `try` block of `get_optional_auth_context`. -/
def readOptional (strict : Bool) (token : String) : Depends (Option LoadedContext) := do
  let payload ← decodeOnce token
  let user ← ofResult (buildAuthContext strict payload)
  return some { user }

/-- `get_optional_auth_context` -/
def getOptionalAuthContext (strict : Bool) (onInvalid : OnInvalid) (token : Option String) :
    Depends (Option LoadedContext) :=
  match token with
  | none => return none
  | some token =>
      if token = "" then return none
      else do
        let ctx ← (readOptional strict token).protect fun
          | .dependency (.http e) =>
              if onInvalid = .unauthorized then Co.raise (S := requestSig) (.dependency (.http e))
              else return none
          | e => Co.raise (S := requestSig) e
        match ctx with
        | none => return none
        | some ctx => do return some (← loadRoleContexts ctx)

/-! ## A request -/

/-- A dependency that a route declares, with the token that its scheme found.  A policy holds the
context that it is given. -/
inductive Dependency
  | tokenPayload (token : String)
  | auth (scopes : List String) (token : String)
  | authContext (strict : Bool) (token : String)
  | optionalAuthContext (strict : Bool) (onInvalid : OnInvalid) (token : Option String)

/-- What a dependency gives. -/
inductive Resolved
  | payload (payload : TokenPayload)
  | context (ctx : LoadedContext)
  | anonymous

/-- Its token. -/
def Dependency.token? : Dependency → Option String
  | .tokenPayload token | .auth _ token | .authContext _ token => some token
  | .optionalAuthContext _ _ token => token

def Dependency.resolve : Dependency → Depends Resolved
  | .tokenPayload token => do return .payload (← getTokenPayload token)
  | .auth scopes token => do return .payload (← getAuthDependency scopes token)
  | .authContext strict token => do return .context (← getAuthContext strict token)
  | .optionalAuthContext strict onInvalid token => do
      match ← getOptionalAuthContext strict onInvalid token with
      | some ctx => return .context ctx
      | none => return .anonymous

/-- The dependencies of a request, one after another; an exception ends the request. -/
def resolveAll : List Dependency → Depends (List Resolved)
  | [] => return []
  | dependency :: rest => do
      let first ← dependency.resolve
      let others ← resolveAll rest
      return first :: others

end Dependencies

/-! ## The contract of a request -/

/-- What has become of the tokens, the last one first. -/
structure Decodes where
  /-- Those that were valid, with their payloads. -/
  valid : List (String × TokenPayload)
  /-- Those whose decoding raised an HTTP error. -/
  refused : List String

def Decodes.init : Decodes := ⟨[], []⟩

/-- More may have been decoded since. -/
def Decodes.Grows (g g' : Decodes) : Prop := g.valid <:+ g'.valid ∧ g.refused <:+ g'.refused

/-- What an await adds. -/
def decoded (g : Decodes) : (c : RequestCommand) → Except RequestRaised c.Answer → Decodes
  | .decode token, .ok payload => { g with valid := (token, payload) :: g.valid }
  | .decode token, .error (.dependency (.http _)) => { g with refused := token :: g.refused }
  | _, _ => g

/-- What may be awaited: a token that is not the last valid one, and the context of a role that the
user has and that is not loaded. -/
def AllowedIn (tokens : List String) (g : Decodes) : RequestCommand → Prop
  | .decode token => token ∈ tokens ∧ ∀ payload, g.valid.head? ≠ some (token, payload)
  | .loadSecretaryContext ctx => ctx.user.isSecretary = .ok true ∧ ctx.secretary = none
  | .loadAgentContext ctx => ctx.user.isAgent = .ok true ∧ ctx.agent = none
  | .loadEvaluatorContext ctx => ctx.user.isEvaluator = .ok true ∧ ctx.evaluator = none

/-- **The contract**: nobody else changes `request.state` meanwhile. -/
def requestContract (tokens : List String) : Contract requestSig Decodes where
  may g _ c := AllowedIn tokens g c
  env g s c r g' s' := s' = s ∧ g' = decoded g c r

/-- `request.state` has the last valid token. -/
def Kept (g : Decodes) (s : Option (String × TokenPayload)) : Prop := s = g.valid.head?

/-- There is a context only for the roles that the user has. -/
structure LoadedContext.RolesHeld (ctx : LoadedContext) : Prop where
  secretary : ctx.secretary ≠ none → ctx.user.isSecretary = .ok true
  agent : ctx.agent ≠ none → ctx.user.isAgent = .ok true
  evaluator : ctx.evaluator ≠ none → ctx.user.isEvaluator = .ok true

/-- The user is the one of the token, which is the last valid one. -/
structure LoadedContext.Of [UnicodeData] (ctx : LoadedContext) (strict : Bool) (token : String)
    (g : Decodes) : Prop extends ctx.RolesHeld where
  user : ∃ payload, g.valid.head? = some (token, payload)
    ∧ buildAuthContext strict payload = .ok ctx.user

/-- No user can be had of the token: its decoding has just raised an HTTP error, or it is valid and
building the context of its payload raises one. -/
def NoUser [UnicodeData] (strict : Bool) (token : String) (g g' : Decodes) : Prop :=
  g'.refused = token :: g.refused
    ∨ ∃ payload e, g'.valid.head? = some (token, payload)
      ∧ buildAuthContext strict payload = .error (.http e)

/-- What a dependency may give, after these decodings and those. -/
def Dependency.Gives [UnicodeData] (g g' : Decodes) : Dependency → Resolved → Prop
  | .tokenPayload token, .payload payload => g'.valid.head? = some (token, payload)
  | .auth scopes token, .payload payload =>
      g'.valid.head? = some (token, payload) ∧ getAuth scopes payload = .ok payload
  | .authContext strict token, .context ctx => ctx.Of strict token g'
  | .optionalAuthContext strict _ token, .context ctx =>
      ∃ t, token = some t ∧ t ≠ "" ∧ ctx.Of strict t g'
  | .optionalAuthContext strict onInvalid token, .anonymous =>
      token = none ∨ token = some ""
        ∨ onInvalid = .anonymous ∧ ∃ t, token = some t ∧ NoUser strict t g g'
  | _, _ => False

/-- The dependencies of a request have given these results, one after another. -/
inductive InTurn [UnicodeData] : Decodes → List Dependency → List Resolved → Decodes → Prop
  | nil (g : Decodes) : InTurn g [] [] g
  | cons {g g₁ g' : Decodes} {dependency : Dependency} {rest : List Dependency} {first : Resolved}
      {others : List Resolved} (hgrows : g.Grows g₁) (hfirst : dependency.Gives g g₁ first)
      (hothers : InTurn g₁ rest others g') : InTurn g (dependency :: rest) (first :: others) g'

/-! ## The dependencies keep it -/

section Keeps

variable {tokens : List String} {g : Decodes} {s : Option (String × TokenPayload)}

/-- What holds after a step that decodes at most. -/
def After (g : Decodes) (g' : Decodes) (s' : Option (String × TokenPayload)) : Prop :=
  g.Grows g' ∧ Kept g' s'

lemma Decodes.Grows.refl (g : Decodes) : g.Grows g := ⟨List.suffix_refl _, List.suffix_refl _⟩

lemma Decodes.Grows.trans {g₁ g₂ g₃ : Decodes} (h : g₁.Grows g₂) (h' : g₂.Grows g₃) :
    g₁.Grows g₃ := ⟨h.1.trans h'.1, h.2.trans h'.2⟩

lemma grows_decoded (g : Decodes) (c : RequestCommand) (r : Except RequestRaised c.Answer) :
    g.Grows (decoded g c r) := by
  rw [decoded.eq_def]
  split
  · exact ⟨List.suffix_cons _ _, List.suffix_refl _⟩
  · exact ⟨List.suffix_refl _, List.suffix_cons _ _⟩
  · exact .refl g

lemma ofResult_wp {α : Type} {r : Except DependencyError α}
    {φ : α → Decodes → Option (String × TokenPayload) → Prop}
    {ψ : RequestRaised → Decodes → Option (String × TokenPayload) → Prop}
    (hok : ∀ a, r = .ok a → φ a g s) (herror : ∀ e, r = .error e → ψ (.dependency e) g s) :
    (ofResult r).wp (requestContract tokens) φ ψ g s := by
  cases r with
  | ok a => exact hok a rfl
  | error e => exact herror e rfl

/-- The rule of the await. -/
lemma await_wp {c : RequestCommand} {φ : c.Answer → Decodes → Option (String × TokenPayload) → Prop}
    {ψ : RequestRaised → Decodes → Option (String × TokenPayload) → Prop}
    (hmay : AllowedIn tokens g c) (hok : ∀ a, φ a (decoded g c (.ok a)) s)
    (herror : ∀ e, ψ e (decoded g c (.error e)) s) :
    (awaitCommand c).wp (requestContract tokens) φ ψ g s := by
  rw [awaitCommand, Co.wp_call (S := requestSig) c]
  refine ⟨hmay, ?_, ?_⟩
  · rintro a _ _ ⟨rfl, rfl⟩
    exact hok a
  · rintro e _ _ ⟨rfl, rfl⟩
    exact herror e

/-- `_decode_once` gives a payload of its own token, which is the last valid one then. -/
lemma decodeOnce_wp {token : String} (htoken : token ∈ tokens) (hs : Kept g s) :
    (decodeOnce token).wp (requestContract tokens)
      (fun payload g' s' => After g g' s' ∧ g'.valid.head? = some (token, payload))
      (fun e g' s' => After g g' s' ∧ ∀ e', e = .dependency (.http e') →
        g'.refused = token :: g.refused) g s := by
  have hfresh : (∀ payload, g.valid.head? ≠ some (token, payload)) →
      (decodeFresh token).wp (requestContract tokens)
        (fun payload g' s' => After g g' s' ∧ g'.valid.head? = some (token, payload))
        (fun e g' s' => After g g' s' ∧ ∀ e', e = .dependency (.http e') →
          g'.refused = token :: g.refused) g s := by
    intro hnew
    rw [decodeFresh, Co.wp_bind]
    refine await_wp ⟨htoken, hnew⟩ (fun payload => ⟨⟨grows_decoded g _ (.ok payload), rfl⟩, rfl⟩)
      fun e => ⟨⟨grows_decoded g _ (.error e), ?_⟩, ?_⟩
    · -- a token that is not valid leaves the valid ones as they are
      cases e with
      | cancelled => exact hs
      | dependency e => cases e <;> exact hs
    · rintro e' rfl
      rfl
  rw [decodeOnce, Co.wp_bind]
  cases hcached : s with
  | none =>
      subst hcached
      refine hfresh fun payload h => ?_
      rw [← (hs : none = g.valid.head?)] at h
      cases h
  | some cached =>
      obtain ⟨cachedToken, payload⟩ := cached
      subst hcached
      have hhead : g.valid.head? = some (cachedToken, payload) := (hs : _ = g.valid.head?).symm
      show Co.wp _ (if cachedToken = token then _ else _) _ _ _ _
      split_ifs with hsame
      · subst hsame
        exact ⟨⟨.refl g, hs⟩, hhead⟩
      · refine hfresh fun payload' h => hsame ?_
        rw [hhead] at h
        exact congrArg Prod.fst (Option.some.inj h)

/-- After the roles are loaded: nothing was decoded, and the user is the same. -/
def RolesLoaded (g : Decodes) (ctx ctx' : LoadedContext) (g' : Decodes)
    (s' : Option (String × TokenPayload)) : Prop :=
  g' = g ∧ Kept g' s' ∧ ctx'.user = ctx.user ∧ ctx'.RolesHeld

/-- One role. -/
lemma loadRole_wp {held : Except PyException Bool} {isLoaded : Bool} {load : Depends LoadedContext}
    {ctx : LoadedContext} (hs : Kept g s) (hctx : ctx.RolesHeld)
    (hload : held = .ok true → isLoaded = false → load.wp (requestContract tokens)
      (fun ctx' => RolesLoaded g ctx ctx') (fun _ g' s' => g' = g ∧ Kept g' s') g s) :
    (loadRole held isLoaded load ctx).wp (requestContract tokens)
      (fun ctx' => RolesLoaded g ctx ctx') (fun _ g' s' => g' = g ∧ Kept g' s') g s := by
  rw [loadRole, Co.wp_bind]
  refine ofResult_wp (fun b hb => ?_) fun _ _ => ⟨rfl, hs⟩
  have hheld : held = .ok b := by
    cases held with
    | ok b' => exact congrArg Except.ok (Except.ok.inj hb)
    | error e => cases hb
  split_ifs with hcond
  · rw [Bool.and_eq_true, Bool.not_eq_true'] at hcond
    obtain ⟨rfl, hloaded⟩ := hcond
    exact hload hheld hloaded
  · exact ⟨rfl, hs, rfl, hctx⟩

/-- The three roles, in their order. -/
lemma loadRoleContexts_wp {ctx : LoadedContext} (hs : Kept g s) (hctx : ctx.RolesHeld) :
    (loadRoleContexts ctx).wp (requestContract tokens)
      (fun ctx' => RolesLoaded g ctx ctx') (fun _ g' s' => g' = g ∧ Kept g' s') g s := by
  have hmissing : ∀ {α : Type} {x : Option α}, x.isSome = false → x = none := by
    intro α x hx
    exact Option.isSome_eq_false_iff.mp hx |> Option.isNone_iff_eq_none.mp
  rw [loadRoleContexts, Co.wp_bind]
  refine Co.wp_mono (loadRole_wp hs hctx fun hheld hnone => ?_) ?_ fun _ _ _ h => h
  · rw [loadSecretary, Co.wp_bind]
    exact await_wp ⟨hheld, hmissing hnone⟩
      (fun _ => ⟨rfl, hs, rfl, fun _ => hheld, hctx.agent, hctx.evaluator⟩) fun _ => ⟨rfl, hs⟩
  rintro ctx₁ _ s₁ ⟨rfl, hs₁, huser₁, hctx₁⟩
  rw [Co.wp_bind]
  refine Co.wp_mono (loadRole_wp hs₁ hctx₁ fun hheld hnone => ?_) ?_ fun _ _ _ h => h
  · rw [loadAgent, Co.wp_bind]
    exact await_wp ⟨hheld, hmissing hnone⟩
      (fun _ => ⟨rfl, hs₁, rfl, hctx₁.secretary, fun _ => hheld, hctx₁.evaluator⟩)
      fun _ => ⟨rfl, hs₁⟩
  rintro ctx₂ _ s₂ ⟨rfl, hs₂, huser₂, hctx₂⟩
  refine Co.wp_mono (loadRole_wp hs₂ hctx₂ fun hheld hnone => ?_) ?_ fun _ _ _ h => h
  · rw [loadEvaluator, Co.wp_bind]
    exact await_wp ⟨hheld, hmissing hnone⟩
      (fun _ => ⟨rfl, hs₂, rfl, hctx₂.secretary, hctx₂.agent, fun _ => hheld⟩)
      fun _ => ⟨rfl, hs₂⟩
  rintro ctx₃ _ s₃ ⟨rfl, hs₃, huser₃, hctx₃⟩
  exact ⟨rfl, hs₃, huser₃.trans (huser₂.trans huser₁), hctx₃⟩

variable [UnicodeData]

omit [UnicodeData] in
/-- A user whose roles are not loaded yet. -/
lemma rolesHeld_user (user : TokenContext) : ({ user } : LoadedContext).RolesHeld :=
  ⟨fun h => absurd rfl h, fun h => absurd rfl h, fun h => absurd rfl h⟩

omit [UnicodeData] in
lemma After.trans {g g' g'' : Decodes} {s' s'' : Option (String × TokenPayload)}
    (h : After g g' s') (h' : After g' g'' s'') : After g g'' s'' :=
  ⟨h.1.trans h'.1, h'.2⟩

/-- `get_auth_context`, from the payload on: the user of the token with its roles. -/
lemma loadUser_wp {strict : Bool} {token : String} {payload : TokenPayload} {user : TokenContext}
    (hs : Kept g s) (hlast : g.valid.head? = some (token, payload))
    (huser : buildAuthContext strict payload = .ok user) :
    (loadRoleContexts { user }).wp (requestContract tokens)
      (fun ctx g' s' => After g g' s' ∧ ctx.Of strict token g')
      (fun _ g' s' => After g g' s') g s := by
  refine Co.wp_mono (loadRoleContexts_wp hs (rolesHeld_user user)) ?_ ?_
  · rintro ctx _ s' ⟨rfl, hs', hsame, hheld⟩
    have huser' : buildAuthContext strict payload = .ok ctx.user := by
      rw [hsame]
      exact huser
    exact ⟨⟨.refl _, hs'⟩, ⟨hheld, payload, hlast, huser'⟩⟩
  · rintro e _ s' ⟨rfl, hs'⟩
    exact ⟨.refl _, hs'⟩

/-- The `try` block of `get_optional_auth_context`: a user of the token, or no user can be had. -/
lemma readOptional_wp {strict : Bool} {token : String} (htoken : token ∈ tokens) (hs : Kept g s) :
    (readOptional strict token).wp (requestContract tokens)
      (fun ctx g' s' => After g g' s' ∧ ∃ user payload, ctx = some { user }
        ∧ g'.valid.head? = some (token, payload) ∧ buildAuthContext strict payload = .ok user)
      (fun e g' s' => After g g' s' ∧ ∀ e', e = .dependency (.http e') →
        NoUser strict token g g') g s := by
  rw [readOptional, Co.wp_bind]
  refine Co.wp_mono (decodeOnce_wp htoken hs) ?_ fun _ _ _ h => ⟨h.1, fun e' he => .inl (h.2 e' he)⟩
  rintro payload g₁ s₁ ⟨hafter, hlast⟩
  rw [Co.wp_bind]
  refine ofResult_wp (fun user huser => ?_) fun e he => ⟨hafter, ?_⟩
  · exact ⟨hafter, user, payload, rfl, hlast, huser⟩
  · rintro e' ⟨⟩
    exact .inr ⟨payload, e', hlast, he⟩

lemma getOptionalAuthContext_wp {strict : Bool} {onInvalid : OnInvalid} {token : Option String}
    (htoken : ∀ t, token = some t → t ∈ tokens) (hs : Kept g s) :
    (getOptionalAuthContext strict onInvalid token).wp (requestContract tokens)
      (fun ctx? g' s' => After g g' s'
        ∧ (Dependency.optionalAuthContext strict onInvalid token).Gives g g'
          (ctx?.elim .anonymous .context))
      (fun _ g' s' => After g g' s') g s := by
  have hsame : After g g s := ⟨.refl g, hs⟩
  cases token with
  | none => exact ⟨hsame, .inl rfl⟩
  | some token =>
      by_cases hempty : token = ""
      · subst hempty
        exact ⟨hsame, .inr (.inl rfl)⟩
      simp only [getOptionalAuthContext]
      rw [if_neg hempty, Co.wp_bind, Co.wp_protect]
      refine Co.wp_mono (readOptional_wp (htoken token rfl) hs) ?_ ?_
      · rintro _ g₁ s₁ ⟨hafter, user, payload, rfl, hlast, huser⟩
        dsimp only
        rw [Co.wp_bind]
        refine Co.wp_mono (loadUser_wp hafter.2 hlast huser) ?_ fun _ _ _ h => hafter.trans h
        rintro ctx g₂ s₂ ⟨hafter', hctx⟩
        exact ⟨hafter.trans hafter', token, rfl, hempty, hctx⟩
      · rintro e g₁ s₁ ⟨hafter, hnoUser⟩
        cases e with
        | cancelled => exact hafter
        | dependency e =>
            cases e with
            | failure e => exact hafter
            | http e =>
                dsimp only
                by_cases hmode : onInvalid = .unauthorized
                · rw [if_pos hmode]
                  exact hafter
                · rw [if_neg hmode]
                  have hanonymous : onInvalid = .anonymous := by
                    cases onInvalid with
                    | anonymous => rfl
                    | unauthorized => exact absurd rfl hmode
                  exact ⟨hafter, .inr (.inr ⟨hanonymous, token, rfl, hnoUser e rfl⟩)⟩

/-- **One dependency** gives what belongs to its own token. -/
lemma resolve_wp {dependency : Dependency} (htoken : ∀ t, dependency.token? = some t → t ∈ tokens)
    (hs : Kept g s) :
    dependency.resolve.wp (requestContract tokens)
      (fun resolved g' s' => After g g' s' ∧ dependency.Gives g g' resolved)
      (fun _ g' s' => After g g' s') g s := by
  cases dependency with
  | tokenPayload token =>
      rw [Dependency.resolve, Co.wp_bind]
      exact Co.wp_mono (decodeOnce_wp (htoken token rfl) hs) (fun _ _ _ h => h) fun _ _ _ h => h.1
  | auth scopes token =>
      rw [Dependency.resolve, Co.wp_bind, getAuthDependency, Co.wp_bind]
      refine Co.wp_mono (decodeOnce_wp (htoken token rfl) hs) ?_ fun _ _ _ h => h.1
      rintro payload g₁ s₁ ⟨hafter, hlast⟩
      refine ofResult_wp (fun payload' hpayload => ?_) fun _ _ => hafter
      -- `get_auth` returns the payload that it checks
      have hsame : payload' = payload := by
        rw [getAuth] at hpayload
        cases hvalid : validateUserGroupsAny (payload.getD "groups" (.arr [])) scopes
            superGroups with
        | error e =>
            rw [hvalid] at hpayload
            cases hpayload
        | ok isValid =>
            rw [hvalid] at hpayload
            cases isValid with
            | true => exact (Except.ok.inj hpayload).symm
            | false => cases hpayload
      subst hsame
      exact ⟨hafter, hlast, hpayload⟩
  | authContext strict token =>
      rw [Dependency.resolve, Co.wp_bind, getAuthContext, Co.wp_bind]
      refine Co.wp_mono (decodeOnce_wp (htoken token rfl) hs) ?_ fun _ _ _ h => h.1
      rintro payload g₁ s₁ ⟨hafter, hlast⟩
      rw [Co.wp_bind]
      refine ofResult_wp (fun user huser => ?_) fun _ _ => hafter
      refine Co.wp_mono (loadUser_wp hafter.2 hlast huser) ?_ fun _ _ _ h => hafter.trans h
      rintro ctx g₂ s₂ ⟨hafter', hctx⟩
      exact ⟨hafter.trans hafter', hctx⟩
  | optionalAuthContext strict onInvalid token =>
      rw [Dependency.resolve, Co.wp_bind]
      refine Co.wp_mono (getOptionalAuthContext_wp htoken hs) ?_ fun _ _ _ h => h
      rintro ctx? g₁ s₁ ⟨hafter, hctx⟩
      cases ctx? with
      | some ctx => exact ⟨hafter, hctx⟩
      | none => exact ⟨hafter, hctx⟩

/-- **All dependencies**, by induction along the request. -/
lemma resolveAll_wp : ∀ {dependencies : List Dependency} {g : Decodes}
    {s : Option (String × TokenPayload)},
    (∀ dependency ∈ dependencies, ∀ t, dependency.token? = some t → t ∈ tokens) → Kept g s →
    (resolveAll dependencies).wp (requestContract tokens)
      (fun results g' s' => After g g' s' ∧ InTurn g dependencies results g')
      (fun _ g' s' => After g g' s') g s
  | [], g, s, _, hs => ⟨⟨.refl g, hs⟩, .nil g⟩
  | dependency :: rest, g, s, htokens, hs => by
      rw [resolveAll, Co.wp_bind]
      refine Co.wp_mono (resolve_wp (htokens dependency (List.mem_cons_self ..)) hs) ?_
        fun _ _ _ h => h
      rintro first g₁ s₁ ⟨hafter, hfirst⟩
      rw [Co.wp_bind]
      refine Co.wp_mono (resolveAll_wp (fun d hd => htokens d (List.mem_cons_of_mem _ hd)) hafter.2)
        ?_ fun _ _ _ h => hafter.trans h
      rintro others g₂ s₂ ⟨hafter', hothers⟩
      exact ⟨hafter.trans hafter', .cons hafter.1 hfirst hothers⟩

end Keeps

/-! ## One request -/

section Request

/-- What has become of the tokens in an execution. -/
def decodes (tr : List (Exchange requestSig)) : Decodes := watch decoded .init tr

lemma decodes_concat (tr : List (Exchange requestSig)) (x : Exchange requestSig) :
    decodes (tr ++ [x]) = decoded (decodes tr) x.command x.answer := by
  rw [decodes, watch_append]
  rfl

/-- Nobody else changes `request.state`, so the contract is kept. -/
lemma admits_decodes (tokens : List String) : ∀ (g : Decodes) {tr : List (Exchange requestSig)},
    (∀ x ∈ tr, x.after = x.before) → (requestContract tokens).Admits g tr (watch decoded g tr)
  | g, [], _ => .nil g
  | g, x :: tr, h => by
      refine .cons ⟨h x (List.mem_cons_self ..), rfl⟩ ?_
      exact admits_decodes tokens _ fun y hy => h y (List.mem_cons_of_mem _ hy)

/-- When tokens are decoded only as long as none was valid, at most one of them is. -/
lemma length_decodes_le {tr : List (Exchange requestSig)}
    (h : ∀ pre x post token, tr = pre ++ x :: post → x.command = .decode token →
      (decodes pre).valid = []) : (decodes tr).valid.length ≤ 1 := by
  induction tr using List.reverseRecOn with
  | nil => exact Nat.zero_le 1
  | append_singleton tr x ih =>
      have hprefix := ih fun pre y post token heq hcommand =>
        h pre y (post ++ [x]) token (by rw [heq, List.append_assoc, List.cons_append]) hcommand
      rw [decodes_concat]
      have hx := h tr x []
      cases x with
      | mk command before answer after =>
          cases command with
          | decode token =>
              have hnil := hx token rfl rfl
              rw [decoded.eq_def]
              split
              · simp [hnil]
              · exact hprefix
              · exact hprefix
          | loadSecretaryContext | loadAgentContext | loadEvaluatorContext => exact hprefix

variable [UnicodeData]

section OneToken

variable {dependencies : List Dependency} {tr : List (Exchange requestSig)} {token : String}
  (hallowed : ∀ pre x post, tr = pre ++ x :: post →
    AllowedIn (dependencies.filterMap Dependency.token?) (decodes pre) x.command)
  (hone : ∀ dependency ∈ dependencies, ∀ t, dependency.token? = some t → t = token)

include hallowed hone

omit [UnicodeData] in
/-- Every valid token is the one of the request. -/
lemma decodes_valid_eq : ∀ pre post, tr = pre ++ post →
    ∀ p ∈ (decodes pre).valid, p.1 = token := by
  intro pre
  induction pre using List.reverseRecOn with
  | nil => exact fun _ _ p hp => absurd hp List.not_mem_nil
  | append_singleton pre x ih =>
      intro post heq p hp
      rw [List.append_assoc, List.singleton_append] at heq
      have hbefore := ih _ heq
      have hx := hallowed pre x post heq
      rw [decodes_concat, decoded.eq_def] at hp
      split at hp
      · rename_i t payload hcommand _
        rcases List.mem_cons.mp hp with rfl | hp
        · rw [hcommand] at hx
          obtain ⟨dependency, hd, ht⟩ := List.mem_filterMap.mp hx.1
          exact hone dependency hd t ht
        · exact hbefore p hp
      · exact hbefore p hp
      · exact hbefore p hp

omit [UnicodeData] in
/-- A token is decoded only as long as none was valid. -/
lemma decodes_none_valid {pre post : List (Exchange requestSig)} {x : Exchange requestSig}
    {t : String} (heq : tr = pre ++ x :: post) (hcommand : x.command = .decode t) :
    (decodes pre).valid = [] := by
  have hx := hallowed pre x post heq
  rw [hcommand] at hx
  obtain ⟨dependency, hd, ht⟩ := List.mem_filterMap.mp hx.1
  have hsame := hone dependency hd t ht
  cases hdecodes : (decodes pre).valid with
  | nil => rfl
  | cons p rest =>
      have hp := decodes_valid_eq hallowed hone pre _ heq p (hdecodes ▸ List.mem_cons_self ..)
      refine absurd ?_ (hx.2 p.2)
      rw [hdecodes, hsame, ← hp]
      rfl

end OneToken

end Request

section Example

attribute [local instance] asciiData

/-- A route that asks for the payload and for a scope check. -/
def twoDependencies : List Dependency := [.tokenPayload "x", .auth [] "x"]

end Example

end Atsig
