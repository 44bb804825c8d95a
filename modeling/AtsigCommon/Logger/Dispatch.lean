import AtsigCommon.Logger.Formatter

/-!
# Serving a request under its context

`LoggingContextMiddleware.dispatch` of `atsig_common.logger.middleware`.  It sets the context
variables, tells Sentry, calls the application, writes the access log and puts the variables back.
`jwt.decode` without verification is a parameter, and so is the rest of the application, as the
function `call_next` that `dispatch` is given.

* `dispatch` — the method, on a state that holds the context, the log and the calls of Sentry.
* `dispatch_run` — everything that one request does.
* `requests_apart` — what is logged for a request does not depend on the requests before it.
* `secrets_unlogged` — the email of the user and the path of a matched route are in no line and in
  no call of Sentry.
-/

namespace Atsig

open Python

/-! ## Data -/

/-- A request, as `dispatch` reads it. -/
structure ServedRequest where
  method : String
  path : String
  headers : List (String × String)
  client : Option String

/-- A response that is sent. -/
structure ServedResponse where
  statusCode : ℕ
  headers : List (String × String)
  body : String

/-- A call of `sentry_sdk`: `set_tag`, or `set_user` with the id and the email. -/
inductive SentryCall
  | setTag (key value : String)
  | setUser (user : Option (Json × Json))

/-- The context variables, the time, the log and what was told to Sentry. -/
structure ServerState where
  context : LogContext := {}
  clock : ℚ
  log : List (LogContext × LogRecord) := []
  sentry : List SentryCall := []

/-- What `call_next` does: the route that it finds, how long it takes, what it logs, and how it
ends. -/
structure NextResult where
  route : Option String
  elapsed : ℚ
  log : List (LogContext × LogRecord)
  result : Except Raised ServedResponse

/-- `jwt.decode(token, options={"verify_signature": False})` -/
class Jwt where
  decode : String → Except PyException (Dict String Json)

/-- The texts of a time, of a number of seconds with three digits, and of an exception with its
traceback. -/
class LogText where
  time : ℚ → String
  seconds : ℚ → String
  traceback : PyException → String

/-- A step of the server: it may raise, and what it did until then stays done. -/
abbrev ServerM := ExceptT Raised (StateM ServerState)

/-! ## The method -/

section Dispatch

variable [Jwt] [LogText] (includeUserEmail : Bool) (request : ServedRequest) (generated : String)

omit [Jwt] in
/-- `logger.<level>(message)`, with `exc_info` -/
def writeRecord (levelname message : String) (exception : Option String) : ServerM Unit :=
  modify fun s => { s with
    log := s.log ++ [(s.context,
      ⟨LogText.time s.clock, levelname, "atsig_common.logger.middleware", message, exception⟩)] }

omit [Jwt] [LogText] in
def tellSentry (c : SentryCall) : ServerM Unit :=
  modify fun s => { s with sentry := s.sentry ++ [c] }

omit [Jwt] [LogText] in
/-- `<variable>.set(value)`, for any of the three variables. -/
def setContext (f : LogContext → LogContext) : ServerM Unit :=
  modify fun s => { s with context := f s.context }

omit [Jwt] [LogText] in
/-- The token of `Authorization: Bearer`, `auth_header.split(" ")[1]`. -/
def bearerToken : Option String :=
  match receivedHeader request.headers "Authorization" with
  | some header =>
      if "Bearer ".toList.isPrefixOf header.toList then
        some (.ofList ((header.toList.splitOn ' ').getD 1 []))
      else none
  | none => none

omit [Jwt] [LogText] in
/-- `payload.get("sub")`, and `payload.get("email")` unless it is to be left out. -/
def userOf (payload : Dict String Json) : Json × Json :=
  ((payload.get? "sub").getD .null,
    if includeUserEmail then (payload.get? "email").getD .null else .null)

/-- The user of the token, for the logs only. -/
def readUser : ServerM (Json × Json) :=
  match bearerToken request with
  | none => return (.null, .null)
  | some token =>
      match Jwt.decode token with
      | .ok payload => do
          tellSentry (.setUser (some (userOf includeUserEmail payload)))
          return userOf includeUserEmail payload
      | .error e => do
          writeRecord "DEBUG"
            ("Failed to decode JWT token in observability middleware: " ++ e.text) none
          return (.null, .null)

omit [Jwt] [LogText] in
/-- `loggable_path`: the template of the route, or the start of the path. -/
def loggablePath (route : Option String) : String :=
  match route with
  | some template => if template ≠ "" then template else .ofList (request.path.toList.take 200)
  | none => .ofList (request.path.toList.take 200)

omit [Jwt] [LogText] in
/-- `headers[key] = value`: in place of the first header of this name, and without the others. -/
def setHeader (key value : String) : List (String × String) → List (String × String)
  | [] => [(key.toLower, value)]
  | (k, v) :: headers =>
      if k.toLower = key.toLower then
        (key.toLower, value) :: headers.filter fun p => p.1.toLower ≠ key.toLower
      else (k, v) :: setHeader key value headers

variable (callNext : LogContext → NextResult)

omit [Jwt] in
/-- The `try` block of `dispatch`, with its `except`. -/
def serve (requestId : String) : ServerM ServedResponse := do
  let next := callNext (← get).context
  modify fun s => { s with clock := s.clock + next.elapsed, log := s.log ++ next.log }
  match next.result with
  | .ok response => do
      writeRecord "INFO"
        (request.client.getD "unknown" ++ " - \"" ++ request.method ++ " "
          ++ loggablePath request next.route ++ "\" " ++ toString response.statusCode ++ " ("
          ++ LogText.seconds next.elapsed ++ "s)") none
      return { response with headers := setHeader "X-Request-ID" requestId response.headers }
  | .error (.exception e) => do
      writeRecord "ERROR"
        ("Unhandled exception during " ++ request.method ++ " "
          ++ loggablePath request next.route) (some (LogText.traceback e))
      throw (.exception e)
  | .error .cancelled => throw .cancelled

omit [Jwt] [LogText] in
/-- `try: body finally: last` -/
def finallyDo (body : ServerM ServedResponse) (last : ServerM Unit) : ServerM ServedResponse := do
  let r ← ExceptT.lift body.run
  last
  match r with
  | .ok response => return response
  | .error e => throw e

/-- `dispatch` -/
def dispatch : ServerM ServedResponse := do
  let previous := (← get).context
  let requestId := dispatchRequestId request.headers generated
  setContext fun ctx => { ctx with requestId }
  tellSentry (.setTag "request_id" requestId)
  let (userId, userEmail) ← readUser includeUserEmail request
  setContext fun ctx => { ctx with userId }
  setContext fun ctx => { ctx with userEmail }
  finallyDo (serve request callNext requestId) do
    setContext fun _ => previous
    tellSentry (.setUser none)

/-! ## What one request does -/

/-- What the token says of the user; nothing when it can not be decoded. -/
def tokenUser : Json × Json :=
  match bearerToken request with
  | none => (.null, .null)
  | some token =>
      match Jwt.decode token with
      | .ok payload => userOf includeUserEmail payload
      | .error _ => (.null, .null)

/-- What Sentry is told of the user. -/
def tokenCalls : List SentryCall :=
  match bearerToken request with
  | none => []
  | some token =>
      match Jwt.decode token with
      | .ok payload => [.setUser (some (userOf includeUserEmail payload))]
      | .error _ => []

/-- The line about a token that can not be decoded. -/
def tokenLines (ctx : LogContext) (clock : ℚ) : List (LogContext × LogRecord) :=
  match bearerToken request with
  | none => []
  | some token =>
      match Jwt.decode token with
      | .ok _ => []
      | .error e => [(ctx, ⟨LogText.time clock, "DEBUG", "atsig_common.logger.middleware",
          "Failed to decode JWT token in observability middleware: " ++ e.text, none⟩)]

/-- The context in which a request is served. -/
def requestContext : LogContext :=
  ⟨dispatchRequestId request.headers generated, (tokenUser includeUserEmail request).1,
    (tokenUser includeUserEmail request).2⟩

omit [Jwt] in
/-- The last line of a request: of the access log, or of an exception. -/
def lastRecord (next : NextResult) (clock : ℚ) : List LogRecord :=
  match next.result with
  | .ok response => [⟨LogText.time clock, "INFO", "atsig_common.logger.middleware",
      request.client.getD "unknown" ++ " - \"" ++ request.method ++ " "
        ++ loggablePath request next.route ++ "\" " ++ toString response.statusCode ++ " ("
        ++ LogText.seconds next.elapsed ++ "s)", none⟩]
  | .error (.exception e) => [⟨LogText.time clock, "ERROR", "atsig_common.logger.middleware",
      "Unhandled exception during " ++ request.method ++ " " ++ loggablePath request next.route,
      some (LogText.traceback e)⟩]
  | .error .cancelled => []

omit [Jwt] [LogText] in
/-- How a request ends: the response has the id of the request. -/
def servedResult (requestId : String) (next : NextResult) : Except Raised ServedResponse :=
  next.result.map fun response =>
    { response with headers := setHeader "X-Request-ID" requestId response.headers }

omit [Jwt] in
lemma serve_run (requestId : String) (s : ServerState) :
    serve request callNext requestId s
      = (servedResult requestId (callNext s.context), { s with
          clock := s.clock + (callNext s.context).elapsed
          log := s.log ++ (callNext s.context).log
            ++ (lastRecord request (callNext s.context)
                (s.clock + (callNext s.context).elapsed)).map
                  fun record => (s.context, record) }) := by
  have hserve : serve request callNext requestId s
      = (match (callNext s.context).result with
        | .ok response => do
            writeRecord "INFO"
              (request.client.getD "unknown" ++ " - \"" ++ request.method ++ " "
                ++ loggablePath request (callNext s.context).route ++ "\" "
                ++ toString response.statusCode ++ " ("
                ++ LogText.seconds (callNext s.context).elapsed ++ "s)") none
            return { response with
              headers := setHeader "X-Request-ID" requestId response.headers }
        | .error (.exception e) => do
            writeRecord "ERROR"
              ("Unhandled exception during " ++ request.method ++ " "
                ++ loggablePath request (callNext s.context).route) (some (LogText.traceback e))
            throw (.exception e)
        | .error .cancelled => throw .cancelled : ServerM ServedResponse)
          { s with
            clock := s.clock + (callNext s.context).elapsed
            log := s.log ++ (callNext s.context).log } := rfl
  rw [hserve, servedResult, lastRecord]
  cases (callNext s.context).result with
  | ok response => rfl
  | error e =>
      cases e with
      | exception e => rfl
      | cancelled =>
          dsimp only
          rw [List.map_nil, List.append_nil]
          rfl

omit [Jwt] [LogText] in
/-- Go on after a step that returned. -/
lemma ServerM.bind_ok {α β : Type} {x : ServerM α} {f : α → ServerM β} {s s' : ServerState} {a : α}
    (h : x s = (.ok a, s')) : (x >>= f) s = f a s' := by
  show (ExceptT.bindCont f (x s).1 : StateM ServerState _) (x s).2 = _
  rw [h]
  rfl

omit [Jwt] [LogText] in
/-- The last step is made either way. -/
lemma finallyDo_run {body : ServerM ServedResponse} {last : ServerM Unit}
    {s s' s'' : ServerState} {r : Except Raised ServedResponse} (hbody : body s = (r, s'))
    (hlast : last s' = (.ok (), s'')) : finallyDo body last s = (r, s'') := by
  have hlift : (ExceptT.lift body.run : ServerM _) s = (.ok r, s') := by
    show ((.ok (body s).1, (body s).2) : Except Raised _ × ServerState) = _
    rw [hbody]
  rw [finallyDo, ServerM.bind_ok hlift, ServerM.bind_ok hlast]
  cases r <;> rfl

lemma readUser_run (s : ServerState) :
    readUser includeUserEmail request s
      = (.ok (tokenUser includeUserEmail request), { s with
          log := s.log ++ tokenLines request s.context s.clock
          sentry := s.sentry ++ tokenCalls includeUserEmail request }) := by
  rw [readUser, tokenUser, tokenLines, tokenCalls]
  cases bearerToken request with
  | none =>
      dsimp only
      rw [List.append_nil, List.append_nil]
      rfl
  | some token =>
      dsimp only
      cases Jwt.decode token with
      | ok payload =>
          dsimp only
          rw [List.append_nil]
          rfl
      | error e =>
          dsimp only
          rw [List.append_nil]
          rfl

/-- **One request.**  It puts the context back however it ends, and everything it logs and tells
Sentry is known from the request, the token and what `call_next` does in its context. -/
theorem dispatch_run (s : ServerState) :
    dispatch includeUserEmail request generated callNext s
      = (let ctx := requestContext includeUserEmail request generated
        let next := callNext ctx
        (servedResult ctx.requestId next, {
          context := s.context
          clock := s.clock + next.elapsed
          log := s.log
            ++ tokenLines request { s.context with requestId := ctx.requestId } s.clock
            ++ next.log
            ++ (lastRecord request next (s.clock + next.elapsed)).map fun record => (ctx, record)
          sentry := s.sentry ++ [.setTag "request_id" ctx.requestId]
            ++ tokenCalls includeUserEmail request ++ [.setUser none] })) := by
  let requestId := dispatchRequestId request.headers generated
  let ctx := requestContext includeUserEmail request generated
  -- the request id is set, and the user is read
  let s₁ : ServerState := { s with
    context := { s.context with requestId }
    sentry := s.sentry ++ [.setTag "request_id" requestId] }
  let s₂ : ServerState := { s₁ with
    log := s₁.log ++ tokenLines request s₁.context s₁.clock
    sentry := s₁.sentry ++ tokenCalls includeUserEmail request }
  have hread : readUser includeUserEmail request s₁
      = (.ok (tokenUser includeUserEmail request), s₂) := readUser_run includeUserEmail request s₁
  have hstart : dispatch includeUserEmail request generated callNext s
      = (readUser includeUserEmail request >>= fun user => do
          setContext fun ctx => { ctx with userId := user.1 }
          setContext fun ctx => { ctx with userEmail := user.2 }
          finallyDo (serve request callNext requestId) do
            setContext fun _ => s.context
            tellSentry (.setUser none) : ServerM ServedResponse) s₁ := rfl
  -- the application is called in the context of the request
  have hserve := serve_run request callNext requestId { s₂ with context := ctx }
  have hset : ∀ (f : LogContext → LogContext) (s : ServerState),
      setContext f s = (.ok (), { s with context := f s.context }) := fun _ _ => rfl
  rw [hstart, ServerM.bind_ok hread, ServerM.bind_ok (hset _ s₂), ServerM.bind_ok (hset _ _)]
  refine finallyDo_run hserve ?_
  rfl

end Dispatch

/-! ## Requests one after another -/

/-- A request with the id that would be generated for it, and the application that answers it. -/
structure Served where
  request : ServedRequest
  generated : String
  callNext : LogContext → NextResult

section ServeAll

variable [Jwt] [LogText] (includeUserEmail : Bool)

/-- The context in which a request is served. -/
def Served.context (r : Served) : LogContext :=
  requestContext includeUserEmail r.request r.generated

/-- `dispatch`, for one request after another: what each ends with, and the state at the end. -/
def serveAll : List Served → ServerState → List (Except Raised ServedResponse) × ServerState
  | [], s => ([], s)
  | r :: rest, s =>
      let first := dispatch includeUserEmail r.request r.generated r.callNext s
      let others := serveAll rest first.2
      (first.1 :: others.1, others.2)

/-- The lines of a request and its end: they are what they would be for this request alone, at some
time; every line is written in its context, and the response tells its id. -/
structure Served.Apart (r : Served)
    (end_ : Except Raised ServedResponse × List (LogContext × LogRecord)) : Prop where
  context : ∀ line ∈ end_.2, line.1 = r.context includeUserEmail
  alone : ∃ clock : ℚ,
    dispatch includeUserEmail r.request r.generated r.callNext ({ clock } : ServerState)
      = (end_.1, (dispatch includeUserEmail r.request r.generated r.callNext
          ({ clock } : ServerState)).2)
      ∧ end_.2 = (dispatch includeUserEmail r.request r.generated r.callNext
          ({ clock } : ServerState)).2.log
  response : ∀ response, end_.1 = .ok response →
    receivedHeader response.headers "X-Request-ID" = some (r.context includeUserEmail).requestId

omit [Jwt] [LogText] in
lemma char_toLower_toLower (c : Char) : c.toLower.toLower = c.toLower := by
  by_cases h : 'A'.val ≤ c.val ∧ c.val ≤ 'Z'.val
  · have hval : c.toLower.val = c.val + 32 := by
      change (dite _ _ _ : Char).val = _
      rw [dif_pos h]
      rfl
    have hle : c.val.toNat ≤ 90 := UInt32.le_iff_toNat_le.mp h.2
    -- a small letter is behind the capital ones
    have hnot : ¬ ('A'.val ≤ c.toLower.val ∧ c.toLower.val ≤ 'Z'.val) := by
      rintro ⟨-, hsmall⟩
      have hadd : (c.val + 32).toNat ≤ 90 := by
        rw [← hval]
        exact UInt32.le_iff_toNat_le.mp hsmall
      have hge : 65 ≤ c.val.toNat := UInt32.le_iff_toNat_le.mp h.1
      rw [UInt32.toNat_add, show UInt32.toNat 32 = 32 from rfl] at hadd
      omega
    exact dif_neg hnot
  · have hsame : c.toLower = c := dif_neg h
    rw [hsame, hsame]

omit [Jwt] [LogText] in
lemma toLower_toLower (key : String) : key.toLower.toLower = key.toLower := by
  apply String.toList_inj.mp
  have hlist : ∀ s : String, s.toLower.toList = s.toList.map Char.toLower := fun s =>
    String.toList_map
  rw [hlist, hlist, List.map_map]
  exact List.map_congr_left fun c _ => char_toLower_toLower c

omit [Jwt] [LogText] in
/-- The header that is set is the one that is read. -/
lemma receivedHeader_setHeader (key value : String) : ∀ headers : List (String × String),
    receivedHeader (setHeader key value headers) key = some value
  | [] => by
      rw [setHeader, receivedHeader, List.map_singleton, toLower_toLower, lookup_cons_self]
  | (k, v) :: headers => by
      have ih := receivedHeader_setHeader key value headers
      rw [setHeader]
      split_ifs with hk
      · rw [receivedHeader, List.map_cons, toLower_toLower, lookup_cons_self]
      · rw [receivedHeader] at ih ⊢
        rw [List.map_cons, lookup_cons_of_ne (fun h => hk h.symm), ih]

omit [Jwt] [LogText] in
lemma servedResult_ok {requestId : String} {next : NextResult} {response : ServedResponse}
    (h : servedResult requestId next = .ok response) :
    ∃ inner, next.result = .ok inner
      ∧ response = { inner with headers := setHeader "X-Request-ID" requestId inner.headers } := by
  rw [servedResult] at h
  cases hresult : next.result with
  | ok inner =>
      rw [hresult] at h
      exact ⟨inner, rfl, (Except.ok.inj h).symm⟩
  | error e =>
      rw [hresult] at h
      cases h

/-- A token that can not be decoded says nothing of the user, so the line about it is in the context
of the request. -/
lemma tokenLines_context (request : ServedRequest) (generated : String) (clock : ℚ) :
    ∀ line ∈ tokenLines request
        { requestId := dispatchRequestId request.headers generated } clock,
      line.1 = requestContext includeUserEmail request generated := by
  intro line hline
  rw [tokenLines] at hline
  rw [requestContext, tokenUser]
  cases htoken : bearerToken request with
  | none =>
      rw [htoken] at hline
      cases hline
  | some token =>
      rw [htoken] at hline
      dsimp only at hline ⊢
      cases hdecode : Jwt.decode token with
      | ok payload =>
          rw [hdecode] at hline
          cases hline
      | error e =>
          rw [hdecode] at hline
          rw [List.mem_singleton.mp hline]

/-- **The step.**  A request that is served in the default context is apart, and leaves the default
context behind. -/
lemma dispatch_apart (r : Served) {s : ServerState} (hs : s.context = {})
    (happ : ∀ ctx, ∀ line ∈ (r.callNext ctx).log, line.1 = ctx) :
    ∃ part, (dispatch includeUserEmail r.request r.generated r.callNext s).2.log = s.log ++ part
      ∧ (dispatch includeUserEmail r.request r.generated r.callNext s).2.context = {}
      ∧ r.Apart includeUserEmail
        ((dispatch includeUserEmail r.request r.generated r.callNext s).1, part) := by
  have halone := dispatch_run includeUserEmail r.request r.generated r.callNext
    ({ clock := s.clock } : ServerState)
  dsimp only at halone
  rw [dispatch_run, hs]
  dsimp only
  refine ⟨_, by rw [List.append_assoc, List.append_assoc], rfl, ?_, ⟨s.clock, ?_, ?_⟩, ?_⟩
  · intro line hline
    rcases List.mem_append.mp hline with hline | hline
    · exact tokenLines_context includeUserEmail r.request r.generated s.clock line hline
    · rcases List.mem_append.mp hline with hline | hline
      · exact happ _ line hline
      · obtain ⟨record, -, rfl⟩ := List.mem_map.mp hline
        rfl
  · rw [halone]
  · rw [halone]
    dsimp only
    rw [List.nil_append, List.append_assoc]
  · intro response hresponse
    obtain ⟨inner, -, rfl⟩ := servedResult_ok hresponse
    exact receivedHeader_setHeader _ _ _

/-- **Requests stay apart.**  However each of them ends, the log is made of one part for each
request, in their order: what the request logs alone, every line in its own context; its response
tells its id, and after it the context is the default one again. -/
theorem requests_apart (requests : List Served) (s : ServerState) (hs : s.context = {})
    (happ : ∀ r ∈ requests, ∀ ctx, ∀ line ∈ (r.callNext ctx).log, line.1 = ctx) :
    ∃ parts : List (List (LogContext × LogRecord)),
      (serveAll includeUserEmail requests s).2.log = s.log ++ parts.flatten
        ∧ (serveAll includeUserEmail requests s).2.context = {}
        ∧ (serveAll includeUserEmail requests s).1.length = parts.length
        ∧ List.Forall₂ (fun r end_ => r.Apart includeUserEmail end_) requests
          ((serveAll includeUserEmail requests s).1.zip parts) := by
  induction requests generalizing s with
  | nil => exact ⟨[], (List.append_nil _).symm, hs, rfl, .nil⟩
  | cons r rest ih =>
      obtain ⟨part, hlog, hcontext, hapart⟩ :=
        dispatch_apart includeUserEmail r hs (happ r (List.mem_cons_self ..))
      obtain ⟨parts, hlogs, hcontexts, hlength, haparts⟩ := ih _ hcontext
        fun r' hr' => happ r' (List.mem_cons_of_mem _ hr')
      refine ⟨part :: parts, ?_, hcontexts, ?_, ?_⟩
      · rw [serveAll]
        dsimp only
        rw [hlogs, hlog, List.flatten_cons, List.append_assoc]
      · rw [serveAll]
        dsimp only
        rw [List.length_cons, List.length_cons, hlength]
      · rw [serveAll]
        exact .cons hapart haparts

end ServeAll

section Instances

/-- No token can be decoded. -/
@[reducible] def noJwt : Jwt where
  decode _ := .error ⟨.other, "DecodeError", "Not enough segments"⟩

@[reducible] def plainText : LogText where
  time t := toString t
  seconds t := toString t
  traceback e := e.text

attribute [local instance] noJwt plainText

/-- An application that logs one line and then fails. -/
def failingApp (ctx : LogContext) : NextResult where
  route := some "/references/\x7btoken\x7d"
  elapsed := 1
  log := [(ctx, ⟨"", "INFO", "app", "working", none⟩)]
  result := .error (.exception ⟨.other, "RuntimeError", "no"⟩)

/-- A request with a token and an id, and one with neither. -/
def twoRequests : List Served :=
  [⟨⟨"GET", "/references/s3cret", [("authorization", "Bearer x"), ("x-request-id", "abc")], none⟩,
      "11111111", failingApp⟩,
    ⟨⟨"GET", "/references/t0ken", [], some "10.0.0.1"⟩, "22222222", failingApp⟩]

/-- A request that fails leaves nothing to the next one. -/
theorem requests_apart_failed :
    ∃ parts : List (List (LogContext × LogRecord)),
      (serveAll true twoRequests { clock := 0 }).2.log = [] ++ parts.flatten
        ∧ (serveAll true twoRequests { clock := 0 }).2.context = {}
        ∧ (serveAll true twoRequests { clock := 0 }).1.length = parts.length
        ∧ List.Forall₂ (fun r end_ => r.Apart true end_) twoRequests
          ((serveAll true twoRequests { clock := 0 }).1.zip parts) := by
  refine requests_apart true twoRequests { clock := 0 } rfl fun r hr ctx line hline => ?_
  have happ : r.callNext = failingApp := by
    rcases List.mem_cons.mp hr with rfl | hr
    · rfl
    · rw [List.mem_singleton.mp hr]
  rw [happ] at hline
  rw [List.mem_singleton.mp hline]

end Instances

/-! ## What is not logged -/

section Secrets

variable [Jwt] [LogText]

/-- The payloads have the same `sub`, or the decoding failed with the same text. -/
def SameButEmail : Except PyException (Dict String Json) → Except PyException (Dict String Json) →
    Prop
  | .ok payload, .ok payload' => payload.get? "sub" = payload'.get? "sub"
  | .error e, .error e' => e.text = e'.text
  | _, _ => False

/-- The requests are the same, with the exception of the path and of what the token says besides
the id of the user. -/
structure SameButSecrets (request request' : ServedRequest) : Prop where
  method : request.method = request'.method
  client : request.client = request'.client
  requestId : receivedHeader request.headers "X-Request-ID"
    = receivedHeader request'.headers "X-Request-ID"
  token : Option.Rel SameButEmail ((bearerToken request).map Jwt.decode)
    ((bearerToken request').map Jwt.decode)

omit [Jwt] [LogText] in
/-- What is shown of a path: the template of the route, when the router found one that has a
template, and otherwise the start of the path. -/
inductive ShownAs (request : ServedRequest) : Option String → String → Prop
  | template (text : String) (h : text ≠ "") : ShownAs request (some text) text
  | unnamed : ShownAs request (some "") (.ofList (request.path.toList.take 200))
  | unmatched : ShownAs request none (.ofList (request.path.toList.take 200))

omit [Jwt] [LogText] in
lemma shownAs_iff {request : ServedRequest} {route : Option String} {text : String} :
    ShownAs request route text ↔ text = loggablePath request route := by
  constructor
  · intro h
    cases h with
    | template text h => exact (if_pos h).symm
    | unnamed => rfl
    | unmatched => rfl
  · rintro rfl
    cases route with
    | none => exact .unmatched
    | some template =>
        by_cases htemplate : template = ""
        · subst htemplate
          exact .unnamed
        · rw [loggablePath, if_pos htemplate]
          exact .template template htemplate

omit [Jwt] [LogText] in
lemma shownAlike_iff (request request' : ServedRequest) (route route' : Option String) :
    (∃ text, ShownAs request route text ∧ ShownAs request' route' text)
      ↔ loggablePath request route = loggablePath request' route' := by
  simp only [shownAs_iff, exists_eq_left]

/-- The router may find other routes; the rest of the application does the same, and is not
cancelled. -/
structure SameButRoute (next next' : NextResult) : Prop where
  elapsed : next.elapsed = next'.elapsed
  log : next.log = next'.log
  result : next.result = next'.result
  ended : next.result ≠ .error .cancelled

variable {request request' : ServedRequest} (h : SameButSecrets request request')

include h

/-- What is read of the token is the same, when the email is left out. -/
lemma SameButSecrets.token_eq : tokenUser false request = tokenUser false request'
    ∧ tokenCalls false request = tokenCalls false request'
    ∧ ∀ ctx clock, tokenLines request ctx clock = tokenLines request' ctx clock := by
  have htoken := h.token
  simp only [tokenUser, tokenCalls, tokenLines]
  cases hb : bearerToken request with
  | none =>
      cases hb' : bearerToken request' with
      | none => exact ⟨rfl, rfl, fun _ _ => rfl⟩
      | some token' =>
          rw [hb, hb'] at htoken
          cases htoken
  | some token =>
      cases hb' : bearerToken request' with
      | none =>
          rw [hb, hb'] at htoken
          cases htoken
      | some token' =>
          rw [hb, hb'] at htoken
          rcases htoken with ⟨hsame⟩
          dsimp only
          cases hd : Jwt.decode token with
          | ok payload =>
              cases hd' : Jwt.decode token' with
              | ok payload' =>
                  rw [hd, hd'] at hsame
                  have huser : userOf false payload = userOf false payload' := by
                    rw [userOf, userOf, show payload.get? "sub" = payload'.get? "sub" from hsame]
                    rfl
                  refine ⟨huser, ?_, fun _ _ => rfl⟩
                  dsimp only
                  rw [huser]
              | error e' =>
                  rw [hd, hd'] at hsame
                  exact hsame.elim
          | error e =>
              cases hd' : Jwt.decode token' with
              | ok payload' =>
                  rw [hd, hd'] at hsame
                  exact hsame.elim
              | error e' =>
                  rw [hd, hd'] at hsame
                  refine ⟨rfl, rfl, fun _ _ => ?_⟩
                  dsimp only
                  rw [show e.text = e'.text from hsame]

/-- The last lines of the two requests are the same if and only if the same is shown of their
paths. -/
lemma SameButSecrets.lastRecord_eq_iff {next next' : NextResult} (hsame : SameButRoute next next')
    (clock : ℚ) : lastRecord request next clock = lastRecord request' next' clock
      ↔ loggablePath request next.route = loggablePath request' next'.route := by
  obtain ⟨helapsed, -, hends, hended⟩ := hsame
  rw [lastRecord, lastRecord, h.method, h.client, ← hends, ← helapsed]
  cases hresult : next.result with
  | ok response =>
      refine ⟨fun hrecord => ?_, fun hpath => by rw [hpath]⟩
      have hmessage := (LogRecord.mk.inj (List.cons.inj hrecord).1).2.2.2.1
      have hlist := congrArg String.toList hmessage
      simp only [String.toList_append, List.append_assoc] at hlist
      have hpath := List.append_cancel_left (List.append_cancel_left (List.append_cancel_left
        (List.append_cancel_left hlist)))
      exact String.toList_inj.mp (List.append_cancel_right hpath)
  | error e =>
      cases e with
      | exception e =>
          refine ⟨fun hrecord => ?_, fun hpath => by rw [hpath]⟩
          have hmessage := (LogRecord.mk.inj (List.cons.inj hrecord).1).2.2.2.1
          have hlist := congrArg String.toList hmessage
          simp only [String.toList_append, List.append_assoc] at hlist
          have hpath := List.append_cancel_left (List.append_cancel_left
            (List.append_cancel_left hlist))
          exact String.toList_inj.mp hpath
      | cancelled => exact absurd hresult hended

/-- **Secrets are not logged.**  With `include_user_email=False`, two requests that differ in their
paths and in what their tokens say besides the id of the user, and with which the application does
the same, do exactly the same here (the log, the calls of Sentry and the response are equal) if and
only if what is shown of their paths is the same. -/
theorem secrets_unlogged (generated : String) (app : ServedRequest → LogContext → NextResult)
    (s : ServerState)
    (hsame : SameButRoute (app request (requestContext false request generated))
      (app request' (requestContext false request' generated))) :
    dispatch false request generated (app request) s
        = dispatch false request' generated (app request') s
      ↔ ∃ text, ShownAs request (app request (requestContext false request generated)).route text
        ∧ ShownAs request' (app request' (requestContext false request' generated)).route text := by
  obtain ⟨huser, hcalls, hlines⟩ := h.token_eq
  have hcontext : requestContext false request generated
      = requestContext false request' generated := by
    simp only [requestContext, dispatchRequestId, huser, h.requestId]
  rw [dispatch_run, dispatch_run, ← hcalls]
  rw [← hcontext] at hsame ⊢
  simp only [← hlines]
  generalize requestContext false request generated = ctx at *
  generalize app request ctx = next at *
  generalize app request' ctx = next' at *
  rw [shownAlike_iff]
  constructor
  · intro heq
    have hlog := congrArg (fun r => r.2.log) heq
    dsimp only at hlog
    rw [← hsame.log, ← hsame.elapsed] at hlog
    have hlast := List.append_cancel_left hlog
    have hrecord := List.map_injective_iff.mpr (fun a b hab => (Prod.mk.inj hab).2) hlast
    exact (h.lastRecord_eq_iff hsame _).mp hrecord
  · intro hpath
    have hrecord : ∀ clock, lastRecord request next clock = lastRecord request' next' clock :=
      fun clock => (h.lastRecord_eq_iff hsame clock).mpr hpath
    have hserved : ∀ requestId, servedResult requestId next = servedResult requestId next' := by
      intro requestId
      rw [servedResult, servedResult, hsame.result]
    simp only [hrecord, hserved, hsame.log, hsame.elapsed]

end Secrets

section SecretsExample

attribute [local instance] noJwt plainText

/-- The token in the path of a matched route is not logged. -/
theorem secrets_unlogged_token :
    dispatch false ⟨"GET", "/references/s3cret", [], none⟩ "11111111" failingApp { clock := 0 }
      = dispatch false ⟨"GET", "/references/t0ken", [], none⟩ "11111111" failingApp
        { clock := 0 } := by
  have hsame : SameButSecrets ⟨"GET", "/references/s3cret", [], none⟩
      ⟨"GET", "/references/t0ken", [], none⟩ := ⟨rfl, rfl, rfl, .none⟩
  refine (secrets_unlogged hsame "11111111" (fun _ => failingApp) { clock := 0 }
    ⟨rfl, rfl, rfl, nofun⟩).mpr ?_
  exact ⟨_, .template _ (by decide), .template _ (by decide)⟩

end SecretsExample

end Atsig
