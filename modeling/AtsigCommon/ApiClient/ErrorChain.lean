import AtsigCommon.ApiClient.Request
import AtsigCommon.Python.JsonText

/-!
# Errors across services

A service answers an error with the handlers of `setup_exception_handlers`
(`atsig_common.fastapi_utils`); the service that called it reads the answer in `_request` and raises
an error of its own, which its handlers answer in turn.  What the user sees has gone through any
number of services.

* `handleError` — the response of a service to each of the errors.
* `Relayed` — an error that goes through services, one `_request` each.
* `ServiceError.passedOn` — what comes out at the end.
* `error_relayed` — a 400, 404 or 409 arrives as it was raised, and of everything else nothing
  arrives but that it failed.
-/

namespace Atsig

open Coroutine Python Uri

/-! ## The handlers -/

/-- An error of `RequestValidationError.errors()`, as far as the handler reads it, and the input
that it does not read. -/
structure ValidationIssue where
  type : Json
  loc : List Json
  msg : Json
  input : Json

/-- The exceptions that the handlers answer.  A class without a handler of its own is answered as
the nearest of its bases. -/
inductive ServiceError
  | validation (errors : List ValidationIssue)
  | atsig (message : Json)
  | notFound (message : Json)
  | forbidden (message : Json)
  | unauthorized (message : Json)
  | badRequest (message : Json)
  | conflict (message : Json)
  | serviceUnavailable (message : Json)
  | upstream (e : UpstreamError)

section Handlers

variable [FloatText]

/-- The text of `JSONResponse.render`. -/
def renderText (content : Json) : String := dumpsText ⟨false, false⟩ content

/-- `JSONResponse(status_code, content, headers)` -/
def jsonResponse (statusCode : ℕ) (content : Json) (headers : List (String × String)) :
    HttpResponse where
  statusCode := statusCode
  headers := headers
    ++ [("content-length", toString (utf8 (renderText content).toList).length),
      ("content-type", "application/json")]
  content := utf8 (renderText content).toList

/-- `JSONResponse(status_code, {"detail": detail})` -/
def detailResponse (statusCode : ℕ) (detail : Json) (headers : List (String × String)) :
    HttpResponse :=
  jsonResponse statusCode (.obj [("detail", detail)]) headers

omit [FloatText] in
/-- What `validation_error_handler` keeps of an error. -/
def ValidationIssue.shown (error : ValidationIssue) : Json :=
  .obj [("type", error.type), ("loc", .arr error.loc), ("msg", error.msg)]

def validationErrorHandler (errors : List ValidationIssue) : HttpResponse :=
  detailResponse 422 (.arr (errors.map ValidationIssue.shown)) []

def atsigErrorHandler (message : Json) : HttpResponse := detailResponse 500 message []

def notFoundHandler (message : Json) : HttpResponse := detailResponse 404 message []

def forbiddenHandler (message : Json) : HttpResponse := detailResponse 403 message []

def unauthorizedHandler (message : Json) : HttpResponse := detailResponse 401 message []

def badRequestHandler (message : Json) : HttpResponse := detailResponse 400 message []

def conflictHandler (message : Json) : HttpResponse := detailResponse 409 message []

def serviceUnavailableHandler (message : Json) : HttpResponse :=
  detailResponse 503 message [("retry-after", "5")]

def upstreamErrorHandler (e : UpstreamError) : HttpResponse :=
  detailResponse e.statusCode (.str e.message) []

/-- The handlers that `setup_exception_handlers` registers. -/
def handleError : ServiceError → HttpResponse
  | .validation errors => validationErrorHandler errors
  | .atsig message => atsigErrorHandler message
  | .notFound message => notFoundHandler message
  | .forbidden message => forbiddenHandler message
  | .unauthorized message => unauthorizedHandler message
  | .badRequest message => badRequestHandler message
  | .conflict message => conflictHandler message
  | .serviceUnavailable message => serviceUnavailableHandler message
  | .upstream e => upstreamErrorHandler e

end Handlers

/-! ## From service to service -/

/-- The exception of a call, when it is one that the handlers answer. -/
def ApiRaised.serviceError : ApiRaised → Option ServiceError
  | .notFound detail => some (.notFound detail)
  | .conflict detail => some (.conflict detail)
  | .badRequest detail => some (.badRequest detail)
  | .upstream e => some (.upstream e)
  | .cancelled | .requestError _ | .exception _ => none

/-- The call in which a service meets the error. -/
structure ServiceCall where
  api : BaseAPI
  call : Call
  raw : Bool
  headers : Dict String String
  state : ApiState

section Relay

variable [FloatText] [Httpx]

/-- An error that is answered, raised by `_request` in the service that called, answered there, and
so on; no service on the way catches it. -/
inductive Relayed : List ServiceCall → ServiceError → ServiceError → Prop
  | nil (e : ServiceError) : Relayed [] e e
  | cons (call : ServiceCall) (calls : List ServiceCall) (e e' e'' : ServiceError)
      (raised : ApiRaised)
      (hends : EndsWith call.api call.call call.raw call.headers call.state (.ok (handleError e))
        (.error raised))
      (hraised : raised.serviceError = some e') (hrest : Relayed calls e' e'') :
      Relayed (call :: calls) e e''

/-- How `httpx` reads a response in UTF-8: `json` decodes what starts as an object does, and `text`
what has no charset in its type. -/
structure ReadsUtf8 : Prop where
  json : ∀ (response : HttpResponse) (text : String) (cs : List Char),
    response.content = utf8 text.toList → text.toList = '\x7b' :: '"' :: cs →
    Httpx.json response = loadsText text
  text : ∀ (response : HttpResponse) (text : String), response.content = utf8 text.toList →
    response.contentType = "application/json" → Httpx.text response = .ok text

omit [Httpx] in
/-- The detail that is read of a response: itself, or the whole text in the place of a detail that
is empty. -/
def passedDetail (detail : Json) : Json :=
  if detail.truthy then detail else .str (renderText (.obj [("detail", detail)]))

omit [Httpx] in
/-- What becomes of an error on its way. -/
def ServiceError.passedOn : ServiceError → ServiceError
  | .notFound message => .notFound (passedDetail message)
  | .conflict message => .conflict (passedDetail message)
  | .badRequest message => .badRequest (passedDetail message)
  | _ => .upstream {}

omit [FloatText] [Httpx] in
/-- The errors that the library raises: the status of an upstream error is one of a server, and the
message of what is passed on can be read back. -/
def ServiceError.Regular : ServiceError → Prop
  | .notFound message | .conflict message | .badRequest message => message.Plain
  | .upstream e => 500 ≤ e.statusCode
  | _ => True

omit [FloatText] [Httpx] in
/-- The errors that arrive as they were raised. -/
def ServiceError.Unchanged : ServiceError → Prop
  | .notFound message | .conflict message | .badRequest message => message.truthy = true
  | .upstream e => e = {}
  | _ => False

omit [Httpx] in
/-- Every response of a handler has one `content-type`. -/
lemma contentType_detailResponse (statusCode : ℕ) (detail : Json)
    {headers : List (String × String)} (h : headers = [] ∨ headers = [("retry-after", "5")]) :
    (detailResponse statusCode detail headers).contentType = "application/json" := by
  have hlength : "content-length".toLower ≠ "content-type" := by decide +kernel
  have htype : "content-type".toLower = "content-type" := by decide +kernel
  have hretry : "retry-after".toLower ≠ "content-type" := by decide +kernel
  rcases h with rfl | rfl
  · simp only [HttpResponse.contentType, detailResponse, jsonResponse, List.nil_append]
    simp [hlength, htype]
  · simp only [HttpResponse.contentType, detailResponse, jsonResponse]
    simp [hlength, htype, hretry]

omit [FloatText] [Httpx] in
lemma plain_detail {detail : Json} (h : detail.Plain) : (Json.obj [("detail", detail)]).Plain := by
  refine .obj _ (List.nodup_singleton _) fun p hp => ?_
  rw [List.mem_singleton.mp hp]
  exact h

omit [Httpx] in
/-- The text of a response starts as an object does. -/
lemma renderText_detail (detail : Json) :
    ∃ cs, (renderText (.obj [("detail", detail)])).toList = '\x7b' :: '"' :: cs := by
  rw [renderText, dumpsText, String.toList_ofList, writeJson, writeMembers]
  exact ⟨_, rfl⟩

omit [Httpx] in
lemma renderText_ne_empty (detail : Json) : renderText (.obj [("detail", detail)]) ≠ "" := by
  obtain ⟨cs, hcs⟩ := renderText_detail detail
  intro h
  rw [h] at hcs
  cases hcs

variable (hreads : ReadsUtf8)

include hreads

/-- The detail of a response is the one that the handler put there. -/
lemma errorDetail_detailResponse (statusCode : ℕ) {detail : Json} (hplain : detail.Plain)
    {headers : List (String × String)} (h : headers = [] ∨ headers = [("retry-after", "5")]) :
    errorDetail (detailResponse statusCode detail headers) = .ok (passedDetail detail) := by
  obtain ⟨cs, hcs⟩ := renderText_detail detail
  have hjson : Httpx.json (detailResponse statusCode detail headers)
      = .ok (.obj [("detail", detail)]) := by
    rw [hreads.json _ (renderText (.obj [("detail", detail)])) cs rfl hcs]
    exact loads_write ⟨false, false⟩ (plain_detail hplain)
  have htext : Httpx.text (detailResponse statusCode detail headers)
      = .ok (renderText (.obj [("detail", detail)])) :=
    hreads.text _ _ rfl (contentType_detailResponse statusCode detail h)
  have hdetail : List.lookup "detail" [("detail", detail)] = some detail := rfl
  have hmessage : List.lookup "message" [("detail", detail)] = none := rfl
  by_cases htruthy : detail.truthy = true
  · simp [errorDetail, hjson, hdetail, hmessage, Option.filter, passedDetail, htruthy]
  · simp [errorDetail, hjson, htext, hdetail, hmessage, Option.filter, passedDetail, htruthy,
      Except.map]

/-- The text of every response can be read, so there is some detail. -/
lemma exists_errorDetail (statusCode : ℕ) (detail : Json) {headers : List (String × String)}
    (h : headers = [] ∨ headers = [("retry-after", "5")]) :
    ∃ read, errorDetail (detailResponse statusCode detail headers) = .ok read :=
  (errorDetail_iff _).mpr
    (.inr ⟨_, hreads.text _ _ rfl (contentType_detailResponse statusCode detail h)⟩)

/-- A status that is not passed on. -/
lemma outcome_upstream (raw : Bool) (statusCode : ℕ) (detail : Json)
    {headers : List (String × String)} (h : headers = [] ∨ headers = [("retry-after", "5")])
    (hstatus : 401 ≤ statusCode) (hne : statusCode ∉ [404, 409]) :
    outcome raw (.ok (detailResponse statusCode detail headers)) = .error (.upstream {}) := by
  obtain ⟨read, hread⟩ := exists_errorDetail hreads statusCode detail h
  have hsuccess : (detailResponse statusCode detail headers).isSuccess = false := by
    have hlarge : ¬ statusCode ≤ 299 := by omega
    simp [HttpResponse.isSuccess, detailResponse, jsonResponse, hlarge]
  have hcode : (detailResponse statusCode detail headers).statusCode = statusCode := rfl
  simp only [List.mem_cons, List.not_mem_nil, or_false, not_or] at hne
  simp only [outcome, hsuccess, hread, hcode, Bool.false_eq_true, if_false, if_neg hne.1,
    if_neg hne.2, if_neg (show statusCode ≠ 400 by omega)]

/-- **One service.**  It raises the error that is passed on. -/
lemma outcome_handleError (raw : Bool) {e : ServiceError} (he : e.Regular) :
    ∃ raised, outcome raw (.ok (handleError e)) = .error raised
      ∧ raised.serviceError = some e.passedOn := by
  cases e with
  | notFound message =>
      refine ⟨.notFound (passedDetail message), ?_, rfl⟩
      have hread := errorDetail_detailResponse hreads 404 he (.inl rfl)
      rw [handleError, notFoundHandler, outcome, hread]
      rfl
  | conflict message =>
      refine ⟨.conflict (passedDetail message), ?_, rfl⟩
      have hread := errorDetail_detailResponse hreads 409 he (.inl rfl)
      rw [handleError, conflictHandler, outcome, hread]
      rfl
  | badRequest message =>
      refine ⟨.badRequest (passedDetail message), ?_, rfl⟩
      have hread := errorDetail_detailResponse hreads 400 he (.inl rfl)
      rw [handleError, badRequestHandler, outcome, hread]
      rfl
  | validation errors =>
      exact ⟨_, outcome_upstream hreads raw 422 _ (.inl rfl) (by decide) (by decide), rfl⟩
  | atsig message =>
      exact ⟨_, outcome_upstream hreads raw 500 _ (.inl rfl) (by decide) (by decide), rfl⟩
  | forbidden message =>
      exact ⟨_, outcome_upstream hreads raw 403 _ (.inl rfl) (by decide) (by decide), rfl⟩
  | unauthorized message =>
      exact ⟨_, outcome_upstream hreads raw 401 _ (.inl rfl) (by decide) (by decide), rfl⟩
  | serviceUnavailable message =>
      exact ⟨_, outcome_upstream hreads raw 503 _ (.inr rfl) (by decide) (by decide), rfl⟩
  | upstream e =>
      have hstatus : 500 ≤ e.statusCode := he
      refine ⟨_, outcome_upstream hreads raw _ _ (.inl rfl) (by omega) ?_, rfl⟩
      simp only [List.mem_cons, List.not_mem_nil, or_false]
      omega

end Relay

section Passed

variable [FloatText]

lemma passedDetail_truthy (detail : Json) : (passedDetail detail).truthy = true := by
  rw [passedDetail]
  split_ifs with h
  · exact h
  · simp [Json.truthy, renderText_ne_empty]

lemma passedDetail_plain {detail : Json} (h : detail.Plain) : (passedDetail detail).Plain := by
  rw [passedDetail]
  split_ifs
  · exact h
  · exact .str _

/-- What was passed on is passed on as it is. -/
lemma ServiceError.Regular.passedOn {e : ServiceError} (h : e.Regular) :
    e.passedOn.Regular ∧ e.passedOn.passedOn = e.passedOn := by
  have hdetail : ∀ message, passedDetail (passedDetail message) = passedDetail message :=
    fun message => if_pos (passedDetail_truthy message)
  cases e with
  | notFound message =>
      exact ⟨passedDetail_plain h, congrArg ServiceError.notFound (hdetail message)⟩
  | conflict message =>
      exact ⟨passedDetail_plain h, congrArg ServiceError.conflict (hdetail message)⟩
  | badRequest message =>
      exact ⟨passedDetail_plain h, congrArg ServiceError.badRequest (hdetail message)⟩
  | validation | atsig | forbidden | unauthorized | serviceUnavailable | upstream =>
      exact ⟨(by decide : 500 ≤ 502), rfl⟩

/-- Responses tell their details. -/
lemma detailResponse_inj {statusCode statusCode' : ℕ} {detail detail' : Json}
    (h : detail.Plain) (h' : detail'.Plain)
    (heq : detailResponse statusCode detail [] = detailResponse statusCode' detail' []) :
    statusCode = statusCode' ∧ detail = detail' := by
  have hcontent : utf8 (renderText (.obj [("detail", detail)])).toList
      = utf8 (renderText (.obj [("detail", detail')])).toList := congrArg HttpResponse.content heq
  have htext := congrArg decodeText hcontent
  rw [decodeText_utf8, decodeText_utf8] at htext
  have hloads := congrArg loadsText (Option.some.inj htext)
  rw [renderText, renderText, loads_write _ (plain_detail h), loads_write _ (plain_detail h')]
    at hloads
  have hobj := Except.ok.inj hloads
  injection hobj with hobj
  injection hobj with hobj
  exact ⟨congrArg HttpResponse.statusCode heq, congrArg Prod.snd hobj⟩

/-- The response at the end is the first one only for the errors that arrive as they were raised. -/
lemma handleError_passedOn_iff {e : ServiceError} (h : e.Regular) :
    handleError e.passedOn = handleError e ↔ e.Unchanged := by
  -- the three that are passed on, by their status
  have hpassed : ∀ (statusCode : ℕ) (message : Json), message.Plain →
      (detailResponse statusCode (passedDetail message) [] = detailResponse statusCode message []
        ↔ message.truthy = true) := by
    intro statusCode message hplain
    constructor
    · intro heq
      have hsame := (detailResponse_inj (passedDetail_plain hplain) hplain heq).2
      rw [← hsame]
      exact passedDetail_truthy message
    · intro htruthy
      rw [passedDetail, if_pos htruthy]
  have hother : ∀ {response response' : HttpResponse}, response.statusCode ≠ response'.statusCode →
      ¬ response = response' := fun hne heq => hne (congrArg _ heq)
  cases e with
  | notFound message => exact hpassed 404 message h
  | conflict message => exact hpassed 409 message h
  | badRequest message => exact hpassed 400 message h
  | upstream e =>
      constructor
      · intro heq
        obtain ⟨hstatus, hmessage⟩ := detailResponse_inj (.str _) (.str _) heq
        rcases e with ⟨message, statusCode⟩
        injection hmessage with hmessage
        change 502 = statusCode at hstatus
        subst hmessage hstatus
        rfl
      · rintro rfl
        rfl
  | validation errors => exact iff_of_false (hother (by decide : 502 ≠ 422)) id
  | atsig message => exact iff_of_false (hother (by decide : 502 ≠ 500)) id
  | forbidden message => exact iff_of_false (hother (by decide : 502 ≠ 403)) id
  | unauthorized message => exact iff_of_false (hother (by decide : 502 ≠ 401)) id
  | serviceUnavailable message => exact iff_of_false (hother (by decide : 502 ≠ 503)) id

end Passed

section Chain

variable [FloatText] [Httpx] (hreads : ReadsUtf8)

include hreads

lemma relayed_cons_iff (call : ServiceCall) {calls : List ServiceCall} {e e'' : ServiceError}
    (he : e.Regular) : Relayed (call :: calls) e e'' ↔ Relayed calls e.passedOn e'' := by
  obtain ⟨raised, hraises, hraised⟩ := outcome_handleError hreads call.raw he
  constructor
  · intro h
    cases h with
    | cons _ _ _ e' _ raised' hends hraised' hrest =>
        rw [endsWith_iff, hraises] at hends
        obtain rfl := Except.error.inj hends
        rw [hraised] at hraised'
        obtain rfl := Option.some.inj hraised'
        exact hrest
  · intro h
    exact .cons call calls e _ e'' raised (endsWith_iff.mpr hraises.symm) hraised h

/-- **Errors across services.**  However many services an error goes through, what arrives is the
same: a 400, 404 or 409 as it was raised (with the text of the response where the message is
empty), and anything else as the upstream error with its fixed text.  The response to the user is
the one of the service that failed only in the first case, and for that very upstream error. -/
theorem error_relayed {calls : List ServiceCall} (hcalls : calls ≠ []) {e : ServiceError}
    (he : e.Regular) : (∀ e', Relayed calls e e' ↔ e' = e.passedOn)
      ∧ (handleError e.passedOn = handleError e ↔ e.Unchanged) := by
  refine ⟨?_, handleError_passedOn_iff he⟩
  induction calls generalizing e with
  | nil => exact absurd rfl hcalls
  | cons call rest ih =>
      intro e'
      rw [relayed_cons_iff hreads call he]
      obtain ⟨hregular, hagain⟩ := he.passedOn
      cases rest with
      | nil =>
          constructor
          · rintro ⟨⟩
            rfl
          · rintro rfl
            exact .nil _
      | cons call' rest =>
          rw [ih (List.cons_ne_nil _ _) hregular, hagain]

end Chain

section Example

attribute [local instance] integerText

/-- `httpx`, for responses in UTF-8. -/
@[reducible] def utf8Httpx : Httpx where
  json response :=
    match decodeText response.content with
    | some text => loadsText text
    | none => .error unicodeDecodeError
  text response := .ok ((decodeText response.content).getD "")

attribute [local instance] utf8Httpx

lemma readsUtf8_utf8Httpx : ReadsUtf8 where
  json response text cs hcontent _ := by
    show (match decodeText response.content with
      | some text => loadsText text
      | none => _) = _
    rw [hcontent, decodeText_utf8]
  text response text hcontent _ := by
    show Except.ok ((decodeText response.content).getD "") = _
    rw [hcontent, decodeText_utf8]
    rfl

/-- A profile that does not exist, two services away. -/
def twoCalls : List ServiceCall :=
  [⟨profilesApi, getAgent "1", false, .empty, ⟨true, []⟩⟩,
    ⟨.init "http://users:8000", getAgent "1", false, .empty, ⟨false, []⟩⟩]

/-- What arrives is what was raised. -/
theorem error_relayed_profile : Relayed twoCalls (.notFound (.str "No such profile."))
    (.notFound (.str "No such profile.")) := by
  have hregular : (ServiceError.notFound (.str "No such profile.")).Regular := Json.Plain.str _
  have hcalls : twoCalls ≠ [] := List.cons_ne_nil _ _
  have hpassed : (ServiceError.notFound (.str "No such profile.")).passedOn
      = .notFound (.str "No such profile.") := by
    rw [ServiceError.passedOn, passedDetail, if_pos (by decide)]
  exact ((error_relayed readsUtf8_utf8Httpx hcalls hregular).1 _).mpr hpassed.symm

end Example

end Atsig
