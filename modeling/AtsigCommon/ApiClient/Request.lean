import AtsigCommon.ApiClient.Calls
import AtsigCommon.Coroutine.Program
import AtsigCommon.Uri.Credentials

/-!
# How a call to another service ends

`BaseAPI._request`: the request is awaited once, and its answer becomes data or one of the errors
that this library declares.  `httpx` itself is a parameter: what `Response.json` and `Response.text`
make of a response, which may be an exception.

* `request` — the coroutine; `outcome` is what becomes of the answer that it awaits.
* `Declared` — the ways in which a call may end.
* `declared_iff` — a call ends in one of them if and only if the response can be read where the
  code reads it.
* `request_declared_iff` — the same of the executions of `_request`, and of two calls that fail: the
  error says whether there was a timeout and nothing else.
-/

namespace Atsig

open Coroutine Python Uri

/-! ## `httpx` -/

/-- `httpx.Response` -/
structure HttpResponse where
  statusCode : ℕ
  headers : List (String × String)
  content : List UInt8

/-- `is_success` -/
def HttpResponse.isSuccess (response : HttpResponse) : Bool :=
  200 ≤ response.statusCode && response.statusCode ≤ 299

/-- `headers.get("Content-Type", "")`: header names have no case, and repeated headers are put
together. -/
def HttpResponse.contentType (response : HttpResponse) : String :=
  ", ".intercalate ((response.headers.filter fun p => p.1.toLower = "content-type").map Prod.snd)

/-- `"application/json" in response.headers.get("Content-Type", "")` -/
def HttpResponse.isJson (response : HttpResponse) : Bool :=
  decide ("application/json".toList <:+: response.contentType.toList)

/-- How `httpx` reads the body of a response. -/
class Httpx where
  /-- `response.json()` -/
  json : HttpResponse → Except PyException Json
  /-- `response.text` -/
  text : HttpResponse → Except PyException String

/-- `httpx.RequestError`, and whether it is a `TimeoutException`. -/
structure RequestError where
  typeName : String
  text : String
  isTimeout : Bool
  deriving DecidableEq

/-! ## Errors -/

/-- `UpstreamError` -/
structure UpstreamError where
  message : String := "A service this one depends on did not answer correctly. "
    ++ "Please try again later."
  statusCode : ℕ := 502
  deriving DecidableEq

/-- What comes out of a call that does not return. -/
inductive ApiRaised
  | cancelled
  | requestError (e : RequestError)
  | notFound (detail : Json)
  | conflict (detail : Json)
  | badRequest (detail : Json)
  | upstream (e : UpstreamError)
  | exception (e : PyException)

/-- What a call returns. -/
inductive ApiData
  | content (bytes : List UInt8)
  | json (value : Json)
  | text (value : String)

/-! ## `_request` -/

/-- The one thing that is awaited: `manager.client.request`. -/
inductive ApiCommand
  | request (method url : String) (headers : Dict String String)
      (params : List (String × List String))

@[reducible] def ApiCommand.Answer : ApiCommand → Type
  | .request .. => HttpResponse

/-- Whether the HTTP client is there and open, and the errors that were logged. -/
structure ApiState where
  clientOpen : Bool
  log : List String

abbrev apiSig : Signature := ⟨ApiState, ApiCommand, ApiCommand.Answer, ApiRaised⟩

/-- A coroutine of a client. -/
abbrev Api (α : Type) := Co apiSig α

/-- `logger.error` -/
def logError (text : String) : Api Unit :=
  .modify fun state => { state with log := state.log ++ [text] }

/-- `manager.init_client()`, unless the client is there and open. -/
def initClient : Api Unit := .modify fun state => { state with clientOpen := true }

/-- What is read may raise. -/
def reading {α : Type} (r : Except PyException α) : Api α :=
  Co.ofExcept (S := apiSig) (r.mapError .exception)

/-- `urlsplit(url).path` -/
def urlPath (url : String) : String := .ofList (urlsplit url.toList).path

/-- `error_data.get("detail") or error_data.get("message") or response.text`, where `error_data` is
what the response is as JSON, with the text of the response for everything that goes wrong. -/
def errorDetail [Httpx] (response : HttpResponse) : Except PyException Json :=
  match Httpx.json response with
  | .ok (.obj items) =>
      match (items.lookup "detail").filter Json.truthy, (items.lookup "message").filter Json.truthy with
      | some detail, _ => .ok detail
      | none, some message => .ok message
      | none, none => (Httpx.text response).map .str
  | _ => (Httpx.text response).map .str

section Request

variable [Httpx]

/-- The success path: the bytes, the JSON value or the text. -/
def successData (raw : Bool) (response : HttpResponse) : Except PyException ApiData :=
  if raw then .ok (.content response.content)
  else if response.isJson then (Httpx.json response).map .json
  else (Httpx.text response).map .text

/-- The error path. -/
def raiseError (method url : String) (response : HttpResponse) : Api ApiData := do
  let detail ← reading (errorDetail response)
  if response.statusCode = 404 then Co.raise (S := apiSig) (.notFound detail)
  else if response.statusCode = 409 then Co.raise (S := apiSig) (.conflict detail)
  else if response.statusCode = 400 then Co.raise (S := apiSig) (.badRequest detail)
  else do
    logError ("[API client] " ++ method ++ " " ++ urlPath url ++ " answered "
      ++ toString response.statusCode)
    Co.raise (S := apiSig) (.upstream {})

/-- The `try` block, from the response on. -/
def readResponse (raw : Bool) (method url : String) (response : HttpResponse) : Api ApiData :=
  if response.isSuccess then reading (successData raw response)
  else raiseError method url response

/-- `except httpx.RequestError as e` -/
def exceptRequestError (method url : String) (x : Api ApiData) : Api ApiData :=
  x.protect fun
    | .requestError e => do
        logError ("[API client] " ++ method ++ " " ++ urlPath url ++ " failed: " ++ e.typeName)
        Co.raise (S := apiSig) (.upstream { statusCode := if e.isTimeout then 504 else 502 })
    | e => Co.raise (S := apiSig) e

/-- `_request`, with the headers of the context, of the client and of the call, and those for
authentication. -/
def request (api : BaseAPI) (call : Call) (raw : Bool) (headers : Dict String String) :
    Api ApiData := do
  let url := api.url call.endpoint
  if (← Co.get).clientOpen = false then initClient
  exceptRequestError call.method url do
    let response ← Co.call (S := apiSig) (.request call.method url headers call.params)
    readResponse raw call.method url response

/-! ## How it ends -/

/-- What becomes of the answer of the await. -/
def outcome (raw : Bool) : Except ApiRaised HttpResponse → Except ApiRaised ApiData
  | .ok response =>
      if response.isSuccess then (successData raw response).mapError .exception
      else
        match errorDetail response with
        | .error e => .error (.exception e)
        | .ok detail =>
            if response.statusCode = 404 then .error (.notFound detail)
            else if response.statusCode = 409 then .error (.conflict detail)
            else if response.statusCode = 400 then .error (.badRequest detail)
            else .error (.upstream {})
  | .error (.requestError e) => .error (.upstream { statusCode := if e.isTimeout then 504 else 502 })
  | .error e => .error e

omit [Httpx] in
lemma reading_eq {α : Type} (r : Except PyException α) (state : ApiState) :
    reading r state = .done (r.mapError .exception) state := by
  cases r <;> rfl

omit [Httpx] in
/-- What the handler does with the end of the `try` block. -/
lemma exceptRequestError_done {method url : String} {x : Api ApiData} {state state' : ApiState}
    {r : Except ApiRaised ApiData} (h : x state = .done r state')
    (hr : ∀ e, r ≠ .error (.requestError e)) :
    exceptRequestError method url x state = .done r state' := by
  rw [exceptRequestError, Co.protect, Co.andThen, h, Program.andThen_done]
  cases r with
  | ok data => rfl
  | error e =>
      cases e with
      | requestError e => exact absurd rfl (hr e)
      | _ => rfl

/-- Reading a response raises no error of the transport. -/
lemma outcome_ne_requestError (raw : Bool) (response : HttpResponse) (e : RequestError) :
    outcome raw (.ok response) ≠ .error (.requestError e) := by
  intro h
  rw [outcome] at h
  split at h
  · cases hdata : successData raw response with
    | ok data =>
        rw [hdata] at h
        cases h
    | error e' =>
        rw [hdata] at h
        cases h
  · split at h
    · cases h
    · split_ifs at h
      all_goals cases h

lemma readResponse_done (raw : Bool) (method url : String) (response : HttpResponse)
    (state : ApiState) :
    ∃ state', readResponse raw method url response state
      = .done (outcome raw (.ok response)) state' := by
  rw [readResponse, outcome]
  split
  · exact ⟨state, reading_eq _ _⟩
  · cases hdetail : errorDetail response with
    | error e =>
        refine ⟨state, ?_⟩
        show Program.andThen (reading (errorDetail response) state) _ = _
        rw [reading_eq, hdetail]
        rfl
    | ok detail =>
        have hread : reading (errorDetail response) state = .done (.ok detail) state := by
          rw [reading_eq, hdetail]
          rfl
        show ∃ state', Program.andThen (reading (errorDetail response) state) _ = _
        rw [hread, Program.andThen_done]
        dsimp only
        split_ifs
        · exact ⟨_, rfl⟩
        · exact ⟨_, rfl⟩
        · exact ⟨_, rfl⟩
        · exact ⟨_, rfl⟩

/-- The call waits once, and ends with the answer. -/
lemma request_eq (api : BaseAPI) (call : Call) (raw : Bool) (headers : Dict String String)
    (state : ApiState) :
    ∃ k, request api call raw headers state
        = .await (.request call.method (api.url call.endpoint) headers call.params)
          { state with clientOpen := true } k
      ∧ ∀ answer after, ∃ state', k answer after = .done (outcome raw answer) state' := by
  have hafter : ∀ answer after, ∃ state', exceptRequestError call.method (api.url call.endpoint)
      ((fun s => .done answer s : Api HttpResponse)
        >>= readResponse raw call.method (api.url call.endpoint)) after
        = .done (outcome raw answer) state' := by
    intro answer after
    cases answer with
    | ok response =>
        obtain ⟨state', hread⟩ := readResponse_done raw call.method (api.url call.endpoint) response
          after
        exact ⟨state', exceptRequestError_done hread (outcome_ne_requestError raw response)⟩
    | error e => cases e <;> exact ⟨_, rfl⟩
  rcases state with ⟨open?, log⟩
  cases open? with
  | false => exact ⟨_, rfl, hafter⟩
  | true => exact ⟨_, rfl, hafter⟩

/-! ## The declared ways -/

/-- What the transport may report: a response, or one of its errors. -/
def Reported : Except ApiRaised HttpResponse → Prop
  | .ok _ => True
  | .error e => ∃ error, e = .requestError error

/-- The ways in which a call may end. -/
inductive Declared : Except ApiRaised HttpResponse → Except ApiRaised ApiData → Prop
  | data (response : HttpResponse) (data : ApiData) (h : response.isSuccess = true) :
      Declared (.ok response) (.ok data)
  | notFound (response : HttpResponse) (detail : Json) (h : response.statusCode = 404) :
      Declared (.ok response) (.error (.notFound detail))
  | conflict (response : HttpResponse) (detail : Json) (h : response.statusCode = 409) :
      Declared (.ok response) (.error (.conflict detail))
  | badRequest (response : HttpResponse) (detail : Json) (h : response.statusCode = 400) :
      Declared (.ok response) (.error (.badRequest detail))
  | refused (response : HttpResponse) (e : UpstreamError) (hsuccess : response.isSuccess = false)
      (hstatus : response.statusCode ∉ [404, 409, 400]) :
      Declared (.ok response) (.error (.upstream e))
  | unreachable (error : RequestError) (e : UpstreamError) :
      Declared (.error (.requestError error)) (.error (.upstream e))

/-- The text of the response can be decoded. -/
def TextReads (response : HttpResponse) : Prop := ∃ text, Httpx.text response = .ok text

/-- The body is JSON. -/
def JsonReads (response : HttpResponse) : Prop := ∃ value, Httpx.json response = .ok value

/-- The body is a JSON object with a detail or a message. -/
def HasDetail (response : HttpResponse) : Prop :=
  ∃ items, Httpx.json response = .ok (.obj items)
    ∧ ∃ name ∈ ["detail", "message"], ∃ value, items.lookup name = some value ∧ value.truthy = true

/-- The response can be read where the code reads it. -/
def Legible (raw : Bool) : Except ApiRaised HttpResponse → Prop
  | .ok response =>
      if response.isSuccess then
        raw = false →
          if response.isJson then JsonReads response else TextReads response
      else HasDetail response ∨ TextReads response
  | .error _ => True

/-- Whether the cause was a timeout. -/
def timedOut : Except ApiRaised HttpResponse → Bool
  | .error (.requestError e) => e.isTimeout
  | _ => false

omit [Httpx] in
lemma map_ok_iff {α β : Type} {f : α → β} {r : Except PyException α} :
    (∃ b, r.map f = .ok b) ↔ ∃ a, r = .ok a := by
  cases r with
  | error e => simp [Except.map]
  | ok a => simp [Except.map]

lemma successData_iff (raw : Bool) (response : HttpResponse) :
    (∃ data, successData raw response = .ok data) ↔ (raw = false →
      if response.isJson then JsonReads response else TextReads response) := by
  rw [successData]
  cases raw with
  | true => simp
  | false =>
      simp only [Bool.false_eq_true, if_false, true_implies]
      split_ifs
      · exact map_ok_iff
      · exact map_ok_iff

lemma errorDetail_iff (response : HttpResponse) :
    (∃ detail, errorDetail response = .ok detail) ↔ HasDetail response ∨ TextReads response := by
  have htext : ∀ (h : ¬ HasDetail response) (r : Except PyException Json),
      r = (Httpx.text response).map .str →
      ((∃ detail, r = .ok detail) ↔ HasDetail response ∨ TextReads response) := by
    rintro h r rfl
    rw [map_ok_iff, or_iff_right h]
    rfl
  cases hjson : Httpx.json response with
  | error e =>
      refine htext ?_ _ (by rw [errorDetail, hjson])
      rintro ⟨items, hitems, -⟩
      rw [hjson] at hitems
      cases hitems
  | ok value =>
      cases value with
      | obj items =>
          cases hfound : (items.lookup "detail").filter Json.truthy with
          | some detail =>
              obtain ⟨hlookup, htruthy⟩ := Option.filter_eq_some_iff.mp hfound
              have hhas : HasDetail response :=
                ⟨items, hjson, "detail", by simp, detail, hlookup, htruthy⟩
              exact iff_of_true ⟨detail, by simp only [errorDetail, hjson, hfound]⟩ (Or.inl hhas)
          | none =>
              cases hmessage : (items.lookup "message").filter Json.truthy with
              | some message =>
                  obtain ⟨hlookup, htruthy⟩ := Option.filter_eq_some_iff.mp hmessage
                  have hhas : HasDetail response :=
                    ⟨items, hjson, "message", by simp, message, hlookup, htruthy⟩
                  exact iff_of_true ⟨message, by simp only [errorDetail, hjson, hfound, hmessage]⟩
                    (Or.inl hhas)
              | none =>
                  refine htext ?_ _ (by simp only [errorDetail, hjson, hfound, hmessage])
                  rintro ⟨items', hitems, name, hname, value, hlookup, htruthy⟩
                  rw [hjson] at hitems
                  cases hitems
                  have hsome := Option.filter_eq_some_iff.mpr ⟨hlookup, htruthy⟩
                  simp only [List.mem_cons, List.not_mem_nil, or_false] at hname
                  rcases hname with rfl | rfl
                  · rw [hfound] at hsome
                    cases hsome
                  · rw [hmessage] at hsome
                    cases hsome
      | _ =>
          refine htext ?_ _ (by rw [errorDetail, hjson])
          rintro ⟨items, hitems, -⟩
          rw [hjson] at hitems
          cases hitems

omit [Httpx] in
/-- An answer that is no data and no detail ends in no declared way. -/
lemma not_declared_exception (answer : Except ApiRaised HttpResponse) (e : PyException) :
    ¬ Declared answer (.error (.exception e)) := by
  rintro ⟨⟩

/-- **When a call ends in a declared way.** -/
lemma declared_iff {raw : Bool} {answer : Except ApiRaised HttpResponse} (h : Reported answer) :
    Declared answer (outcome raw answer) ↔ Legible raw answer := by
  cases answer with
  | error e =>
      obtain ⟨error, rfl⟩ := h
      exact iff_of_true (.unreachable error _) trivial
  | ok response =>
      by_cases hsuccess : response.isSuccess = true
      · rw [outcome, Legible, if_pos hsuccess, if_pos hsuccess, ← successData_iff raw response]
        cases hdata : successData raw response with
        | ok data => exact iff_of_true (.data response data hsuccess) ⟨data, rfl⟩
        | error e => exact iff_of_false (not_declared_exception _ e) (by simp)
      · rw [outcome, Legible, if_neg hsuccess, if_neg hsuccess, ← errorDetail_iff response]
        have hfalse : response.isSuccess = false := by simpa using hsuccess
        cases hdetail : errorDetail response with
        | error e => exact iff_of_false (not_declared_exception _ e) (by simp)
        | ok detail =>
            refine iff_of_true ?_ ⟨detail, rfl⟩
            dsimp only
            split_ifs with hnotFound hconflict hbadRequest
            · exact .notFound response detail hnotFound
            · exact .conflict response detail hconflict
            · exact .badRequest response detail hbadRequest
            · refine .refused response _ hfalse ?_
              simp [hnotFound, hconflict, hbadRequest]

/-- What an upstream error is made of. -/
lemma upstream_eq {raw : Bool} {answer : Except ApiRaised HttpResponse} (h : Reported answer)
    {e : UpstreamError} (he : outcome raw answer = .error (.upstream e)) :
    e = { statusCode := if timedOut answer then 504 else 502 } := by
  cases answer with
  | error error =>
      obtain ⟨error, rfl⟩ := h
      cases he
      rfl
  | ok response =>
      by_cases hsuccess : response.isSuccess = true
      · rw [outcome, if_pos hsuccess] at he
        cases hdata : successData raw response with
        | ok data =>
            rw [hdata] at he
            cases he
        | error e' =>
            rw [hdata] at he
            cases he
      · rw [outcome, if_neg hsuccess] at he
        cases hdetail : errorDetail response with
        | error e' =>
            rw [hdetail] at he
            cases he
        | ok detail =>
            rw [hdetail] at he
            dsimp only at he
            split_ifs at he
            all_goals cases he
            rfl

/-- A call has ended, after the transport answered. -/
def EndsWith (api : BaseAPI) (call : Call) (raw : Bool) (headers : Dict String String)
    (state : ApiState) (answer : Except ApiRaised HttpResponse)
    (r : Except ApiRaised ApiData) : Prop :=
  ∃ before after state', Run (request api call raw headers state)
    [⟨.request call.method (api.url call.endpoint) headers call.params, before, answer, after⟩]
    (.done r state')

lemma endsWith_iff {api : BaseAPI} {call : Call} {raw : Bool} {headers : Dict String String}
    {state : ApiState} {answer : Except ApiRaised HttpResponse} {r : Except ApiRaised ApiData} :
    EndsWith api call raw headers state answer r ↔ r = outcome raw answer := by
  obtain ⟨k, hrequest, hdone⟩ := request_eq api call raw headers state
  rw [EndsWith, hrequest]
  constructor
  · rintro ⟨before, after, state', hrun⟩
    obtain ⟨answer', after', hexchange, hrest⟩ := run_await_cons_iff.mp hrun
    cases hexchange
    obtain ⟨state'', hk⟩ := hdone answer after
    rw [run_nil_iff, hk] at hrest
    cases hrest
    rfl
  · rintro rfl
    obtain ⟨state', hk⟩ := hdone answer { state with clientOpen := true }
    refine ⟨_, { state with clientOpen := true }, state',
      run_await_cons_iff.mpr ⟨answer, _, rfl, ?_⟩⟩
    rw [run_nil_iff, hk]

/-- **How a call ends.**  Every answer of the transport ends the call; it ends with data for a 2xx or
with one of the declared errors, if and only if the response can be read where the code reads it;
and two calls that end with an upstream error end with the same one, unless only one of them was a
timeout. -/
theorem request_declared_iff (api api' : BaseAPI) (call call' : Call) (raw raw' : Bool)
    (headers headers' : Dict String String) (state state' : ApiState)
    (answer answer' : Except ApiRaised HttpResponse) (h : Reported answer) (h' : Reported answer') :
    (∃ r, EndsWith api call raw headers state answer r)
      ∧ (∀ r, EndsWith api call raw headers state answer r →
          (Declared answer r ↔ Legible raw answer))
      ∧ ∀ e e', EndsWith api call raw headers state answer (.error (.upstream e)) →
          EndsWith api' call' raw' headers' state' answer' (.error (.upstream e')) →
          timedOut answer = timedOut answer' → e = e' := by
  simp only [endsWith_iff]
  refine ⟨⟨_, rfl⟩, ?_, fun e e' he he' htime => ?_⟩
  · rintro r rfl
    exact declared_iff h
  · rw [upstream_eq h he.symm, upstream_eq h' he'.symm, htime]

end Request

section Example

/-- As much of `httpx` as a plain response needs: an empty object, and texts in UTF-8. -/
@[reducible] def plainHttpx : Httpx where
  json response :=
    if response.content = utf8 "\x7b\x7d".toList then .ok (.obj [])
    else .error ⟨.valueError, "JSONDecodeError", "Expecting value"⟩
  text response := .ok ((decodeText response.content).getD "")

attribute [local instance] plainHttpx

/-- A proxy answers for a service that has gone. -/
def gatewayPage (statusCode : ℕ) (contentType : String) : HttpResponse where
  statusCode := statusCode
  headers := [("Content-Type", contentType)]
  content := utf8 "<html>".toList

def profilesApi : BaseAPI := .init "http://profiles:8000"

/-- A page with the status 503. -/
theorem request_declared_gateway :
    Declared (.ok (gatewayPage 503 "application/json")) (.error (.upstream {})) :=
  ((request_declared_iff profilesApi profilesApi (getAgent "1") (getAgent "1") false false .empty
    .empty ⟨true, []⟩ ⟨true, []⟩ (.ok (gatewayPage 503 "application/json"))
    (.ok (gatewayPage 503 "application/json")) trivial trivial).2.1 _
      (endsWith_iff.mpr (by with_unfolding_all rfl))).mpr (Or.inr ⟨_, rfl⟩)

/-- **A page that says it is JSON.**  With the status 200 the call ends with the exception of the
parser. -/
theorem page_escapes :
    EndsWith profilesApi (getAgent "1") false .empty ⟨true, []⟩
        (.ok (gatewayPage 200 "application/json"))
        (.error (.exception ⟨.valueError, "JSONDecodeError", "Expecting value"⟩))
      ∧ ¬ Declared (.ok (gatewayPage 200 "application/json"))
        (.error (.exception ⟨.valueError, "JSONDecodeError", "Expecting value"⟩)) := by
  refine ⟨endsWith_iff.mpr (by with_unfolding_all rfl), ?_⟩
  rintro ⟨⟩

end Example

end Atsig
