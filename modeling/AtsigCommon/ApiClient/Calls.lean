import AtsigCommon.Logger.Context
import AtsigCommon.Python.Values
import AtsigCommon.Uri.Percent
import AtsigCommon.Uri.Reference
import Mathlib.Data.List.DropRight

/-!
# The calls of the API clients

How `BaseAPI` builds the URL of a request, and the calls of `UsersAPI` and `UniAPI`.  What a
request asks for is read off its URL as `httpx` does: the parts of RFC 3986, with the dot segments
of the path resolved.  The parameters of a call are not part of the URL that the code builds.
-/

namespace Atsig

open Python Uri

/-! ## `BaseAPI` -/

/-- A character that `urllib.parse.quote` always keeps. -/
def isUnreserved (c : Char) : Bool :=
  c.isAlphanum || c = '_' || c = '.' || c = '-' || c = '~'

/-- `path_segment`, `quote(value, safe="")` -/
def pathSegment (value : String) : String := .ofList (escape isUnreserved value.toList)

/-- `text.rstrip("/")` -/
def rstripSlash (text : String) : String := .ofList (text.toList.rdropWhile (· = '/'))

/-- `text.lstrip("/")` -/
def lstripSlash (text : String) : String := .ofList (text.toList.dropWhile (· = '/'))

/-- What a client says about a request. -/
structure Call where
  method : String
  endpoint : String
  params : List (String × List String)

/-- `self.get(endpoint=endpoint, params=params)` -/
def get (endpoint : String) (params : List (String × List String)) : Call :=
  ⟨"GET", endpoint, params⟩

/-- A client; `base_url` is stored without the slashes at its end. -/
structure BaseAPI where
  baseUrl : String

/-- `BaseAPI(base_url)` -/
def BaseAPI.init (baseUrl : String) : BaseAPI := ⟨rstripSlash baseUrl⟩

/-- The URL of `_request`. -/
def BaseAPI.url (api : BaseAPI) (endpoint : String) : String :=
  api.baseUrl ++ "/" ++ lstripSlash endpoint

/-- What the request is for. -/
def BaseAPI.target (api : BaseAPI) (call : Call) : Reference :=
  let reference := Reference.split (api.url call.endpoint).toList
  { reference with path := normalizePath reference.path }

/-- `_correlation_headers`, for the request id of the context. -/
def correlationHeaders (rid : String) : Dict String String :=
  match currentRequestId rid with
  | some requestId => Dict.ofPairs [("X-Request-ID", requestId)]
  | none => Dict.empty

/-- `request_headers` of `_request`. -/
def requestHeaders (rid : String) (defaultHeaders authHeaders headers : Dict String String) :
    Dict String String :=
  (((correlationHeaders rid).merge defaultHeaders).merge authHeaders).merge headers

/-! ## `UniAPI` -/

def getDepartment (departmentId : String) : Call :=
  get ("/departments/" ++ pathSegment departmentId) []

def getDepartmentsByIds (ids : List String) : Call := get "/departments/by_ids" [("ids", ids)]

def getDepartmentsByUniversityIds (ids : List String) : Call :=
  get "/departments/by_uni_ids" [("ids", ids)]

def getDepartmentsBySchoolId (schoolId : String) : Call :=
  get "/departments" [("school_id", [schoolId]), ("limit", ["100"])]

def getUniversities : Call := get "/universities" [("limit", ["100"])]

/-! ## `UsersAPI` -/

def getSecretary (secretaryId : String) : Call :=
  get ("/secretaries/" ++ pathSegment secretaryId) []

def getSecretariesByUuids (uuids : List String) : Call := get "/secretaries/by_ids" [("ids", uuids)]

def getUsersByUuids (uuids : List String) : Call := get "/applicants/by_ids" [("ids", uuids)]

def getApplicantProfilesByUuids (uuids : List String) : Call :=
  get "/applicants/by_ids" [("ids", uuids)]

def saveUser : Call := ⟨"POST", "/users", []⟩

def getApplicant (applicantId : String) : Call :=
  get ("/applicants/" ++ pathSegment applicantId) []

def getAgent (agentId : String) : Call := get ("/agents/" ++ pathSegment agentId) []

def getApplicantProfile (applicantId : String) : Call :=
  get ("/applicants/" ++ pathSegment applicantId ++ "/complete") []

def getApplicantMediaUrl (applicantId key : String) : Call :=
  get ("/applicants/" ++ pathSegment applicantId ++ "/media-url") [("key", [key])]

/-! ## Calls with an id -/

/-- The calls that put an id in the path. -/
inductive IdCall
  | getDepartment
  | getSecretary
  | getApplicant
  | getAgent
  | getApplicantProfile
  | getApplicantMediaUrl (key : String)

/-- The call for an id. -/
def IdCall.call : IdCall → String → Call
  | .getDepartment, id => Atsig.getDepartment id
  | .getSecretary, id => Atsig.getSecretary id
  | .getApplicant, id => Atsig.getApplicant id
  | .getAgent, id => Atsig.getAgent id
  | .getApplicantProfile, id => Atsig.getApplicantProfile id
  | .getApplicantMediaUrl key, id => Atsig.getApplicantMediaUrl id key

end Atsig
