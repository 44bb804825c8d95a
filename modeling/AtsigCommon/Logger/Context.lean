import Mathlib.Data.List.Basic

/-!
# Log lines and request ids

The levels of the logger, and, from `atsig_common.logger.context`, which values may stand as the id
of a request in the logs.  `LoggingContextMiddleware` of `atsig_common.logger.middleware` sets the
id for a request.
-/

namespace Atsig

inductive Level
  | debug
  | info
  | warning
  | error
  | critical
  deriving DecidableEq, Repr

/-- What the request id holds outside of a request. -/
def noRequestId : String := "-"

/-- One character of `REQUEST_ID_PATTERN`, `[A-Za-z0-9._-]`. -/
def isRequestIdChar (c : Char) : Bool :=
  c.isAlphanum || c = '.' || c = '_' || c = '-'

/-- `is_valid_request_id` on a string: one to sixty-four safe characters, and not the
placeholder. -/
def isValidRequestId (value : String) : Bool :=
  value ≠ noRequestId && value.toList.all isRequestIdChar
    && 1 ≤ value.toList.length && value.toList.length ≤ 64

/-- `current_request_id()`, for what the context holds. -/
def currentRequestId (rid : String) : Option String :=
  if isValidRequestId rid then some rid else none

/-- `resolve_request_id`; `generated` is the id made for the request. -/
def resolveRequestId (incoming : Option String) (generated : String) : String :=
  match incoming with
  | some rid => if isValidRequestId rid then rid else generated
  | none => generated

/-- `request.headers.get(name)`: the first of the headers that came under this name, in lower
case. -/
def receivedHeader (headers : List (String × String)) (name : String) : Option String :=
  (headers.map fun p => (p.1.toLower, p.2)).lookup name.toLower

/-- The request id under which `dispatch` serves a request. -/
def dispatchRequestId (headers : List (String × String)) (generated : String) : String :=
  resolveRequestId (receivedHeader headers "X-Request-ID") generated

end Atsig
