import AtsigCommon.Coroutine.Program
import AtsigCommon.Python.Values

/-!
# `MultipartBodyLimitMiddleware`

The middleware stands between a server and an app.  It calls the app with two functions of its
own, `limited_receive` and `guarded_send`, which share the variables `received` and `rejected`.
The app may call them at any time and in any number, also at once; each call is a coroutine that
awaits the server.

* `Body.call` — `__call__`, which awaits the app as a whole.
* `BodyExchange` — one request: the variables, the coroutines, and the messages that have gone from
  one side to the other.
* `BodyExchange.Step` — one atomic step: the app calls or ends, the server answers.
-/

namespace Atsig

open Coroutine Python

/-! ## Messages and scopes -/

/-- The bytes of a header or of a body. -/
abbrev Bytes := List UInt8

/-- `text.encode()` -/
def encodeText (text : String) : Bytes := text.toUTF8.toList

/-- `data.decode("latin-1")` -/
def decodeLatin1 (data : Bytes) : List Char := data.map fun b => Char.ofNat b.toNat

/-- An ASGI message: its type, its body if it has one, and its other items. -/
structure Message where
  type : String
  body : Option Bytes := none
  moreBody : Bool := false
  status : Option ℕ := none
  headers : List (Bytes × Bytes) := []
  deriving DecidableEq

/-- `{"type": "http.disconnect"}` -/
def Message.disconnect : Message := { type := "http.disconnect" }

/-- `message["type"] == "http.request"` -/
def Message.isRequest (message : Message) : Bool := message.type = "http.request"

/-- The length of `message.get("body", b"")`. -/
def Message.bodyLength (message : Message) : ℕ := (message.body.getD []).length

/-- What the middleware reads of a scope. -/
structure Scope where
  type : String
  headers : List (Bytes × Bytes)

/-- `Headers(scope=scope).get(name)`; the server gives the names in lower case. -/
def Scope.header (scope : Scope) (name : String) : Option (List Char) :=
  (scope.headers.lookup (encodeText name)).map decodeLatin1

/-- `lower()` on a latin-1 text. -/
def lowerLatin1 (c : Char) : Char :=
  if ('A' ≤ c ∧ c ≤ 'Z') ∨ (192 ≤ c.toNat ∧ c.toNat ≤ 222 ∧ c.toNat ≠ 215) then
    Char.ofNat (c.toNat + 32)
  else c

/-- `isdigit()` on one latin-1 character: the digits, and `¹`, `²` and `³`. -/
def isDigitLatin1 (c : Char) : Bool := c.isDigit || c.toNat ∈ [178, 179, 185]

/-- What `int` can not read. -/
def invalidLiteral : PyException :=
  ⟨.valueError, "ValueError", "invalid literal for int() with base 10"⟩

/-- What is too long for `int`. -/
def tooManyDigits : PyException :=
  ⟨.valueError, "ValueError", "Exceeds the limit (4300 digits) for integer string conversion"⟩

/-- `int(text)` for a text that consists of digits. -/
def intOfDigits (text : List Char) : Except PyException ℕ :=
  if text.all Char.isDigit then
    if text.length ≤ 4300 then
      .ok (text.foldl (fun n c => 10 * n + (c.toNat - '0'.toNat)) 0)
    else .error tooManyDigits
  else .error invalidLiteral

/-! ## The middleware -/

/-- The arguments of the middleware. -/
structure BodyLimit where
  maxBodySize : ℤ
  statusCode : ℕ := 400
  detail : String := "Max file size reached"

/-- What can be raised through the middleware. -/
inductive BodyRaised
  | cancelled
  | clientDisconnect
  | exception (e : PyException)
  deriving DecidableEq

/-- With which functions the app is called: those of the server, or those of the middleware. -/
inductive Channel
  | raw
  | limited
  deriving DecidableEq

/-- What a coroutine awaits: a message of the server, that the server takes a message, the app. -/
inductive BodyCommand
  | receive
  | send (message : Message)
  | app (channel : Channel)

/-- A call of `receive` answers a message. -/
@[reducible] def BodyCommand.Answer : BodyCommand → Type
  | .receive => Message
  | .send _ | .app _ => Unit

/-- The variables of a request. -/
structure BodyFlags where
  received : ℤ := 0
  rejected : Bool := false

abbrev bodySig : Signature := ⟨BodyFlags, BodyCommand, BodyCommand.Answer, BodyRaised⟩

/-- A coroutine of the middleware. -/
abbrev Body (α : Type) := Co bodySig α

/-- `await receive()` -/
def Body.receive : Body Message := Co.call (S := bodySig) .receive

/-- `await send(message)` -/
def Body.send (message : Message) : Body Unit := Co.call (S := bodySig) (.send message)

/-- `await self.app(scope, …)` -/
def runApp (channel : Channel) : Body Unit := Co.call (S := bodySig) (.app channel)

section Middleware

variable [StandardLibrary] (mw : BodyLimit)

/-- The body of the refusal. -/
def BodyLimit.refusalBody : Bytes :=
  encodeText (StandardLibrary.dumps (.obj [("detail", .str mw.detail)]))

/-- The messages of the refusal. -/
def BodyLimit.refusalStart : Message where
  type := "http.response.start"
  status := some mw.statusCode
  headers := [(encodeText "content-type", encodeText "application/json"),
    (encodeText "content-length", encodeText (toString mw.refusalBody.length)),
    (encodeText "connection", encodeText "close")]

def BodyLimit.refusalEnd : Message where
  type := "http.response.body"
  body := some mw.refusalBody

/-- `_reject` -/
def reject : Body Unit := do
  Body.send mw.refusalStart
  Body.send mw.refusalEnd

/-- `_is_multipart` -/
def isMultipart (scope : Scope) : Bool :=
  "multipart/form-data".toList.isPrefixOf
    (((scope.header "content-type").getD []).map lowerLatin1)

/-- `declared and declared.isdigit() and int(declared) > self.max_body_size` -/
def declaredTooLarge (scope : Scope) : Except PyException Bool :=
  match scope.header "content-length" with
  | none => .ok false
  | some declared =>
      if declared ≠ [] ∧ declared.all isDigitLatin1 then
        (intOfDigits declared).map fun n => decide ((n : ℤ) > mw.maxBodySize)
      else .ok false

/-- What `limited_receive` does with a message. -/
def limitMessage (message : Message) : Body Message :=
  if message.isRequest then do
    .modify fun flags => { flags with received := flags.received + message.bodyLength }
    if (← Co.get).received > mw.maxBodySize then do
      .modify fun flags => { flags with rejected := true }
      reject mw
      return .disconnect
    else return message
  else return message

/-- `limited_receive` -/
def limitedReceive : Body Message := do
  if (← Co.get).rejected then return .disconnect
  else limitMessage mw (← Body.receive)

/-- `guarded_send` -/
def guardedSend (message : Message) : Body Unit := do
  if (← Co.get).rejected then return () else Body.send message

/-- `except ClientDisconnect: if not rejected: raise` -/
def exceptDisconnect (x : Body Unit) : Body Unit :=
  x.protect fun
    | .clientDisconnect => do
        if (← Co.get).rejected then return () else Co.raise (S := bodySig) .clientDisconnect
    | e => Co.raise (S := bodySig) e

/-- `__call__` -/
def Body.call (scope : Scope) : Body Unit :=
  if scope.type ≠ "http" ∨ isMultipart scope = false then runApp .raw
  else
    match declaredTooLarge mw scope with
    | .error e => Co.raise (S := bodySig) (.exception e)
    | .ok true => reject mw
    | .ok false => exceptDisconnect (runApp .limited)

/-- The function for receiving that the app has been given. -/
def receiveCall : Channel → Body (Option Message)
  | .raw => do return some (← Body.receive)
  | .limited => do return some (← limitedReceive mw)

/-- The function for sending. -/
def sendCall (message : Message) : Channel → Body (Option Message)
  | .raw => do
      Body.send message
      return none
  | .limited => do
      guardedSend message
      return none

/-! ## Exchanges -/

/-- A call that the app has made. -/
inductive CallId
  | receive (n : ℕ)
  | send (n : ℕ)
  deriving DecidableEq

/-- One request.  A call ends with the message that it returns, if it returns one. -/
structure BodyExchange where
  flags : BodyFlags
  main : Program bodySig Unit
  calls : CallId → Option (Program bodySig (Option Message))
  fromServer : List Message
  toApp : List Message
  fromApp : List Message
  toServer : List Message

/-- The message that a coroutine has handed to the server before it waits. -/
def sentBy {α : Type} (p : Program bodySig α) : List Message :=
  match p.command? with
  | some (.send message) => [message]
  | _ => []

/-- The message that a call has returned. -/
def returnedBy : Program bodySig (Option Message) → List Message
  | .done (.ok (some message)) _ => [message]
  | _ => []

/-- A request arrives. -/
def BodyExchange.init (scope : Scope) : BodyExchange where
  flags := {}
  main := Body.call mw scope {}
  calls _ := none
  fromServer := []
  toApp := []
  fromApp := []
  toServer := sentBy (Body.call mw scope {})

/-- A call has run to its next await. -/
def BodyExchange.runCall (s : BodyExchange) (id : CallId) (p : Program bodySig (Option Message)) :
    BodyExchange where
  flags := p.state?.getD s.flags
  main := s.main
  calls := Function.update s.calls id (some p)
  fromServer := s.fromServer
  toApp := s.toApp ++ returnedBy p
  fromApp := s.fromApp
  toServer := s.toServer ++ sentBy p

/-- `__call__` has run to its next await. -/
def BodyExchange.runMain (s : BodyExchange) (p : Program bodySig Unit) : BodyExchange :=
  { s with flags := p.state?.getD s.flags, main := p, toServer := s.toServer ++ sentBy p }

/-- What happens in a step. -/
inductive BodyAction
  | appReceives (n : ℕ)
  | appSends (n : ℕ) (message : Message)
  | received (id : CallId) (r : Except BodyRaised Message)
  | taken (id : CallId) (r : Except BodyRaised Unit)
  | mainTaken (r : Except BodyRaised Unit)
  | appEnds (r : Except BodyRaised Unit)

/-- The messages of an answer of the server. -/
def answered : Except BodyRaised Message → List Message
  | .ok message => [message]
  | .error _ => []

/-- One atomic step. -/
inductive BodyExchange.Step : BodyExchange → BodyAction → BodyExchange → Prop
  /-- The app calls the function for receiving. -/
  | appReceives (s : BodyExchange) (n : ℕ) (channel : Channel)
      (hmain : s.main.command? = some (.app channel)) (hnew : s.calls (.receive n) = none) :
      Step s (.appReceives n) (s.runCall (.receive n) (receiveCall mw channel s.flags))
  /-- The app calls the function for sending. -/
  | appSends (s : BodyExchange) (n : ℕ) (message : Message) (channel : Channel)
      (hmain : s.main.command? = some (.app channel)) (hnew : s.calls (.send n) = none) :
      Step s (.appSends n message)
        ({ s with fromApp := s.fromApp ++ [message] }.runCall (.send n)
          (sendCall message channel s.flags))
  /-- The server answers a call with a message, or an exception. -/
  | received (s : BodyExchange) (id : CallId) (f : BodyFlags)
      (k : Except BodyRaised Message → BodyFlags → Program bodySig (Option Message))
      (r : Except BodyRaised Message) (hcall : s.calls id = some (.await .receive f k)) :
      Step s (.received id r)
        ({ s with fromServer := s.fromServer ++ answered r }.runCall id (k r s.flags))
  /-- The server has taken a message of a call, or raises. -/
  | taken (s : BodyExchange) (id : CallId) (message : Message) (f : BodyFlags)
      (k : Except BodyRaised Unit → BodyFlags → Program bodySig (Option Message))
      (r : Except BodyRaised Unit) (hcall : s.calls id = some (.await (.send message) f k)) :
      Step s (.taken id r) (s.runCall id (k r s.flags))
  /-- The server has taken a message of `__call__`, or raises. -/
  | mainTaken (s : BodyExchange) (message : Message) (f : BodyFlags)
      (k : Except BodyRaised Unit → BodyFlags → Program bodySig Unit)
      (r : Except BodyRaised Unit) (hmain : s.main = .await (.send message) f k) :
      Step s (.mainTaken r) (s.runMain (k r s.flags))
  /-- The app returns or raises. -/
  | appEnds (s : BodyExchange) (channel : Channel) (f : BodyFlags)
      (k : Except BodyRaised Unit → BodyFlags → Program bodySig Unit)
      (r : Except BodyRaised Unit) (hmain : s.main = .await (.app channel) f k) :
      Step s (.appEnds r) (s.runMain (k r s.flags))

/-- The exchanges that are reached by steps that are `allowed`. -/
inductive BodyExchange.Reachable (allowed : BodyExchange → BodyAction → Prop) (scope : Scope) :
    BodyExchange → Prop
  | init : Reachable allowed scope (BodyExchange.init mw scope)
  | step {s s' : BodyExchange} {a : BodyAction} (h : Reachable allowed scope s) (ha : allowed s a)
      (hstep : s.Step mw a s') : Reachable allowed scope s'

end Middleware

end Atsig
