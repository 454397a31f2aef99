import Signoff.Digest.Sha256
import Signoff.Fault
import Signoff.Json.Reader
import Signoff.Json.Writer
import Signoff.Text.Case
import Signoff.Text.Kinds
import Signoff.Value.Coerce

/-! # Webhooks

Calls to other systems. A call has a method, an address, headers, a limit of time and mostly a body;
what comes back is turned into a result that says whether the call succeeded.
-/

namespace Signoff

/-- A call to another system. -/
structure Call where
  method : String
  url : Value
  headers : Fields
  timeout : Value
  body : Option Value
  /-- The digest of the payload, also where the body is not sent. -/
  payloadHash : Option String

/-- What comes back from a call. -/
inductive Reply where
  | answered (status : Int) (reason : Option String) (text : String)
  | timedOut
  | refused (message : String)
  /-- The client itself failed. -/
  | crashed (message : String)

/-- What a call led to. -/
structure CallResult where
  ok : Bool
  status : Option Int
  data : Value
  error : Option String
  durationMs : Int
  payloadHash : Option String

/-- The digest of a payload over its canonical text; none for null. -/
def payloadDigest (payload : Value) : Option String :=
  if payload.isNull then none else some (Sha256.digestText (Json.canonical payload))

namespace Call

/-- A call. The method is written in capitals, JSON is announced unless the headers say otherwise,
and a `GET` carries no body. -/
def make (method : String) (url : Value) (headers : Fields) (payload timeout : Value) : Call :=
  let method := Text.upper (if method.isEmpty then "POST" else method)
  { method := method
    url := url
    headers := Fields.setAll [("Content-Type", .text "application/json")] headers
    timeout := timeout
    body := if payload.isNull || method == "GET" then none else some payload
    payloadHash := payloadDigest payload }

/-- The call as an object. -/
def toValue (c : Call) : Value :=
  .object ([("method", .text c.method), ("url", c.url), ("headers", .object c.headers),
    ("timeout", c.timeout)] ++ (match c.body with | some v => [("json", v)] | none => []))

/-- The limit of time in milliseconds, the fraction dropped. -/
def timeoutMs (c : Call) : Int :=
  match c.timeout with
  | .int n => n * 1000
  | .bool b => if b then 1000 else 0
  | .float x => (Binary.truncate? (x * 1000.0)).getD 0
  | _ => 0

/-- The body of an answer: what it says as JSON, or else its text, or nothing. -/
def answerData (text : String) : Value :=
  match Json.parse? text with
  | some v => v
  | none => if text.isEmpty then .null else .text text

/-- What the call led to. -/
def result (c : Call) : Reply → Result CallResult
  | .answered status reason text =>
    let ok := 200 ≤ status && status < 300
    let failure := Text.trim ("HTTP " ++ NumberText.intText status ++ ": " ++ reason.getD "")
    .ok ⟨ok, some status, answerData text, if ok then none else some failure, 0, c.payloadHash⟩
  | .timedOut =>
    .ok ⟨false, none, .null, some ("Request timed out after " ++ c.timeout.display ++ "s"),
      c.timeoutMs, c.payloadHash⟩
  | .refused message => .ok ⟨false, none, .null, some message, 0, c.payloadHash⟩
  | .crashed message => .error (.broken message)

end Call

/-- The result as it is logged. -/
def CallResult.logValue (r : CallResult) : Value :=
  .object [("ok", .bool r.ok), ("status_code", .ofInt? r.status), ("error", .ofText? r.error),
    ("duration_ms", .int r.durationMs), ("payload_hash", .ofText? r.payloadHash)]

end Signoff
