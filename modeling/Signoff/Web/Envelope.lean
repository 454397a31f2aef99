import Signoff.Fault

/-! # Envelopes

What a request gets back when it is refused: a message, a code, and mostly details and the name of
the request. Every code has a status of its own.

* `Fault.refusal?` is the refusal that a fault of an operation leads to.
-/

namespace Signoff

/-- The codes of refusals. -/
inductive ErrorCode where
  | required
  | invalid
  | rule
  | notFound
  | forbidden
  | conflict
  | sequence
  | internal
deriving DecidableEq, Repr

namespace ErrorCode

/-- Every code. -/
def all : List ErrorCode :=
  [.required, .invalid, .rule, .notFound, .forbidden, .conflict, .sequence, .internal]

/-- The word for a code. -/
def word : ErrorCode → String
  | .required => "ERR_VALIDATION_REQUIRED"
  | .invalid => "ERR_VALIDATION_INVALID"
  | .rule => "ERR_VALIDATION_RULE"
  | .notFound => "ERR_NOT_FOUND"
  | .forbidden => "ERR_FORBIDDEN"
  | .conflict => "ERR_CONFLICT_STATE"
  | .sequence => "ERR_SEQUENCE_VIOLATION"
  | .internal => "ERR_INTERNAL"

/-- The status of a code. -/
def status : ErrorCode → Int
  | .required => 400
  | .invalid => 400
  | .rule => 422
  | .notFound => 404
  | .forbidden => 403
  | .conflict => 409
  | .sequence => 409
  | .internal => 500

/-- The status of a word; unknown words have that of an invalid request. -/
def statusOf (word : String) : Int :=
  ((all.find? fun code => code.word == word).map status).getD 400

end ErrorCode

/-- What a request gets back. -/
structure Response where
  status : Int
  body : Value

/-- Why a request is refused. -/
structure Refusal where
  /-- The word for the code. -/
  code : String
  message : String
  details : Fields := []
  /-- A status other than that of the code. -/
  status : Option Int := none

namespace Refusal

/-- A refusal with a known code. -/
def of (code : ErrorCode) (message : String) (details : Fields := []) : Refusal :=
  { code := code.word, message, details }

/-- The refusal as a response to the request of this name. -/
def response (r : Refusal) (requestId : String) : Response where
  status := match r.status with
    | some s => if s = 0 then ErrorCode.statusOf r.code else s
    | none => ErrorCode.statusOf r.code
  body := .object (
    [("error", .text r.message), ("code", .text r.code)]
    ++ (if r.details.isEmpty then [] else [("details", .object r.details)])
    ++ (if requestId.isEmpty then [] else [("requestId", .text requestId)]))

/-- The refusal of a request that failed unexpectedly. -/
def unexpected : Refusal := of .internal "Internal server error"

end Refusal

/-- The refusal that a fault leads to, if it is an expected one. -/
def Fault.refusal? (fault : Fault) : Option Refusal :=
  match fault with
  | .notFound _ _ => some (.of .notFound fault.text)
  | .rejected message details => some (.of .rule message details)
  | .denied _ _ _ => some (.of .forbidden fault.text)
  | .outOfSequence level previous =>
    some (.of .sequence fault.text [("level", .text level), ("previousLevel", .text previous)])
  | .badTransition current requested =>
    some (.of .conflict fault.text
      [("currentStatus", .text current), ("requestedStatus", requested)])
  | _ => none

end Signoff
