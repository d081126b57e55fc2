import Timetabling.Json.Basic

/-! # Errors of the web API

An API error carries a machine-readable code, the HTTP status it answers with, a message for
people, and possibly the text of the error it wraps; its text is the message, followed by the
wrapped error's text when there is one. A handful of errors are predefined, and a copy of one
may replace its message.

Errors travel through the service as `Fault`s: plain errors, API errors, errors annotated with
context, and errors marked permanent, which a job queue does not retry. Any fault becomes an API
error when it reaches a response: the first API error inside it, or else an internal error
wrapping it. -/

namespace Timetabling

/-- An error of the web API. -/
structure ApiError where
  code : String
  status : Nat
  message : String
  cause : Option String := none
deriving Repr, Inhabited, BEq

namespace ApiError

/-- The text of an error: its message, then the wrapped error's text. -/
def text (e : ApiError) : String :=
  match e.cause with
  | some c => e.message ++ ": " ++ c
  | none => e.message

/-- A copy of an error with its message replaced, unless the new message is empty. -/
def withMessage (e : ApiError) (message : String) : ApiError :=
  if message.isEmpty then e else { e with message }

/-- Wrap an error's text in an API error of the given code, status and message. -/
def wrapping (cause : String) (code : String) (status : Nat) (message : String) : ApiError :=
  { code, status, message, cause := some cause }

/-- The resource does not exist. -/
def notFound : ApiError := ⟨"NOT_FOUND", 404, "resource not found", none⟩
/-- The request conflicts with the resource's state. -/
def conflict : ApiError := ⟨"CONFLICT", 409, "conflict", none⟩
/-- The resource is not in the state the request needs. -/
def preconditionFailed : ApiError := ⟨"PRECONDITION_FAILED", 412, "precondition failed", none⟩
/-- The request is malformed. -/
def validation : ApiError := ⟨"VALIDATION_ERROR", 400, "validation failed", none⟩
/-- Something failed inside the service. -/
def internal : ApiError := ⟨"INTERNAL_ERROR", 500, "internal server error", none⟩
/-- A cache has no entry for a key. -/
def cacheMiss : ApiError := ⟨"CACHE_MISS", 404, "cache entry not found", none⟩
/-- A generation stopped under memory pressure. -/
def resourceExhausted : ApiError :=
  ⟨"RESOURCE_EXHAUSTED", 503, "generation aborted under memory pressure", none⟩
/-- A generation was cancelled. -/
def cancelled : ApiError := ⟨"CANCELLED", 409, "generation cancelled", none⟩
/-- A generated timetable broke a hard constraint. -/
def invariantViolation : ApiError :=
  ⟨"INVARIANT_VIOLATION", 500, "generated schedule violates hard constraints", none⟩
/-- A stored version changed under a writer. -/
def versionConflict : ApiError := ⟨"VERSION_CONFLICT", 409, "stored version changed concurrently", none⟩
/-- The job queue cannot take work. -/
def queueUnavailable : ApiError := ⟨"QUEUE_UNAVAILABLE", 503, "generation queue unavailable", none⟩

/-- The text of an error that may be absent; an absent one reads `<nil>`. -/
def describe : Option ApiError → String
  | none => "<nil>"
  | some e => e.text

/-- The JSON form of an error in a response: code, message and status. -/
def toJson (e : ApiError) : Json :=
  .object [("code", .string e.code), ("message", .string e.message), ("status", .nat e.status)]

end ApiError

/-- An error as it travels through the service. -/
inductive Fault where
  /-- An error with only a text. -/
  | plain (text : String)
  /-- An API error. -/
  | api (e : ApiError)
  /-- An error with context put in front of its text. -/
  | annotated (context : String) (inner : Fault)
  /-- An error marked as not worth retrying. -/
  | permanent (inner : Fault)
deriving Repr, Inhabited

namespace Fault

/-- The text of a fault. -/
def text : Fault → String
  | .plain t => t
  | .api e => e.text
  | .annotated c inner => c ++ ": " ++ inner.text
  | .permanent inner => inner.text

/-- The first API error inside a fault, looking through context and marks. -/
def findApi? : Fault → Option ApiError
  | .plain _ => none
  | .api e => some e
  | .annotated _ inner => inner.findApi?
  | .permanent inner => inner.findApi?

/-- Whether a fault is marked permanent, looking through context. -/
def isPermanent : Fault → Bool
  | .plain _ | .api _ => false
  | .annotated _ inner => inner.isPermanent
  | .permanent _ => true

/-- The fault one level inside a fault, if it wraps one. -/
def unwrap? : Fault → Option Fault
  | .plain _ | .api _ => none
  | .annotated _ inner | .permanent inner => some inner

/-- The API error a fault answers with: the first one inside it, or an internal error that wraps
its text. -/
def toApi (f : Fault) : ApiError :=
  match f.findApi? with
  | some e => e
  | none => ApiError.wrapping f.text ApiError.internal.code ApiError.internal.status ApiError.internal.message

end Fault

end Timetabling
