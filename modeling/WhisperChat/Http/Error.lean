import WhisperChat.Store.Work
import WhisperChat.Json.Written

/-!
# Failures as answers

The status and the body that a failed request is answered with.  Of a failure of the store a caller
only learns that it may try again.
-/

namespace WhisperChat

inductive ApiError where
  | whisper (cause : WhisperError)
  | badRequest (reason : String)
  /-- The work broke down. -/
  | internal
  deriving DecidableEq

def WhisperError.status : WhisperError → Nat
  | unsupportedContext | unknownRecipient _ | unknownSender _ | unknownChannel _
  | invalidMessage _ =>
    400
  | notSubscribed _ => 403
  | notVisible => 404
  | store _ => 503

namespace ApiError

def message : ApiError → String
  | whisper cause => cause.message
  | badRequest reason => reason
  | internal => "Internal server error"

def status : ApiError → Nat
  | whisper cause => cause.status
  | badRequest _ => 400
  | internal => 500

/-- What a caller is told. -/
def publicMessage : ApiError → String
  | whisper cause =>
    if cause.isRetriable then "Service temporarily unavailable, retry later" else cause.message
  | badRequest reason => reason
  | internal => "Internal server error"

/-- The body that the failure is answered with. -/
def body (e : ApiError) : Json := .record [("result", .str "error"), ("msg", .str e.publicMessage)]

end ApiError

def Failure.toApiError : Failure → ApiError
  | .error cause => .whisper cause
  | .outOfMemory | .overflow => .internal

end WhisperChat
