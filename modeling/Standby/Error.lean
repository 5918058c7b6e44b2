import Standby.Version.Basic
/-!
# Errors of the API

Every failure that a client gets to see is an `ApiError`: a code, the status that goes with it unless another
one is set, and a message. The messages of three codes stay on the server; the client gets a general one
instead (`ApiError.clientMessage`).
-/

namespace Standby

inductive ErrorCode where
  | malformedRequestBody
  | invalidContentType
  | invalidVersionString
  | unsupportedGlobalVersion
  | versionNotFoundForMethod
  | validationError
  | policyNotAuthorized
  | badMethod
  | invalidAction
  | projectMismatch
  | invalidMarker
  | notFound
  | conflict
  | invalid
  | overLimit
  | notImplemented
  | serviceUnavailable
  | badArgument
  | internalError
  deriving DecidableEq, Repr

namespace ErrorCode

def all : List ErrorCode :=
  [.malformedRequestBody, .invalidContentType, .invalidVersionString, .unsupportedGlobalVersion,
    .versionNotFoundForMethod, .validationError, .policyNotAuthorized, .badMethod, .invalidAction,
    .projectMismatch, .invalidMarker, .notFound, .conflict, .invalid, .overLimit, .notImplemented,
    .serviceUnavailable, .badArgument, .internalError]

def name : ErrorCode → String
  | .malformedRequestBody => "MalformedRequestBody"
  | .invalidContentType => "InvalidContentType"
  | .invalidVersionString => "InvalidVersionString"
  | .unsupportedGlobalVersion => "UnsupportedGlobalVersion"
  | .versionNotFoundForMethod => "VersionNotFoundForMethod"
  | .validationError => "ValidationError"
  | .policyNotAuthorized => "PolicyNotAuthorized"
  | .badMethod => "BadMethod"
  | .invalidAction => "InvalidAction"
  | .projectMismatch => "ProjectMismatch"
  | .invalidMarker => "InvalidMarker"
  | .notFound => "NotFound"
  | .conflict => "Conflict"
  | .invalid => "Invalid"
  | .overLimit => "OverLimit"
  | .notImplemented => "NotImplemented"
  | .serviceUnavailable => "ServiceUnavailable"
  | .badArgument => "BadArgument"
  | .internalError => "InternalError"

def ofName? (s : String) : Option ErrorCode := all.find? fun c => c.name == s

def status : ErrorCode → Nat
  | .invalidContentType => 415
  | .unsupportedGlobalVersion => 406
  | .versionNotFoundForMethod => 404
  | .notFound => 404
  | .policyNotAuthorized => 403
  | .badMethod => 405
  | .conflict => 409
  | .overLimit => 429
  | .notImplemented => 501
  | .serviceUnavailable => 503
  | .internalError => 500
  | _ => 400

/-- What a client is told in place of a message that stays on the server. -/
def generalMessage? : ErrorCode → Option String
  | .versionNotFoundForMethod => some "The resource could not be found."
  | .badArgument =>
    some "The server could not comply with the request since it is either malformed or otherwise incorrect."
  | .internalError =>
    some ("Unexpected API Error. Please report this at the service's bug tracker and attach the API log "
      ++ "if possible.")
  | _ => none

end ErrorCode

structure ApiError where
  code : ErrorCode
  message : String
  status : Nat := code.status
  retryAfter : Option String := none
  source : Option String := none
  deriving DecidableEq, Repr

namespace ApiError

/-- An error with the message and the usual status of its code. -/
def of (code : ErrorCode) (message : String) : ApiError := { code, message }

/-- What the client is told. -/
def clientMessage (e : ApiError) : String := e.code.generalMessage?.getD e.message

/-- The error as the server's own log shows it. -/
def logText (e : ApiError) : String := s!"ApiError({e.code.name}): {e.message}"

/-- The body is not what the request needs. -/
def malformedBody (message : String) : ApiError := of .malformedRequestBody message

/-- The body has a media type that is not served. -/
def invalidContentType (type : String) : ApiError := of .invalidContentType s!"Invalid content type {type}."

/-- The action has no handler at the version of the request. -/
def versionNotFound (action : String) : ApiError :=
  of .versionNotFoundForMethod s!"API version request is not supported by method: {action}"

/-- The caller may not do this. -/
def notAuthorized (action : String) : ApiError :=
  of .policyNotAuthorized s!"Policy doesn't allow {action} to be performed."

/-- The resource has no such operation. -/
def badMethod : ApiError := of .badMethod "The method specified is not allowed for this resource."

/-- The resource has no action of this name. -/
def invalidAction (action : String) : ApiError := of .invalidAction s!"There is no such action: {action}"

/-- The project in the path is not the caller's. -/
def projectMismatch (inPath ofCaller : String) : ApiError :=
  of .projectMismatch ("Malformed request URL: URL's project_id '" ++ inPath
    ++ "' doesn't match Context's project_id '" ++ ofCaller ++ "'")

/-- No row has the marker's identifier. -/
def invalidMarker (marker : String) : ApiError := of .invalidMarker s!"Marker {marker} could not be found."

def notFound (message : String) : ApiError := of .notFound message

/-- The request does not go with the present state. -/
def conflict (message : String) : ApiError := of .conflict message

/-- The request makes no sense. -/
def invalid (message : String) : ApiError := of .invalid message

/-- A handler was given what it cannot work with. -/
def badArgument (message : String) : ApiError := of .badArgument message

/-- The path leads nowhere. -/
def noRoute : ApiError := notFound "The resource could not be found."

def ofVersionError (e : VersionError) : ApiError :=
  match e with
  | .invalidText _ => of .invalidVersionString e.message
  | .unsupported .. => of .unsupportedGlobalVersion e.message
  | .invalidWindow .. => of .internalError e.message

end ApiError

end Standby
