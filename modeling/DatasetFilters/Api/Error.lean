import DatasetFilters.Http.Message
import DatasetFilters.Json.Printer
import DatasetFilters.Queue.Webhook
import DatasetFilters.Service.Error

namespace DatasetFilters

/-- What a request was about, as far as the status of a failure depends on it. -/
inductive Operation where
  | read
  | create
  | write
  | updateBlueprint
  deriving DecidableEq, Repr

/-- Failures of the services and of the server itself. -/
inductive ApiError where
  | service (error : ServiceError) (operation : Operation)
  | missingIfMatch
  | invalidQuery (detail : String)
  | badRequest (detail : String)
  | forwarding (detail : String)
  | internal (detail : String)
  | notFound
  deriving Repr

namespace ServiceError

def status (operation : Operation) : ServiceError → Nat
  | filterNotFound _ | outputNotFound _ => if operation = .read then 404 else 400
  | versionNotFound _ => if operation = .updateBlueprint then 422 else 404
  | dimensionNotFound _ | optionNotFound _ => 404
  | conflict _ => 409
  | incorrectDimensions _ | incorrectOptions _ _ | badRequest _ | patch _ => 400
  | forbidden _ | alreadySubmitted _ => 403
  | unauthorised => 401
  | patchFailed _ _ cause => cause.status operation
  | catalog _ | store _ => 500

def code : ServiceError → String
  | filterNotFound _ => "FILTER_NOT_FOUND"
  | outputNotFound _ => "FILTER_OUTPUT_NOT_FOUND"
  | conflict _ => "CONFLICT"
  | dimensionNotFound _ => "DIMENSION_NOT_FOUND"
  | optionNotFound _ => "OPTION_NOT_FOUND"
  | incorrectDimensions _ => "INCORRECT_DIMENSIONS"
  | incorrectOptions _ _ => "INCORRECT_DIMENSION_OPTIONS"
  | versionNotFound _ => "VERSION_NOT_FOUND"
  | forbidden _ => "FORBIDDEN"
  | alreadySubmitted _ => "ALREADY_SUBMITTED"
  | unauthorised => "UNAUTHORISED"
  | badRequest _ => "BAD_REQUEST"
  | patch _ => "INVALID_PATCH"
  | patchFailed _ _ cause => cause.code
  | catalog _ => "UPSTREAM_ERROR"
  | store _ => "INTERNAL_ERROR"

end ServiceError

/-- What clients are told instead of the message of a failure of the server. -/
def internalMessage : String := "internal error"

def publicMessage (status : Nat) (message : String) : String :=
  if Http.isServerError status then internalMessage else message

namespace ServiceError

/-- What a failure tells beside its message. A patch that stopped tells what it did, the tag it
left, and its cause, which is described like a failure of its own. -/
def details? (operation : Operation) : ServiceError → Option Json
  | patchFailed successful etag cause =>
    some (.ofMembers
      [("successful", .array (successful.map PatchOperation.toJson)), ("etag", .text etag),
       ("cause", .ofMembers <|
        [("code", .text cause.code),
         ("message", .text (publicMessage (cause.status operation) cause.message))] ++
        Json.member? "details" (cause.details? operation))])
  | incorrectDimensions names => some (.ofMembers [("dimensions", .texts names)])
  | incorrectOptions dimension options =>
    some (.ofMembers [("dimension", .text dimension), ("options", .texts options)])
  | forbidden fields => some (.ofMembers [("fields", .texts fields)])
  | _ => none

end ServiceError

namespace ApiError

def status : ApiError → Nat
  | service error operation => error.root.status operation
  | missingIfMatch | invalidQuery _ | badRequest _ => 400
  | forwarding _ => 502
  | internal _ => 500
  | notFound => 404

def code : ApiError → String
  | service error _ => error.root.code
  | missingIfMatch => "MISSING_IF_MATCH"
  | invalidQuery _ => "INVALID_QUERY_PARAMETER"
  | badRequest _ => "BAD_REQUEST"
  | forwarding _ => "FORWARDING_ERROR"
  | internal _ => "INTERNAL_ERROR"
  | notFound => "NOT_FOUND"

def message : ApiError → String
  | service error _ => error.message
  | missingIfMatch => "required If-Match header is missing"
  | invalidQuery detail => s!"invalid query parameter: {detail}"
  | badRequest detail => s!"Bad request: {detail}"
  | forwarding detail => s!"Forwarding failed: {detail}"
  | internal detail => s!"Internal server error: {detail}"
  | notFound => "Not found"

def details? : ApiError → Option Json
  | service error operation => error.details? operation
  | _ => none

def body (e : ApiError) : Json :=
  .ofMembers [("error", .ofMembers <|
    [("code", .text e.code), ("message", .text (publicMessage e.status e.message))] ++
    Json.member? "details" e.details?)]

/-- The tag that a failure leaves behind: that of a patch that stopped half-way. -/
def etag? : ApiError → Option String
  | service (.patchFailed _ etag _) _ => if isHeaderText etag then some etag else none
  | _ => none

end ApiError

namespace Api

def jsonType : String := "application/json"

def textType : String := "text/plain; charset=utf-8"

def document (status : Nat) (j : Json) : Http.Response where
  status := status
  headers := [("content-type", Octets.ofText jsonType)]
  body := j.write

def plain (status : Nat) (s : String) : Http.Response where
  status := status
  headers := [("content-type", Octets.ofText textType)]
  body := Octets.ofText s

end Api

/-- A failure as a response. Failures of the server itself are not described to clients, at any
depth of a patch that stopped half-way. -/
def ApiError.response (e : ApiError) : Http.Response :=
  let r := Api.document e.status e.body
  match e.etag? with
  | some etag => { r with headers := r.headers.set "etag" (Octets.ofText etag) }
  | none => r

end DatasetFilters
