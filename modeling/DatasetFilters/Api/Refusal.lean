import DatasetFilters.Api.Error
import DatasetFilters.Config.Basic

namespace DatasetFilters

/-- Why a request gets no answer: a failure, or that it cannot be read or answered at all. -/
inductive Refusal where
  | failure (error : ApiError)
  | unreadableParameter (name : String)
  | bodyTooLarge
  | unwritableTag
  deriving Repr

def lengthExceeded : String := "length limit exceeded"

def Refusal.response : Refusal → Http.Response
  | failure error => error.response
  | unreadableParameter name =>
    Api.plain 400 ("Invalid URL: Invalid UTF-8 in \x60" ++ name ++ "\x60")
  | bodyTooLarge => Api.plain 413 s!"Failed to buffer the request body: {lengthExceeded}"
  | unwritableTag => Api.plain 500 "failed to parse header value"

namespace Api

/-- The body of a request, if it is not too long. -/
def body (c : Config) (r : Http.Request) : Request Refusal Octets :=
  if r.body.length > c.maxBodySize then Request.fail .bodyTooLarge else pure r.body

/-- A result that is already there, as part of a request. -/
def judged (r : Except ApiError α) : Request Refusal α := Request.ofExcept (r.mapError .failure)

/-- A request to the services whose failures are reported as those of an operation. -/
def service (operation : Operation) (r : Request ServiceError α) : Request Refusal α :=
  r.mapError fun e => .failure (.service e operation)

def tagged (etag : String) (r : Http.Response) : Request Refusal Http.Response :=
  if isHeaderText etag then
    pure { r with headers := r.headers.set "etag" (Octets.ofText etag) }
  else Request.fail .unwritableTag

end Api
end DatasetFilters
