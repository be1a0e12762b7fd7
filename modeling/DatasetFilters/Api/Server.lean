import DatasetFilters.Api.Answer
import DatasetFilters.Api.Forwarding
import DatasetFilters.Api.Identity

namespace DatasetFilters.Api

/-- The answer on a route as its path was sent. A method that is not served there reads no
parameter. -/
def onRoute (c : Config) (r : Http.Request) (route : Route Octets) :
    Request Refusal Http.Response :=
  let call : Call := ⟨c, Identity.caller c r.headers, r⟩
  match Method.ofName? r.method with
  | some m =>
    if route.methods.contains m then
      match route.decode with
      | .ok route => call.answer route m
      | .error name => Request.fail (.unreadableParameter name)
    else pure Call.methodNotAllowed
  | none => pure Call.methodNotAllowed

def dispatch (c : Config) (r : Http.Request) : Request Refusal Http.Response :=
  match Route.ofPath? c.metrics r.path with
  | none => Request.fail (.failure .notFound)
  | some route =>
    if route.isApi then Forwarding.around c r (onRoute c r route) else onRoute c r route

/-- The response that a request ends with, refused or not. -/
def settled (r : Request Refusal Http.Response) : Request Empty Http.Response := do
  let result : Except Refusal Http.Response ← Request.attempt r
  match result with
  | .ok response => return response
  | .error refusal => return refusal.response

def anyValue : Octets := [42]

def openToPages (c : Config) (r : Http.Response) : Http.Response :=
  if c.crossOrigin then
    let headers := r.headers.set "access-control-allow-origin" anyValue
    { r with headers := headers.set "access-control-expose-headers" anyValue }
  else r

def preflight (c : Config) : Http.Response where
  status := 200
  headers :=
    if c.crossOrigin then
      [("access-control-allow-origin", anyValue), ("access-control-allow-methods", anyValue),
       ("access-control-allow-headers", anyValue)]
    else []

/-- The announcement of the methods of a path, where the method of a request is none of them. -/
def announced (c : Config) (r : Http.Request) (response : Http.Response) : Http.Response :=
  match Route.ofPath? c.metrics r.path with
  | none => response
  | some route =>
    let served := (Method.ofName? r.method).any route.methods.contains
    if served || (List.lookup "allow" response.headers).isSome then response
    else { response with headers := response.headers.set "allow" (Octets.ofText route.allow) }

/-- The id of a request: the one it states, or a new one. -/
def requestId (r : Http.Request) : Request ε String :=
  match r.headers.find? "x-request-id" with
  | some id => pure id
  | none => Request.drawId

/-- What the server does with a request: it gets an id, is counted, and is answered for pages of any
origin where that is configured; requests for blueprints and outputs are judged by who sends them
and may be passed on. -/
def serve (c : Config) (r : Http.Request) : Request Empty Http.Response := do
  let id ← requestId r
  let response ←
    if r.method = "OPTIONS" then pure (preflight c)
    else openToPages c <$> settled (dispatch c r)
  Request.count (.httpRequests r.method response.status)
  let response := announced c r response
  let response :=
    { response with headers := response.headers.set "x-request-id" (Octets.ofText id) }
  return if r.method = "HEAD" then { response with body := [] } else response

end DatasetFilters.Api
