import DatasetFilters.Api.Refusal
import DatasetFilters.Json.Parser
import DatasetFilters.Json.Record

namespace DatasetFilters.Forwarding

def datasetId? (body : Octets) : Option String := do
  let r ← JsonRecord.of? ["dataset"] (← Json.parse? body)
  r.required "dataset" fun j => do
    let r ← JsonRecord.of? ["id"] j
    r.required "id" Json.asText?

/-- The pieces of a path between slashes, without the slashes at its ends. -/
def pieces (path : Octets) : List Octets :=
  Text.splitAt 47 (Text.dropEndWhile (· == 47) (path.dropWhile (· == 47)))

def isFlexibleFilter (id : String) : Request ε Bool := do
  let found : Except StoreError Blueprint ← Request.access fun s => s.getFilter id .any
  match found with
  | .ok b => return b.isFlexible
  | .error _ => return false

def isFlexibleOutput (id : String) : Request ε Bool := do
  let found : Except StoreError Output ← Request.access fun s => s.getOutput id
  match found with
  | .ok o => return o.isFlexible
  | .error _ => return false

def isFlexibleDataset (id : String) : Request ε Bool := do
  let found : CatalogReply Dataset ← Request.ask (.dataset id)
  match found with
  | .ok d => return d.isFlexible
  | .error _ => return false

/-- Whether a request is about flexible tables. A new blueprint is judged by its dataset, all else
by the stored blueprint or output that the path names; where this cannot be found out, it is not. -/
def concerns (method : String) (path body : Octets) : Request ε Bool :=
  match pieces path with
  | [] => pure false
  | [top] =>
    if top == Octets.ofText "filters" && method == "POST" then
      match datasetId? body with
      | some id => isFlexibleDataset id
      | none => pure false
    else pure false
  | top :: id :: _ =>
    match Octets.text? id with
    | none => pure false
    | some id =>
      if top == Octets.ofText "filters" then isFlexibleFilter id
      else if top == Octets.ofText "filter-outputs" then isFlexibleOutput id
      else pure false

def connectionHeaders : List String :=
  ["connection", "transfer-encoding", "keep-alive", "content-length"]

def onward (r : Http.Request) : Http.Request :=
  { r with
    target := r.pathAndQuery
    headers := r.headers.filter fun h => h.1 != "host" && !connectionHeaders.contains h.1 }

def back (r : Http.Response) : Http.Response :=
  { r with headers := r.headers.filter fun h => !connectionHeaders.contains h.1 }

def pass (c : Config) (r : Http.Request) : Request Refusal Http.Response := do
  let reply : Except String Http.Response ←
    Request.ask (.forward (Text.trimEnd '/' c.flexibleUrl) (onward r))
  match reply with
  | .ok response => return back response
  | .error detail => Request.fail (.failure (.forwarding detail))

/-- Passes a request on if it is to be, and answers it otherwise. -/
def around (c : Config) (r : Http.Request) (answer : Request Refusal Http.Response) :
    Request Refusal Http.Response := do
  if !c.forwardFlexible then answer
  else if r.body.length > c.maxBodySize then
    Request.fail (.failure (.badRequest s!"failed to read request body: {lengthExceeded}"))
  else if ← concerns r.method r.path r.body then pass c r
  else answer

end DatasetFilters.Forwarding
