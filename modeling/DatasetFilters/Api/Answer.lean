import DatasetFilters.Api.Page
import DatasetFilters.Api.Refusal
import DatasetFilters.Api.Route
import DatasetFilters.Api.View
import DatasetFilters.Service.Outputs
import DatasetFilters.Service.Selections

namespace DatasetFilters

/-- A request that is to be answered, with who sent it. -/
structure Call where
  config : Config
  caller : Caller
  request : Http.Request

namespace Call

def links (c : Call) : LinkBase := .ofHeaders c.config c.request.headers

def query (c : Call) : QueryParameters := Percent.pairs c.request.query

/-- The condition that the headers state. A blank one is none. -/
def condition? (c : Call) : Option Selector :=
  ((c.request.headers.find? "if-match").filter (!Text.isBlankText ·)).map .parse

def optionalCondition (c : Call) : Selector := c.condition?.getD .any

def requiredCondition (c : Call) : Request Refusal Selector :=
  match c.condition? with
  | some s => pure s
  | none => Request.fail (.failure .missingIfMatch)

def body (c : Call) : Request Refusal Octets := Api.body c.config c.request

def parse (text : Octets) (read : Json → Option α) : Request Refusal α :=
  match (Json.parse? text).bind read with
  | some a => pure a
  | none => Request.fail (.failure (.badRequest "JSON parse error"))

def page (c : Call) : Request Refusal Page := Api.judged (Page.ofQuery c.config c.query)

def submitted (c : Call) : Request Refusal Bool := Api.judged c.query.submitted

def withBlueprint (c : Call) (status : Nat) (b : Blueprint) : Request Refusal Http.Response :=
  Api.tagged b.etag (Api.document status (View.blueprint c.links b))

def withOutput (c : Call) (o : Output) : Request Refusal Http.Response :=
  Api.tagged o.tag (Api.document 200 (View.output c.links o))

def withoutContent (etag : String) : Request Refusal Http.Response :=
  Api.tagged etag { status := 204 }

def createFilter (c : Call) : Request Refusal Http.Response := do
  let text ← c.body
  let submit ← c.submitted
  let new ← parse text NewBlueprint.ofJson?
  let b ← Api.service .create (Blueprints.create c.config.settings new submit c.caller)
  c.withBlueprint 201 b

def getFilter (c : Call) (id : String) : Request Refusal Http.Response := do
  let b ← Api.service .read (Blueprints.get id c.optionalCondition c.caller)
  c.withBlueprint 200 b

def updateFilter (c : Call) (id : String) : Request Refusal Http.Response := do
  let text ← c.body
  let selector ← c.requiredCondition
  let submit ← c.submitted
  let u ← parse text BlueprintUpdate.ofJson?
  let b ← Api.service .updateBlueprint
    (Blueprints.update c.config.settings id u submit selector c.caller)
  c.withBlueprint 200 b

def listDimensions (c : Call) (id : String) : Request Refusal Http.Response := do
  let page ← c.page
  let (ds, etag) ← Api.service .read (Selections.list id c.optionalCondition c.caller)
  let items := ds.map fun d => View.dimension c.links id d.name
  Api.tagged etag (Api.document 200 (page.toJson items))

def getDimension (c : Call) (id name : String) : Request Refusal Http.Response := do
  let (d, etag) ← Api.service .read (Selections.get id name c.optionalCondition c.caller)
  Api.tagged etag (Api.document 200 (View.dimension c.links id d.name))

def addedOptions? (j : Json) : Option (List String) := do
  let r ← JsonRecord.of? ["options"] j
  r.defaulted "options" [] (Json.asList? Json.asText?)

/-- The options of a dimension that is added; a blank body names none. -/
def addedOptions (text : Octets) : Request Refusal (List String) :=
  if text.all Octets.isBlankOctet then pure [] else parse text addedOptions?

def addDimension (c : Call) (id name : String) : Request Refusal Http.Response := do
  let text ← c.body
  let selector ← c.requiredCondition
  let options ← addedOptions text
  let (d, etag) ← Api.service .write
    (Selections.add c.config.settings id (.ofList name options) selector c.caller)
  Api.tagged etag (Api.document 201 (View.writtenDimension c.links id d))

def removeDimension (c : Call) (id name : String) : Request Refusal Http.Response := do
  let selector ← c.requiredCondition
  let etag ← Api.service .write (Selections.remove id name selector c.caller)
  withoutContent etag

def patchType : String := "application/json-patch+json"

def patchDimension (c : Call) (id name : String) : Request Refusal Http.Response := do
  let text ← c.body
  let selector ← c.requiredCondition
  let operations ← Api.service .write <| Request.ofExcept <|
    (Patch.parse c.config.maxPatchOptions text).mapError .patch
  let (applied, etag) ← Api.service .write
    (Selections.patch c.config.settings id name operations selector c.caller)
  let document := Api.document 200 (.array (applied.map PatchOperation.toJson))
  let headers := document.headers.set "content-type" (Octets.ofText patchType)
  Api.tagged etag { document with headers }

def listOptions (c : Call) (id name : String) : Request Refusal Http.Response := do
  let page ← c.page
  let (options, etag) ← Api.service .read
    (Selections.options id name c.optionalCondition c.caller)
  let items := options.map fun o => View.option c.links id name o
  Api.tagged etag (Api.document 200 (page.toJson items))

def getOption (c : Call) (id name option : String) : Request Refusal Http.Response := do
  let etag ← Api.service .read (Selections.option id name option c.optionalCondition c.caller)
  Api.tagged etag (Api.document 200 (View.option c.links id name option))

def addOption (c : Call) (id name option : String) : Request Refusal Http.Response := do
  let selector ← c.requiredCondition
  let etag ← Api.service .write
    (Selections.addOption c.config.settings id name option selector c.caller)
  Api.tagged etag (Api.document 201 (View.option c.links id name option))

def removeOption (c : Call) (id name option : String) : Request Refusal Http.Response := do
  let selector ← c.requiredCondition
  let etag ← Api.service .write (Selections.removeOption id name option selector c.caller)
  withoutContent etag

def getOutput (c : Call) (id : String) : Request Refusal Http.Response := do
  c.withOutput (← Api.service .read (Outputs.get id c.caller))

def requireKnown (c : Call) : Request Refusal Unit :=
  if c.caller.authenticated then pure () else Api.service .write (Request.fail .unauthorised)

def updateOutput (c : Call) (id : String) : Request Refusal Http.Response := do
  let text ← c.body
  c.requireKnown
  let u ← parse text OutputUpdate.ofJson?
  c.withOutput (← Api.service .write (Outputs.update c.config.settings id u c.caller))

def addEvent (c : Call) (id : String) : Request Refusal Http.Response := do
  let text ← c.body
  c.requireKnown
  let e ← parse text EventRequest.ofJson?
  Api.service .write (Outputs.addEvent id e c.caller)
  return { status := 201 }

def serverVersion : String := "0.1.0"

def health : Request Refusal Http.Response := do
  let now ← Request.now
  return Api.document 200 <| .ofMembers
    [("status", .text "healthy"), ("service", .text "filter-api"),
     ("version", .text serverVersion), ("timestamp", .text (now.write Instant.reportFormat))]

def metrics : Request Refusal Http.Response := pure (Api.plain 503 "Metrics not initialized")

/-- The answer to a method that a route does not serve; the methods it serves are added later. -/
def methodNotAllowed : Http.Response := { status := 405 }

/-- What the server answers on a route. Writing to a blueprint needs a condition in `If-Match`;
where a blueprint is read it may have one. -/
def answer (c : Call) : Route String → Method → Request Refusal Http.Response
  | .health, .get => health
  | .metrics, .get => metrics
  | .filters, .post => c.createFilter
  | .filter id, .get => c.getFilter id
  | .filter id, .put => c.updateFilter id
  | .dimensions id, .get => c.listDimensions id
  | .dimension id name, .get => c.getDimension id name
  | .dimension id name, .post => c.addDimension id name
  | .dimension id name, .delete => c.removeDimension id name
  | .dimension id name, .patch => c.patchDimension id name
  | .options id name, .get => c.listOptions id name
  | .option id name o, .get => c.getOption id name o
  | .option id name o, .post => c.addOption id name o
  | .option id name o, .delete => c.removeOption id name o
  | .output id, .get => c.getOutput id
  | .output id, .put => c.updateOutput id
  | .events id, .post => c.addEvent id
  | _, _ => pure methodNotAllowed

end Call
end DatasetFilters
