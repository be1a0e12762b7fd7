import DatasetFilters.Caller
import DatasetFilters.Service.Validation

namespace DatasetFilters

structure NewBlueprint where
  dataset : DatasetRef
  dimensions : List Dimension
  kind : String
  deriving DecidableEq, Repr

def NewBlueprint.ofJson? (j : Json) : Option NewBlueprint := do
  let r ← JsonRecord.of? ["dataset", "dimensions", "type"] j
  return { dataset := ← r.required "dataset" DatasetRef.ofJson?
           dimensions := ← r.defaulted "dimensions" [] (Json.asList? Dimension.ofJson?)
           kind := ← r.defaulted "type" "" Json.asText? }

structure DatasetUpdate where
  id : Option String := none
  edition : Option String := none
  version : Option UInt32 := none
  deriving DecidableEq, Repr

def DatasetUpdate.ofJson? (j : Json) : Option DatasetUpdate := do
  let r ← JsonRecord.of? ["id", "edition", "version"] j
  return { id := ← r.nullable "id" Json.asText?
           edition := ← r.nullable "edition" Json.asText?
           version := ← r.nullable "version" DatasetRef.version? }

structure BlueprintUpdate where
  dataset : Option DatasetUpdate := none
  instanceId : Option String := none
  published : Option Bool := none
  events : List EventRequest := []
  deriving DecidableEq, Repr

namespace BlueprintUpdate

def ofJson? (j : Json) : Option BlueprintUpdate := do
  let r ← JsonRecord.of? ["dataset", "instance_id", "published", "events"] j
  return { dataset := ← r.optional "dataset" DatasetUpdate.ofJson?
           instanceId := ← r.optional "instance_id" Json.asText?
           published := ← r.optional "published" Json.asBool?
           events := ← r.defaulted "events" [] (Json.asList? EventRequest.ofJson?) }

/-- Whether a member is named with a value other than the stored one. -/
def differs [DecidableEq α] (named : Option α) (stored : α) : Bool := named.any (· != stored)

/-- The members that are named with other values and may not be changed. -/
def forbidden (u : BlueprintUpdate) (b : Blueprint) : List String :=
  (if differs (u.dataset.bind (·.id)) b.dataset.id then ["dataset.id"] else []) ++
  (if differs (u.dataset.bind (·.edition)) b.dataset.edition then ["dataset.edition"] else []) ++
  (if differs u.instanceId b.instanceId then ["instance_id"] else []) ++
  (if differs (u.published.map some) b.published then ["published"] else [])

/-- The version to move to, if it is another one. -/
def newVersion? (u : BlueprintUpdate) (b : Blueprint) : Option UInt32 :=
  (u.dataset.bind (·.version)).filter (· != b.dataset.version)

/-- The events of an update; the first faulty one is reported. -/
def validEvents (u : BlueprintUpdate) : Except ServiceError (List Event) :=
  (u.events.mapM EventRequest.validate).mapError fun e => .badRequest e.message

end BlueprintUpdate

namespace Blueprints

/-- Dimensions as a new blueprint holds them: names are not blank and stand once each, options
once each and none empty. -/
def normalise (seen : List String) : List Dimension → Except ServiceError (List Dimension)
  | [] => .ok []
  | d :: ds => do
    if Text.isBlankText d.name then throw (.badRequest "dimension name is empty")
    if seen.contains d.name then throw (.badRequest s!"duplicate dimension name: {d.name}")
    let rest ← normalise (d.name :: seen) ds
    return { d with options := Dimension.distinct d.options } :: rest

/-- Submits a blueprint: stores its output, marks it submitted, and tells the workers. If the
workers cannot be told the submission stands all the same. -/
def submit (b : Blueprint) : Request ServiceError Blueprint := do
  if b.isSubmitted then Request.fail (.alreadySubmitted b.id)
  else
    let now ← Request.now
    let outputId ← Request.drawId
    let _ ← Request.write fun s t => s.addOutput t (.ofBlueprint outputId b now)
    let change : BlueprintChange :=
      { state := some .submitted, outputId := some outputId, events := [⟨.created, now⟩] }
    let submitted ← Request.write fun s t => s.updateFilter t b.id change (.exact b.etag)
    Request.count .blueprintsSubmitted
    let sent ← Request.enqueue outputId
    if let .error _ := sent then Request.count .dispatchFailures
    return submitted

/-- Creates a blueprint over a dataset version, and submits it if asked to. -/
def create (settings : Settings) (r : NewBlueprint) (andSubmit : Bool) (caller : Caller) :
    Request ServiceError Blueprint := do
  let version ← Request.answered (← Request.ask (.version r.dataset caller.authenticated))
  let dimensions ← Request.ofExcept (normalise [] r.dimensions)
  Validation.dimensions settings.limits r.dataset dimensions
  let id ← Request.drawId
  let stored ← Request.write fun s t => s.addFilter t
    { id, instanceId := version.instanceId, dataset := r.dataset, dimensions, events := [],
      state := .created, published := some version.isPublished, kind := r.kind,
      outputId := none, etag := "", stamp := 0, lastUpdated := t }
  Request.count .blueprintsCreated
  if andSubmit then submit stored else return stored

/-- Publishes a blueprint for an anonymous reader, if its version is published. Another writer may
come first; the reader then gets what that one left, if it is published. -/
def promote (b : Blueprint) : Request ServiceError Blueprint := do
  let version : CatalogReply Version ← Request.ask (.version b.dataset false)
  match version with
  | .error e =>
    if e.isNotFound then Request.fail (.filterNotFound b.id)
    else Request.fail (.ofCatalog e)
  | .ok _ =>
    let t ← Request.now
    let promoted ← Request.access fun s =>
      s.updateFilter t b.id { published := some true } (.exact b.etag)
    match promoted with
    | .ok promoted => return promoted
    | .error (.conflict _) =>
      let current ← Request.access fun s => s.getFilter b.id .any
      match current with
      | .ok current =>
        if current.isPublished then return current else Request.fail (.filterNotFound b.id)
      | .error (.filterNotFound _) => Request.fail (.filterNotFound b.id)
      | .error e => Request.fail (.ofStore e)
    | .error _ => Request.fail (.filterNotFound b.id)

/-- Reads a blueprint. One that is not published exists for known callers only; once the catalog
reports its version as published, the first anonymous reader publishes it. -/
def get (id : String) (selector : Selector) (caller : Caller) : Request ServiceError Blueprint := do
  let b ← Request.read (·.getFilter id selector)
  if b.isPublished || caller.authenticated then return b else promote b

/-- The change that moves a blueprint to another version of its dataset. -/
def moveTo (settings : Settings) (b : Blueprint) (version : UInt32) (caller : Caller) :
    Request ServiceError BlueprintChange := do
  if b.isSubmitted then Request.fail (.alreadySubmitted b.id)
  else
    let dataset := b.dataset.withVersion version
    let found ← Request.answered (← Request.ask (.version dataset caller.authenticated))
    Validation.dimensions settings.limits dataset b.dimensions
    return { dataset := some dataset, instanceId := some found.instanceId,
             published := some found.isPublished }

/-- Updates a blueprint: appends events, moves to another version of the same edition, and submits
if asked to. -/
def update (settings : Settings) (id : String) (u : BlueprintUpdate) (andSubmit : Bool)
    (selector : Selector) (caller : Caller) : Request ServiceError Blueprint := do
  let current ← Request.read (·.getFilter id selector)
  let forbidden := u.forbidden current
  if !forbidden.isEmpty then Request.fail (.forbidden forbidden)
  else
    let events ← Request.ofExcept u.validEvents
    let move ← match u.newVersion? current with
      | some version => moveTo settings current version caller
      | none => pure {}
    let change := { move with events }
    if andSubmit && current.isSubmitted then Request.fail (.alreadySubmitted current.id)
    else
      let updated ←
        if change.isEmpty then pure current
        else Request.write fun s t => s.updateFilter t id change (.exact current.etag)
      if andSubmit then submit updated else return updated

end Blueprints
end DatasetFilters
