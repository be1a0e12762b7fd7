import DatasetFilters.Service.Blueprints

namespace DatasetFilters

/-- The members of an artefact that an update may name; the others keep their values. -/
structure ArtefactUpdate where
  size : Option String := none
  publicLink : Option String := none
  privateLink : Option String := none
  skipped : Option Bool := none
  deriving DecidableEq, Repr

namespace ArtefactUpdate

def ofJson? (j : Json) : Option ArtefactUpdate := do
  let r ← JsonRecord.of? ["size", "public", "private", "skipped"] j
  return { size := ← r.nullable "size" Json.asText?
           publicLink := ← r.nullable "public" Json.asText?
           privateLink := ← r.nullable "private" Json.asText?
           skipped := ← r.nullable "skipped" Json.asBool? }

def merge (u : ArtefactUpdate) (a : Artefact) : Artefact :=
  { a with
    size := u.size.getD a.size
    publicLink := u.publicLink.getD a.publicLink
    privateLink := u.privateLink.getD a.privateLink
    skipped := u.skipped.getD a.skipped }

end ArtefactUpdate

structure DownloadsUpdate where
  csv : Option ArtefactUpdate := none
  xls : Option ArtefactUpdate := none
  deriving DecidableEq, Repr

namespace DownloadsUpdate

def ofJson? (j : Json) : Option DownloadsUpdate := do
  let r ← JsonRecord.of? ["csv", "xls"] j
  return { csv := ← r.nullable "csv" ArtefactUpdate.ofJson?
           xls := ← r.nullable "xls" ArtefactUpdate.ofJson? }

def get? (u : DownloadsUpdate) : DownloadFormat → Option ArtefactUpdate
  | .csv => u.csv
  | .xls => u.xls

end DownloadsUpdate

/-- A request to update an output. Only `downloads` can be changed. -/
structure OutputUpdate where
  dataset : Option DatasetUpdate := none
  instanceId : Option String := none
  filterId : Option String := none
  downloads : Option DownloadsUpdate := none
  deriving DecidableEq, Repr

namespace OutputUpdate

def ofJson? (j : Json) : Option OutputUpdate := do
  let r ← JsonRecord.of? ["dataset", "instance_id", "filter_id", "downloads"] j
  return { dataset := ← r.nullable "dataset" DatasetUpdate.ofJson?
           instanceId := ← r.nullable "instance_id" Json.asText?
           filterId := ← r.nullable "filter_id" Json.asText?
           downloads := ← r.nullable "downloads" DownloadsUpdate.ofJson? }

def artefact? (u : OutputUpdate) (f : DownloadFormat) : Option ArtefactUpdate :=
  u.downloads.bind (·.get? f)

/-- Whether the private link of a format is named although the output has one. -/
def replacesPrivate (u : OutputUpdate) (o : Output) (f : DownloadFormat) : Bool :=
  ((u.artefact? f).bind (·.privateLink)).isSome &&
    (o.downloads.get? f).any (!·.privateLink.isEmpty)

/-- The members that are named and may not be changed. Once an output is published its private
links are final. -/
def forbidden (u : OutputUpdate) (o : Output) : List String :=
  (if (u.dataset.bind (·.id)).isSome then ["dataset.id"] else []) ++
  (if (u.dataset.bind (·.edition)).isSome then ["dataset.edition"] else []) ++
  (if (u.dataset.bind (·.version)).isSome then ["dataset.version"] else []) ++
  (if u.instanceId.isSome then ["instance_id"] else []) ++
  (if u.filterId.isSome then ["filter_id"] else []) ++
  (if o.isPublished then
    (DownloadFormat.all.filter (u.replacesPrivate o)).map fun f =>
      "downloads." ++ f.key ++ ".private"
  else [])

def href (downloadUrl : String) (o : Output) (f : DownloadFormat) : String :=
  Text.trimEnd '/' downloadUrl ++ "/downloads/filter-outputs/" ++ o.id ++ "." ++ f.extension

def mergeFormat (u : OutputUpdate) (downloadUrl : String) (o : Output) (f : DownloadFormat) :
    Output :=
  match u.artefact? f with
  | none => o
  | some change =>
    let a := change.merge ((o.downloads.get? f).getD {})
    { o with downloads := o.downloads.set f (some { a with href := href downloadUrl o f }) }

def merge (u : OutputUpdate) (downloadUrl : String) (o : Output) : Output :=
  DownloadFormat.all.foldl (u.mergeFormat downloadUrl) o

/-- An output after an update, and whether the update completed it. -/
def apply (u : OutputUpdate) (downloadUrl : String) (now : Instant) (o : Output) :
    Except ServiceError (Output × Bool) :=
  let forbidden := u.forbidden o
  if !forbidden.isEmpty then .error (.forbidden forbidden)
  else
    let merged := u.merge downloadUrl o
    .ok (merged.completeIfReady now, merged.completes)

end OutputUpdate

namespace Outputs

/-- An output as a caller sees it: private and public links are shown to the download service
only. -/
def present (o : Output) (caller : Caller) : Output :=
  if caller.downloadService then o else o.redacted

/-- Reads an output. One that is not published is hidden from anonymous callers. -/
def get (id : String) (caller : Caller) : Request ServiceError Output := do
  let o ← Request.read (·.getOutput id)
  if !o.isPublished && !caller.authenticated && !caller.downloadService then
    Request.fail (.outputNotFound id)
  else return present o caller

/-- Takes in artefacts, and completes the output when both are there. -/
def update (settings : Settings) (id : String) (u : OutputUpdate) (caller : Caller) :
    Request ServiceError Output := do
  if !caller.authenticated then Request.fail .unauthorised
  else
    let t ← Request.now
    let r ← Request.access fun s =>
      s.modifyOutput t id ServiceError.ofStore (u.apply settings.downloadUrl t)
    let (o, completed) ← Request.ofExcept r
    if completed then Request.count .outputsCompleted
    return present o caller

def addEvent (id : String) (r : EventRequest) (caller : Caller) : Request ServiceError Unit := do
  if !caller.authenticated then Request.fail .unauthorised
  else
    let e ← Request.ofExcept (r.validate.mapError fun e => .badRequest e.message)
    let _ ← Request.write fun s t => s.addOutputEvent t id e

end Outputs
end DatasetFilters
