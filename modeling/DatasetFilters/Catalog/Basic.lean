import DatasetFilters.Dataset

namespace DatasetFilters

inductive CatalogError where
  | datasetNotFound (id : String)
  | versionNotFound (name : String)
  | dimensionNotFound (name : String)
  | transport (detail : String)
  | failedReply (status : Nat) (message : String)
  | serialization (detail : String)
  deriving DecidableEq, Repr

namespace CatalogError

def message : CatalogError → String
  | datasetNotFound id => s!"dataset not found: {id}"
  | versionNotFound name => s!"version not found: {name}"
  | dimensionNotFound name => s!"dimension not found: {name}"
  | transport detail => s!"catalog request failed: {detail}"
  | failedReply status message => s!"catalog returned {status}: {message}"
  | serialization detail => s!"invalid catalog response: {detail}"

def isNotFound : CatalogError → Bool
  | datasetNotFound _ | versionNotFound _ | dimensionNotFound _ => true
  | _ => false

end CatalogError

def publishedState : String := "published"

/-- The type of datasets that the sibling service for flexible tables serves. -/
def flexibleDatasetType : String := "cantabular_flexible_table"

structure Dataset where
  id : String
  kind : String
  state : String
  deriving DecidableEq, Repr

namespace Dataset

def isFlexible (d : Dataset) : Bool := d.kind == flexibleDatasetType

def toJson (d : Dataset) : Json :=
  .ofMembers [("id", .text d.id), ("type", .text d.kind), ("state", .text d.state)]

def ofJson? (j : Json) : Option Dataset := do
  let r ← JsonRecord.of? ["id", "type", "state"] j
  return { id := ← r.required "id" Json.asText?
           kind := ← r.defaulted "type" "" Json.asText?
           state := ← r.defaulted "state" "" Json.asText? }

end Dataset

/-- A version of a dataset, as the catalog knows it. -/
structure Version where
  instanceId : String
  state : String
  deriving DecidableEq, Repr

namespace Version

def isPublished (v : Version) : Bool := v.state == publishedState

/-- A version that is not published does not exist for anonymous callers. -/
def visibleTo (v : Version) (dataset : DatasetRef) (authenticated : Bool) :
    Except CatalogError Version :=
  if v.isPublished || authenticated then .ok v else .error (.versionNotFound dataset.name)

def toJson (v : Version) : Json :=
  .ofMembers [("id", .text v.instanceId), ("state", .text v.state)]

def ofJson? (j : Json) : Option Version := do
  let r ← JsonRecord.of? ["id", "state"] j
  return { instanceId := ← r.required "id" Json.asText?
           state := ← r.defaulted "state" "" Json.asText? }

end Version

structure VersionDimension where
  name : String
  label : String
  deriving DecidableEq, Repr

namespace VersionDimension

def toJson (d : VersionDimension) : Json :=
  .ofMembers <| ("name", .text d.name) ::
    Json.member? "label" (if d.label.isEmpty then none else some (.text d.label))

def ofJson? (j : Json) : Option VersionDimension := do
  let r ← JsonRecord.of? ["name", "label"] j
  return { name := ← r.required "name" Json.asText?
           label := ← r.defaulted "label" "" Json.asText? }

end VersionDimension

/-- An answer of the catalog of published datasets. -/
abbrev CatalogReply (α : Type) := Except CatalogError α

end DatasetFilters
