import DatasetFilters.Blueprint.Document
import DatasetFilters.Output.Basic

namespace DatasetFilters

namespace Artefact

def toJson (a : Artefact) : Json :=
  .ofMembers [("href", .text a.href), ("size", .text a.size), ("public", .text a.publicLink),
    ("private", .text a.privateLink), ("skipped", .bool a.skipped)]

def ofJson? (j : Json) : Option Artefact := do
  let r ← JsonRecord.of? ["href", "size", "public", "private", "skipped"] j
  return { href := ← r.defaulted "href" "" Json.asText?
           size := ← r.defaulted "size" "" Json.asText?
           publicLink := ← r.defaulted "public" "" Json.asText?
           privateLink := ← r.defaulted "private" "" Json.asText?
           skipped := ← r.defaulted "skipped" false Json.asBool? }

end Artefact

namespace Downloads

def toJson (d : Downloads) : Json :=
  .ofMembers (Json.member? "csv" (d.csv.map Artefact.toJson) ++
    Json.member? "xls" (d.xls.map Artefact.toJson))

def ofJson? (j : Json) : Option Downloads := do
  let r ← JsonRecord.of? ["csv", "xls"] j
  return { csv := ← r.optional "csv" Artefact.ofJson?
           xls := ← r.optional "xls" Artefact.ofJson? }

end Downloads

namespace Output

def memberNames : List String :=
  ["id", "filter_id", "instance_id", "dataset", "dimensions", "events", "state", "published",
   "type", "downloads", "unique_timestamp", "last_updated"]

def members (o : Output) : List (String × Json) :=
  [("id", .text o.id), ("filter_id", .text o.filterId), ("instance_id", .text o.instanceId),
   ("dataset", o.dataset.toJson), ("dimensions", .array (o.dimensions.map Dimension.toJson)),
   ("events", .array (o.events.map Event.toJson)), ("state", .text o.state.name)] ++
  Json.member? "published" (o.published.map .bool) ++
  Json.member? "type" (kindMember? o.kind) ++
  [("downloads", o.downloads.toJson), ("unique_timestamp", .nat o.stamp.toNat),
   ("last_updated", o.lastUpdated.toJson)]

def toJson (o : Output) : Json := .ofMembers o.members

def ofJson? (j : Json) : Option Output := do
  let r ← JsonRecord.of? memberNames j
  return { id := ← r.required "id" Json.asText?
           filterId := ← r.required "filter_id" Json.asText?
           instanceId := ← r.required "instance_id" Json.asText?
           dataset := ← r.required "dataset" DatasetRef.ofJson?
           dimensions := ← r.defaulted "dimensions" [] (Json.asList? Dimension.ofJson?)
           events := ← r.defaulted "events" [] (Json.asList? Event.ofJson?)
           state := ← r.defaulted "state" .created (Json.asChoice? OutputState.names)
           published := ← r.optional "published" Json.asBool?
           kind := ← r.defaulted "type" "" Json.asText?
           downloads := ← r.defaulted "downloads" {} Downloads.ofJson?
           stamp := ← r.defaulted "unique_timestamp" 0 Blueprint.stamp?
           lastUpdated := ← r.required "last_updated" Instant.ofJson? }

/-- The text under which an output is stored. -/
def encode (o : Output) : Octets := o.toJson.write

/-- The output that a stored text stands for. -/
def decode? (text : Octets) : Option Output := (Json.parse? text).bind ofJson?

end Output
end DatasetFilters
