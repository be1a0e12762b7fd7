import DatasetFilters.Blueprint.Basic
import DatasetFilters.Json.Parser
import DatasetFilters.Json.Printer

namespace DatasetFilters

def kindMember? (kind : String) : Option Json := if kind.isEmpty then none else some (.text kind)

namespace Blueprint

def memberNames : List String :=
  ["filter_id", "instance_id", "dataset", "dimensions", "events", "state", "published", "type",
   "filter_output_id", "etag", "unique_timestamp", "last_updated"]

def members (b : Blueprint) : List (String × Json) :=
  [("filter_id", .text b.id), ("instance_id", .text b.instanceId),
   ("dataset", b.dataset.toJson), ("dimensions", .array (b.dimensions.map Dimension.toJson)),
   ("events", .array (b.events.map Event.toJson)), ("state", .text b.state.name)] ++
  Json.member? "published" (b.published.map .bool) ++
  Json.member? "type" (kindMember? b.kind) ++
  Json.member? "filter_output_id" (b.outputId.map .text) ++
  [("etag", .text b.etag), ("unique_timestamp", .nat b.stamp.toNat),
   ("last_updated", b.lastUpdated.toJson)]

def toJson (b : Blueprint) : Json := .ofMembers b.members

def stamp? (j : Json) : Option UInt64 := (j.asNat? UInt64.size).map UInt64.ofNat

def ofJson? (j : Json) : Option Blueprint := do
  let r ← JsonRecord.of? memberNames j
  return { id := ← r.required "filter_id" Json.asText?
           instanceId := ← r.required "instance_id" Json.asText?
           dataset := ← r.required "dataset" DatasetRef.ofJson?
           dimensions := ← r.defaulted "dimensions" [] (Json.asList? Dimension.ofJson?)
           events := ← r.defaulted "events" [] (Json.asList? Event.ofJson?)
           state := ← r.defaulted "state" .created (Json.asChoice? BlueprintState.names)
           published := ← r.optional "published" Json.asBool?
           kind := ← r.defaulted "type" "" Json.asText?
           outputId := ← r.optional "filter_output_id" Json.asText?
           etag := ← r.defaulted "etag" "" Json.asText?
           stamp := ← r.defaulted "unique_timestamp" 0 stamp?
           lastUpdated := ← r.required "last_updated" Instant.ofJson? }

/-- The text under which a blueprint is stored. -/
def encode (b : Blueprint) : Octets := b.toJson.write

/-- The blueprint that a stored text stands for. -/
def decode? (text : Octets) : Option Blueprint := (Json.parse? text).bind ofJson?

end Blueprint

def BlueprintChange.ofJson? (j : Json) : Option BlueprintChange := do
  let r ← JsonRecord.of?
    ["dataset", "instance_id", "published", "events", "state", "filter_output_id"] j
  return { dataset := ← r.optional "dataset" DatasetRef.ofJson?
           instanceId := ← r.optional "instance_id" Json.asText?
           published := ← r.optional "published" Json.asBool?
           events := ← r.defaulted "events" [] (Json.asList? Event.ofJson?)
           state := ← r.optional "state" (Json.asChoice? BlueprintState.names)
           outputId := ← r.optional "filter_output_id" Json.asText? }

end DatasetFilters
