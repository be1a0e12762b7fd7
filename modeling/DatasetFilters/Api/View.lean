import DatasetFilters.Api.Link
import DatasetFilters.Blueprint.Document
import DatasetFilters.Output.Document

namespace DatasetFilters.View

/-- A document as stored without the members named, with links at its end. -/
def linked (hidden : List String) (members : List (String × Json)) (links : Links) : Json :=
  .ofMembers (members.filter (fun m => !hidden.contains m.1) ++ [("links", links.toJson)])

/-- A blueprint as clients see it, with links in the place of what only the store needs. -/
def blueprint (base : LinkBase) (b : Blueprint) : Json :=
  linked ["filter_output_id", "etag", "unique_timestamp"] b.members (base.blueprint b)

def output (base : LinkBase) (o : Output) : Json :=
  linked ["unique_timestamp"] o.members (base.output o)

/-- A dimension in a list or on its own; its options have an address of their own. -/
def dimension (base : LinkBase) (filterId name : String) : Json :=
  .ofMembers [("name", .text name), ("links", (base.dimension filterId name).toJson)]

/-- A dimension that was just written, with its options. -/
def writtenDimension (base : LinkBase) (filterId : String) (d : Dimension) : Json :=
  .ofMembers [("name", .text d.name), ("options", .texts d.options),
    ("links", (base.dimension filterId d.name).toJson)]

def option (base : LinkBase) (filterId dimension option : String) : Json :=
  .ofMembers [("option", .text option), ("dimension", .text dimension),
    ("links", (base.option filterId dimension option).toJson)]

end DatasetFilters.View
