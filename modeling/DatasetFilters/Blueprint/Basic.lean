import DatasetFilters.Dataset
import DatasetFilters.Dimension
import DatasetFilters.Event

namespace DatasetFilters

/-- The type of blueprints and outputs that the sibling service for flexible tables serves. -/
def flexibleType : String := "flexible"

/-- Whether a blueprint can still be edited. A submitted one stays submitted. -/
inductive BlueprintState where
  | created
  | submitted
  deriving DecidableEq, Repr, Inhabited

namespace BlueprintState

def name : BlueprintState → String
  | created => "created"
  | submitted => "submitted"

def names : List (String × BlueprintState) := [("created", .created), ("submitted", .submitted)]

end BlueprintState

/-- An editable selection over one dataset version. -/
structure Blueprint where
  id : String
  instanceId : String
  dataset : DatasetRef
  dimensions : List Dimension
  events : List Event
  state : BlueprintState
  published : Option Bool
  kind : String
  outputId : Option String
  /-- The tag of the content, as it was stored. -/
  etag : String
  stamp : UInt64
  lastUpdated : Instant
  deriving DecidableEq, Repr, Inhabited

namespace Blueprint

def isSubmitted (b : Blueprint) : Bool := b.state == .submitted

def isPublished (b : Blueprint) : Bool := b.published == some true

def isFlexible (b : Blueprint) : Bool := b.kind == flexibleType

def dimension? (b : Blueprint) (name : String) : Option Dimension :=
  b.dimensions.find? (·.name == name)

def modifyFirst (name : String) (f : Dimension → Dimension) : List Dimension → List Dimension
  | [] => []
  | d :: ds => if d.name = name then f d :: ds else d :: modifyFirst name f ds

/-- Edits the dimension of a name, if there is one. -/
def modifyDimension? (b : Blueprint) (name : String) (f : Dimension → Dimension) :
    Option Blueprint :=
  if (b.dimension? name).isSome then
    some { b with dimensions := modifyFirst name f b.dimensions }
  else none

/-- Appends a dimension, or puts its options in the place of those of the same name. -/
def upsertDimension (b : Blueprint) (d : Dimension) : Blueprint :=
  (b.modifyDimension? d.name fun old => { old with options := d.options }).getD
    { b with dimensions := b.dimensions ++ [d] }

def removeDimension (b : Blueprint) (name : String) : Blueprint :=
  { b with dimensions := b.dimensions.filter (·.name != name) }

end Blueprint

/-- A change to a blueprint as a whole; members that are absent change nothing. -/
structure BlueprintChange where
  dataset : Option DatasetRef := none
  instanceId : Option String := none
  published : Option Bool := none
  events : List Event := []
  state : Option BlueprintState := none
  outputId : Option String := none
  deriving DecidableEq, Repr

namespace BlueprintChange

def empty : BlueprintChange := {}

def isEmpty (c : BlueprintChange) : Bool := c == empty

def apply (c : BlueprintChange) (b : Blueprint) : Blueprint :=
  { b with
    dataset := c.dataset.getD b.dataset
    instanceId := c.instanceId.getD b.instanceId
    published := if b.isPublished then b.published else c.published.or b.published
    events := b.events ++ c.events
    state := c.state.getD b.state
    outputId := c.outputId.or b.outputId }

end BlueprintChange
end DatasetFilters
