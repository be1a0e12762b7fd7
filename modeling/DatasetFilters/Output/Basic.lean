import DatasetFilters.Blueprint.Basic

namespace DatasetFilters

inductive DownloadFormat where
  | csv
  | xls
  deriving DecidableEq, Repr

namespace DownloadFormat

/-- Every format, in the order in which they are treated. -/
def all : List DownloadFormat := [.csv, .xls]

def key : DownloadFormat → String
  | csv => "csv"
  | xls => "xls"

def extension : DownloadFormat → String
  | csv => "csv"
  | xls => "xlsx"

end DownloadFormat

structure Artefact where
  href : String := ""
  size : String := ""
  publicLink : String := ""
  privateLink : String := ""
  skipped : Bool := false
  deriving DecidableEq, Repr, Inhabited

namespace Artefact

/-- Delivered with a link, or skipped. -/
def isReady (a : Artefact) : Bool := !a.href.isEmpty || a.skipped

def redacted (a : Artefact) : Artefact := { a with publicLink := "", privateLink := "" }

end Artefact

structure Downloads where
  csv : Option Artefact := none
  xls : Option Artefact := none
  deriving DecidableEq, Repr, Inhabited

namespace Downloads

def get? (d : Downloads) : DownloadFormat → Option Artefact
  | .csv => d.csv
  | .xls => d.xls

def set (d : Downloads) : DownloadFormat → Option Artefact → Downloads
  | .csv, a => { d with csv := a }
  | .xls, a => { d with xls := a }

@[simp] theorem get?_set_self (d : Downloads) (f : DownloadFormat) (a : Option Artefact) :
    (d.set f a).get? f = a := by cases f <;> rfl

theorem get?_set_of_ne (d : Downloads) {f g : DownloadFormat} (h : f ≠ g)
    (a : Option Artefact) : (d.set f a).get? g = d.get? g := by
  cases f <;> cases g <;> first | rfl | exact absurd rfl h

def isComplete (d : Downloads) : Bool :=
  DownloadFormat.all.all fun f => (d.get? f).any Artefact.isReady

def redacted (d : Downloads) : Downloads :=
  ⟨d.csv.map Artefact.redacted, d.xls.map Artefact.redacted⟩

end Downloads

inductive OutputState where
  | created
  | completed
  deriving DecidableEq, Repr, Inhabited

namespace OutputState

def name : OutputState → String
  | created => "created"
  | completed => "completed"

def names : List (String × OutputState) := [("created", .created), ("completed", .completed)]

end OutputState

/-- What a submitted blueprint is made into, with the artefacts that workers deliver. -/
structure Output where
  id : String
  filterId : String
  instanceId : String
  dataset : DatasetRef
  dimensions : List Dimension
  events : List Event
  state : OutputState
  published : Option Bool
  kind : String
  downloads : Downloads
  stamp : UInt64
  lastUpdated : Instant
  deriving DecidableEq, Repr, Inhabited

namespace Output

def ofBlueprint (id : String) (b : Blueprint) (now : Instant) : Output where
  id := id
  filterId := b.id
  instanceId := b.instanceId
  dataset := b.dataset
  dimensions := b.dimensions
  events := [⟨.created, now⟩]
  state := .created
  published := b.published
  kind := b.kind
  downloads := {}
  stamp := 0
  lastUpdated := now

def isPublished (o : Output) : Bool := o.published == some true

def isFlexible (o : Output) : Bool := o.kind == flexibleType

/-- Whether an output moves to `completed`: its artefacts are ready and it has not moved yet. -/
def completes (o : Output) : Bool := o.state != .completed && o.downloads.isComplete

/-- The output completed, if it is due, with the event that records it. -/
def completeIfReady (o : Output) (now : Instant) : Output :=
  if o.completes then
    { o with state := .completed, events := o.events ++ [⟨.completed, now⟩] }
  else o

def redacted (o : Output) : Output := { o with downloads := o.downloads.redacted }

end Output
end DatasetFilters
