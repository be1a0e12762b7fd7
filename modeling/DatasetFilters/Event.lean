import DatasetFilters.Instant.Parser
import DatasetFilters.Instant.Printer
import DatasetFilters.Json.Record

namespace DatasetFilters

/-- What can happen to blueprints and outputs. -/
inductive EventKind where
  | created
  | queryStart
  | queryEnd
  | csvStart
  | csvEnd
  | xlsxStart
  | xlsxEnd
  | completed
  deriving DecidableEq, Repr

namespace EventKind

def names : List (String × EventKind) :=
  [("FilterOutputCreated", .created), ("FilterOutputQueryStart", .queryStart),
   ("FilterOutputQueryEnd", .queryEnd), ("FilterOutputCSVGenStart", .csvStart),
   ("FilterOutputCSVGenEnd", .csvEnd), ("FilterOutputXLSXGenStart", .xlsxStart),
   ("FilterOutputXLSXGenEnd", .xlsxEnd), ("FilterOutputCompleted", .completed)]

def name : EventKind → String
  | created => "FilterOutputCreated"
  | queryStart => "FilterOutputQueryStart"
  | queryEnd => "FilterOutputQueryEnd"
  | csvStart => "FilterOutputCSVGenStart"
  | csvEnd => "FilterOutputCSVGenEnd"
  | xlsxStart => "FilterOutputXLSXGenStart"
  | xlsxEnd => "FilterOutputXLSXGenEnd"
  | completed => "FilterOutputCompleted"

def ofName? (s : String) : Option EventKind := names.lookup s

theorem ofName?_name (k : EventKind) : ofName? k.name = some k := by
  cases k <;> decide

end EventKind

/-- Something that happened to an output, and when. -/
structure Event where
  kind : EventKind
  time : Instant
  deriving DecidableEq, Repr

namespace Instant

def toJson (t : Instant) : Json := .text (t.write documentFormat)

def ofJson? (j : Json) : Option Instant := j.asText?.bind parse?

end Instant

namespace Event

def toJson (e : Event) : Json :=
  .ofMembers [("type", .text e.kind.name), ("time", e.time.toJson)]

def ofJson? (j : Json) : Option Event := do
  let r ← JsonRecord.of? ["type", "time"] j
  return { kind := ← r.required "type" (Json.asChoice? EventKind.names)
           time := ← r.required "time" Instant.ofJson? }

end Event

inductive EventError where
  | missingType
  | unknownType (name : String)
  | missingTime
  deriving DecidableEq, Repr

def EventError.message : EventError → String
  | missingType => "event type is missing"
  | unknownType name => s!"event type '{name}' is not a recognised filter output event"
  | missingTime => "event time is missing or zero"

/-- An event as a worker reports it, both members possibly missing. -/
structure EventRequest where
  kind : Option String
  time : Option Instant
  deriving DecidableEq, Repr

namespace EventRequest

/-- The event that was reported. The kind is judged before the time; a zero time is none. -/
def validate (r : EventRequest) : Except EventError Event := do
  let name := r.kind.getD ""
  if name = "" then throw .missingType
  let some kind := EventKind.ofName? name | throw (.unknownType name)
  let some time := r.time.filter (!·.isZero) | throw .missingTime
  return ⟨kind, time⟩

def ofJson? (j : Json) : Option EventRequest := do
  let r ← JsonRecord.of? ["type", "time"] j
  return { kind := ← r.optional "type" Json.asText?
           time := ← r.optional "time" Instant.ofJson? }

end EventRequest
end DatasetFilters
