import DatasetFilters.Json.Basic

namespace DatasetFilters

/-- The members of a record by name, as they were found. -/
structure JsonRecord where
  positional : Bool
  members : List (String × Json)

namespace JsonRecord

/-- Reads a value as a record whose members are `names`, in that order. It may be written as an
object, its members named, or as an array, its members in order. Members of other names are passed
over; a member given twice, and an array with too many items, is refused. -/
def of? (names : List String) : Json → Option JsonRecord
  | .array items =>
    if items.length ≤ names.length then some ⟨true, names.zip items⟩ else none
  | .object members => do
    let named ← members.mapM fun m => m.1.map (·, m.2)
    let known := named.filter fun m => names.contains m.1
    if (known.map (·.1)).Nodup then some ⟨false, known⟩ else none
  | _ => none

def find? (r : JsonRecord) (name : String) : Option Json := r.members.lookup name

def required (r : JsonRecord) (name : String) (read : Json → Option α) : Option α :=
  (r.find? name).bind read

/-- A member that has the value `default` when it is not there. -/
def defaulted (r : JsonRecord) (name : String) (default : α) (read : Json → Option α) :
    Option α :=
  match r.find? name with
  | none => some default
  | some v => read v

def optional (r : JsonRecord) (name : String) (read : Json → Option α) : Option (Option α) :=
  match r.find? name with
  | none | some .null => some none
  | some v => (read v).map some

/-- A member that may be null, and missing only where members are named. -/
def nullable (r : JsonRecord) (name : String) (read : Json → Option α) : Option (Option α) :=
  if r.positional && (r.find? name).isNone then none else r.optional name read

end JsonRecord

namespace Json

def asText? : Json → Option String
  | .text s => some s
  | _ => none

def asBool? : Json → Option Bool
  | .bool b => some b
  | _ => none

/-- Reads a natural number below `bound`. -/
def asNat? (bound : Nat) : Json → Option Nat
  | .number n => n.nat?.filter (· < bound)
  | _ => none

def asList? (read : Json → Option α) : Json → Option (List α)
  | .array items => items.mapM read
  | _ => none

/-- Reads one of a fixed choice of names, given as a text or as the only member of an object,
with a null for its value. -/
def asChoice? (choices : List (String × α)) : Json → Option α
  | .text s => choices.lookup s
  | .object [(some s, .null)] => choices.lookup s
  | _ => none

end Json
end DatasetFilters
