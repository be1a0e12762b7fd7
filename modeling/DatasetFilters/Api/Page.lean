import DatasetFilters.Api.Error
import DatasetFilters.Config.Basic
import DatasetFilters.Text.Percent

namespace DatasetFilters

/-- The parameters of a query. A later value of a name stands for all of them. -/
abbrev QueryParameters := List (String × String)

namespace QueryParameters

def find? (ps : QueryParameters) (name : String) : Option String := List.lookup name ps.reverse

/-- Reads a natural number of 64 bits: digits with an optional plus sign, blanks around them. -/
def count? (raw : String) : Option Nat :=
  let ds := match (Text.trim raw).toList with | '+' :: ds => ds | ds => ds
  if ds.isEmpty || !ds.all Char.isDigit then none
  else (some (Decimal.value (Decimal.ofChars ds))).filter (· < UInt64.size)

/-- A count that a parameter states, or `default` without it. -/
def count (ps : QueryParameters) (name : String) (default : Nat) : Except ApiError Nat :=
  match ps.find? name with
  | none => .ok default
  | some raw =>
    match count? raw with
    | some n => .ok n
    | none => .error (.invalidQuery s!"{name} must be a non-negative integer, got '{raw}'")

def submitted (ps : QueryParameters) : Except ApiError Bool :=
  match ps.find? "submitted" with
  | none => .ok false
  | some raw =>
    if raw = "" || raw = "false" then .ok false
    else if raw = "true" then .ok true
    else .error (.invalidQuery s!"submitted must be true or false, got '{raw}'")

end QueryParameters

/-- Which part of a list is wanted. -/
structure Page where
  offset : Nat
  limit : Nat
  deriving DecidableEq, Repr

namespace Page

def ofQuery (c : Config) (ps : QueryParameters) : Except ApiError Page := do
  let offset ← ps.count "offset" 0
  let limit ← ps.count "limit" c.defaultLimit
  if limit > c.maxLimit then
    throw (.invalidQuery s!"limit must not exceed {c.maxLimit}")
  return ⟨offset, limit⟩

def of (p : Page) (l : List α) : List α := (l.drop p.offset).take p.limit

def toJson (p : Page) (l : List Json) : Json :=
  let items := p.of l
  .ofMembers [("items", .array items), ("count", .nat items.length), ("offset", .nat p.offset),
    ("limit", .nat p.limit), ("total_count", .nat l.length)]

end Page
end DatasetFilters
