import DatasetFilters.Json.Record

namespace DatasetFilters

/-- A dimension of a dataset with the options selected on it: a set, kept in the order of first
insertion. -/
structure Dimension where
  name : String
  options : List String
  deriving DecidableEq, Repr, Inhabited

namespace Dimension

def has (d : Dimension) (option : String) : Bool := d.options.contains option

/-- A list of options with one more at its end, unless it is there already. -/
def insertOption (options : List String) (option : String) : List String :=
  if options.contains option then options else options ++ [option]

/-- Selects more options, each at most once. -/
def insert (d : Dimension) (options : List String) : Dimension :=
  { d with options := options.foldl insertOption d.options }

/-- Deselects options; those not selected are passed over. -/
def erase (d : Dimension) (options : List String) : Dimension :=
  { d with options := d.options.filter fun o => !options.contains o }

/-- A dimension with the options of a list, each once, where it first stands. -/
def ofList (name : String) (options : List String) : Dimension :=
  insert ⟨name, []⟩ options

/-- Whether an edit of the selection changed it. Insertion only adds and erasure only removes, so
the number of options tells. -/
def changed (before after : Dimension) : Bool := before.options.length != after.options.length

/-- Option ids without the empty one and without repetitions, each where it first stands. -/
def distinct (options : List String) : List String :=
  options.foldl (fun acc o => if o.isEmpty then acc else insertOption acc o) []

def toJson (d : Dimension) : Json :=
  .ofMembers [("name", .text d.name), ("options", .texts d.options)]

def ofJson? (j : Json) : Option Dimension := do
  let r ← JsonRecord.of? ["name", "options"] j
  return { name := ← r.required "name" Json.asText?
           options := ← r.defaulted "options" [] (Json.asList? Json.asText?) }

end Dimension
end DatasetFilters
