import DatasetFilters.Service.Request

namespace DatasetFilters.Validation

def missing (confirmed : List Confirmation) : List String :=
  confirmed.flatMap fun c => c.requested.filter fun id => !c.found.contains id

/-- Judges ids by what was confirmed. The unknown ones are reported all together, each once, in the
order in which they were named. -/
def verdict (dimension : String) (ids : List String) (confirmed : List Confirmation) :
    Except ServiceError Unit :=
  let unknown := ids.filter (missing confirmed).contains
  if unknown.isEmpty then .ok () else .error (.incorrectOptions dimension unknown)

def declared (d : DatasetRef) : Request ServiceError (List String) := do
  let dimensions ← Request.answered (← Request.ask (.dimensions d))
  return dimensions.map (·.name)

def options (limits : BatchLimits) (d : DatasetRef) (dimension : String) (ids : List String) :
    Request ServiceError Unit := do
  let ids := Dimension.distinct ids
  if ids.isEmpty then return
  let confirmed ← Request.answered
    (← Request.ask (.options d dimension (Lookup.plan limits ids)))
  Request.ofExcept (verdict dimension ids confirmed)

def dimension (limits : BatchLimits) (d : DatasetRef) (name : String) (ids : List String) :
    Request ServiceError Unit := do
  let names ← declared d
  if !names.contains name then Request.fail (.incorrectDimensions [name])
  else options limits d name ids

/-- Checks the options of several dimensions, one after the other. -/
def allOptions (limits : BatchLimits) (d : DatasetRef) : List Dimension → Request ServiceError Unit
  | [] => pure ()
  | x :: xs => do
    options limits d x.name x.options
    allOptions limits d xs

/-- Checks several dimensions. Unknown ones are reported before any options are looked up. -/
def dimensions (limits : BatchLimits) (d : DatasetRef) (xs : List Dimension) :
    Request ServiceError Unit := do
  if xs.isEmpty then return
  let names ← declared d
  let unknown := (xs.map (·.name)).filter fun name => !names.contains name
  if unknown.isEmpty then allOptions limits d xs
  else Request.fail (.incorrectDimensions unknown)

end DatasetFilters.Validation
