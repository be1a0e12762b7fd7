import DatasetFilters.Service.Blueprints

namespace DatasetFilters.Selections

def ensureEditable (b : Blueprint) : Request ServiceError Unit :=
  if b.isSubmitted then Request.fail (.alreadySubmitted b.id) else pure ()

def find (b : Blueprint) (name : String) : Request ServiceError Dimension :=
  match b.dimension? name with
  | some d => pure d
  | none => Request.fail (.dimensionNotFound name)

/-- All dimensions, and the tag of the blueprint. -/
def list (id : String) (selector : Selector) (caller : Caller) :
    Request ServiceError (List Dimension × String) := do
  let b ← Blueprints.get id selector caller
  return (b.dimensions, b.etag)

def get (id name : String) (selector : Selector) (caller : Caller) :
    Request ServiceError (Dimension × String) := do
  let b ← Blueprints.get id selector caller
  return (← find b name, b.etag)

/-- Adds a dimension, or replaces the options of one that is there. Like every edit it reads the
blueprint under the selector of the caller, checks new options against the catalog, and writes on
condition that the blueprint still has the tag that was read. -/
def add (settings : Settings) (id : String) (d : Dimension) (selector : Selector)
    (caller : Caller) : Request ServiceError (Dimension × String) := do
  let b ← Blueprints.get id selector caller
  ensureEditable b
  let d := { d with options := Dimension.distinct d.options }
  Validation.dimension settings.limits b.dataset d.name d.options
  let etag ← Request.write fun s t => s.addDimension t id d (.exact b.etag)
  return (d, etag)

def remove (id name : String) (selector : Selector) (caller : Caller) :
    Request ServiceError String := do
  let b ← Blueprints.get id selector caller
  ensureEditable b
  let _ ← find b name
  Request.write fun s t => s.removeDimension t id name (.exact b.etag)

def options (id name : String) (selector : Selector) (caller : Caller) :
    Request ServiceError (List String × String) := do
  let (d, etag) ← get id name selector caller
  return (d.options, etag)

def option (id name option : String) (selector : Selector) (caller : Caller) :
    Request ServiceError String := do
  let (d, etag) ← get id name selector caller
  if d.has option then return etag else Request.fail (.optionNotFound option)

/-- Adds an option. One that is selected already is not looked up and changes nothing. -/
def addOption (settings : Settings) (id name option : String) (selector : Selector)
    (caller : Caller) : Request ServiceError String := do
  let b ← Blueprints.get id selector caller
  let d ← find b name
  ensureEditable b
  if d.has option then return b.etag
  else
    Validation.dimension settings.limits b.dataset name [option]
    Request.write fun s t => s.addOptions t id name [option] (.exact b.etag)

def removeOption (id name option : String) (selector : Selector) (caller : Caller) :
    Request ServiceError String := do
  let b ← Blueprints.get id selector caller
  let d ← find b name
  if !d.has option then Request.fail (.optionNotFound option)
  else
    ensureEditable b
    Request.write fun s t => s.removeOptions t id name [option] (.exact b.etag)

/-- The ids that an operation is about: not blank, each once. -/
def operands (o : PatchOperation) : List String :=
  Dimension.distinct (o.values.filter fun v => !Text.isBlankText v)

/-- Carries out one operation of a patch on the dimension as it stands, and gives the dimension
and the tag after it. An operation without effect is not written. -/
def apply (settings : Settings) (b : Blueprint) (d : Dimension) (etag : String)
    (o : PatchOperation) : Request ServiceError (Dimension × String) := do
  let values := operands o
  match o.action with
  | .remove =>
    if values.isEmpty then return (d, etag)
    else
      let etag ← Request.write fun s t => s.removeOptions t b.id d.name values (.exact etag)
      return (d.erase values, etag)
  | .add =>
    let new := values.filter fun v => !d.has v
    if new.isEmpty then return (d, etag)
    else
      Validation.dimension settings.limits b.dataset d.name new
      let etag ← Request.write fun s t => s.addOptions t b.id d.name new (.exact etag)
      return (d.insert new, etag)

/-- Carries out operations one after the other, each on the tag that the one before left. The
first that fails ends the patch. -/
def applyAll (settings : Settings) (b : Blueprint) (successful : List PatchOperation)
    (d : Dimension) (etag : String) :
    List PatchOperation → Request ServiceError (List PatchOperation × String)
  | [] => pure (successful, etag)
  | o :: rest => do
    let r : Except ServiceError (Dimension × String) ←
      Request.attempt (apply settings b d etag o)
    match r with
    | .ok (d, etag) =>
      Request.count (.patchOperations o.action)
      applyAll settings b (successful ++ [o]) d etag rest
    | .error cause => Request.fail (.patchFailed successful etag cause)

def patch (settings : Settings) (id name : String) (operations : List PatchOperation)
    (selector : Selector) (caller : Caller) :
    Request ServiceError (List PatchOperation × String) := do
  Request.ofExcept ((Patch.checkSize settings.maxPatchOptions operations).mapError .patch)
  let b ← Blueprints.get id selector caller
  let d ← find b name
  ensureEditable b
  applyAll settings b [] d b.etag operations

end DatasetFilters.Selections
