import DatasetFilters.Catalog.Basic
import DatasetFilters.Patch
import DatasetFilters.Store.Backend

namespace DatasetFilters

/-- Why a request to the services fails. A patch that stopped half-way tells what it did before. -/
inductive ServiceError where
  | filterNotFound (id : String)
  | outputNotFound (id : String)
  | conflict (id : String)
  | dimensionNotFound (name : String)
  | optionNotFound (option : String)
  | incorrectDimensions (names : List String)
  | incorrectOptions (dimension : String) (options : List String)
  | versionNotFound (name : String)
  | forbidden (fields : List String)
  | alreadySubmitted (id : String)
  | unauthorised
  | badRequest (detail : String)
  | patch (error : PatchError)
  | patchFailed (successful : List PatchOperation) (etag : String) (cause : ServiceError)
  | catalog (error : CatalogError)
  | store (error : StoreError)
  deriving Repr

namespace ServiceError

def row (names : List String) : String := ", ".intercalate names

def message : ServiceError → String
  | filterNotFound id => s!"filter blueprint not found: {id}"
  | outputNotFound id => s!"filter output not found: {id}"
  | conflict id => s!"filter blueprint {id} has been modified since it was read"
  | dimensionNotFound name => s!"dimension not found: {name}"
  | optionNotFound option => s!"option not found: {option}"
  | incorrectDimensions names => s!"incorrect dimensions chosen: {row names}"
  | incorrectOptions dimension options =>
    s!"incorrect dimension options chosen for {dimension}: {row options}"
  | versionNotFound name => s!"version not found: {name}"
  | forbidden fields => s!"forbidden from updating the following fields: {row fields}"
  | alreadySubmitted id => s!"filter blueprint {id} has already been submitted"
  | unauthorised => "caller is not authenticated"
  | badRequest detail => s!"bad request: {detail}"
  | patch error => error.message
  | patchFailed successful _ cause =>
    s!"patch stopped after {successful.length} successful operation(s): {cause.message}"
  | catalog error => s!"dataset catalog error: {error.message}"
  | store error => s!"store error: {error.message}"

def root : ServiceError → ServiceError
  | patchFailed _ _ cause => cause.root
  | e => e

def ofStore : StoreError → ServiceError
  | .filterNotFound id => filterNotFound id
  | .outputNotFound id => outputNotFound id
  | .conflict id => conflict id
  | .dimensionNotFound name => dimensionNotFound name
  | .submitted id => alreadySubmitted id
  | e => store e

def ofCatalog : CatalogError → ServiceError
  | .versionNotFound name => versionNotFound name
  | .datasetNotFound id => versionNotFound id
  | .dimensionNotFound name => incorrectDimensions [name]
  | e => catalog e

end ServiceError
end DatasetFilters
