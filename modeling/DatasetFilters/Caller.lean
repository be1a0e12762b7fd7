namespace DatasetFilters

/-- Who sends a request. -/
structure Caller where
  authenticated : Bool
  downloadService : Bool
  deriving DecidableEq, Repr, Inhabited

def Caller.anonymous : Caller := ⟨false, false⟩

end DatasetFilters
