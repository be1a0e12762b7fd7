import DatasetFilters.Patch
import DatasetFilters.Table

namespace DatasetFilters

/-- What the services count of what they did. -/
inductive Counter where
  | blueprintsCreated
  | blueprintsSubmitted
  | dispatchFailures
  | outputsCompleted
  | patchOperations (action : PatchAction)
  | httpRequests (method : String) (status : Nat)
  deriving DecidableEq, Repr

namespace Counter

/-- The name of a counter, without its labels. -/
def name : Counter → String
  | blueprintsCreated => "filter_blueprints_created_total"
  | blueprintsSubmitted => "filter_blueprints_submitted_total"
  | dispatchFailures => "filter_output_dispatch_failures_total"
  | outputsCompleted => "filter_outputs_completed_total"
  | patchOperations _ => "filter_patch_operations_total"
  | httpRequests _ _ => "filter_http_requests_total"

def labels : Counter → List (String × String)
  | patchOperations action => [("op", action.name)]
  | httpRequests method status => [("method", method), ("status", Decimal.text status)]
  | _ => []

def descriptions : List (String × String) :=
  [("filter_blueprints_created_total", "Total filter blueprints created"),
   ("filter_blueprints_submitted_total", "Total filter blueprints submitted"),
   ("filter_output_dispatch_failures_total",
    "Total submitted outputs that could not be enqueued"),
   ("filter_outputs_completed_total", "Total filter outputs moved to completed"),
   ("filter_patch_operations_total", "Total dimension patch operations applied")]

end Counter

/-- Counters with their values. Those not mentioned stand at zero. -/
abbrev Counters := List (Counter × Nat)

namespace Counters

def value (cs : Counters) (c : Counter) : Nat := (cs.lookup c).getD 0

def increment (cs : Counters) (c : Counter) : Counters := Table.put c (cs.value c + 1) cs

theorem value_increment (cs : Counters) (c c' : Counter) :
    (cs.increment c).value c' = if c' = c then cs.value c + 1 else cs.value c' := by
  simp only [value, increment, Table.lookup_put]
  split <;> rfl

end Counters
end DatasetFilters
