import DatasetFilters.Table
import DatasetFilters.Text.Octets

namespace DatasetFilters

inductive StoreError where
  | filterNotFound (id : String)
  | outputNotFound (id : String)
  | conflict (id : String)
  | dimensionNotFound (name : String)
  | submitted (id : String)
  | alreadyExists (id : String)
  | serialization (detail : String)
  | backend (detail : String)
  deriving DecidableEq, Repr

def StoreError.message : StoreError → String
  | filterNotFound id => s!"filter blueprint not found: {id}"
  | outputNotFound id => s!"filter output not found: {id}"
  | conflict id => s!"conflict: filter blueprint {id} has been modified"
  | dimensionNotFound name => s!"dimension not found: {name}"
  | submitted id => s!"filter blueprint {id} has already been submitted"
  | alreadyExists id => s!"document already exists: {id}"
  | serialization detail => s!"serialization error: {detail}"
  | backend detail => s!"backend error: {detail}"

inductive Collection where
  | filters
  | outputs
  deriving DecidableEq, Repr

def Collection.name : Collection → String
  | filters => "filters"
  | outputs => "filterOutputs"

inductive Access where
  | get
  | insert
  | modify
  deriving DecidableEq, Repr

def Access.name : Access → String
  | get => "get"
  | insert => "insert"
  | modify => "modify"

/-- Keyed documents in two collections. A backend may fail at any access: `outage` says which
accesses fail, counted from the first one on. -/
structure Backend where
  filters : List (String × Octets) := []
  outputs : List (String × Octets) := []
  /-- The failure of the access with this number, if it fails. -/
  outage : Nat → Access → Collection → Option String := fun _ _ _ => none
  accesses : Nat := 0

namespace Backend

def documents (b : Backend) : Collection → List (String × Octets)
  | .filters => b.filters
  | .outputs => b.outputs

def find? (b : Backend) (c : Collection) (key : String) : Option Octets :=
  (b.documents c).lookup key

/-- Writes a document, whether or not there is one under that key. -/
def put (b : Backend) (c : Collection) (key : String) (text : Octets) : Backend :=
  match c with
  | .filters => { b with filters := Table.put key text b.filters }
  | .outputs => { b with outputs := Table.put key text b.outputs }

theorem find?_put (b : Backend) (c c' : Collection) (key k : String) (text : Octets) :
    (b.put c key text).find? c' k = if c' = c ∧ k = key then some text else b.find? c' k := by
  cases c <;> cases c' <;> simp [put, find?, documents, Table.lookup_put]

def failure? (b : Backend) (a : Access) (c : Collection) : Option StoreError :=
  (b.outage b.accesses a c).map .backend

def touched (b : Backend) : Backend := { b with accesses := b.accesses + 1 }

@[simp] theorem find?_touched (b : Backend) (c : Collection) (key : String) :
    b.touched.find? c key = b.find? c key := by cases c <;> rfl

def get (b : Backend) (c : Collection) (key : String) :
    Except StoreError (Option Octets) × Backend :=
  match b.failure? .get c with
  | some e => (.error e, b.touched)
  | none => (.ok (b.find? c key), b.touched)

def insert (b : Backend) (c : Collection) (key : String) (text : Octets) :
    Except StoreError Unit × Backend :=
  match b.failure? .insert c with
  | some e => (.error e, b.touched)
  | none =>
    if (b.find? c key).isSome then (.error (.alreadyExists key), b.touched)
    else (.ok (), b.touched.put c key text)

/-- Reads a document and writes what `f` makes of it, with no other access in between. `f` may
refuse, and it may leave the document as it is. -/
def modify (b : Backend) (c : Collection) (key : String)
    (f : Option Octets → Except ε (α × Option Octets)) (failed : StoreError → ε) :
    Except ε α × Backend :=
  match b.failure? .modify c with
  | some e => (.error (failed e), b.touched)
  | none =>
    match f (b.find? c key) with
    | .error e => (.error e, b.touched)
    | .ok (a, none) => (.ok a, b.touched)
    | .ok (a, some text) => (.ok a, b.touched.put c key text)

end Backend
end DatasetFilters
