import DatasetFilters.Json.FreeForm
import DatasetFilters.Json.Printer
import DatasetFilters.Json.Record

namespace DatasetFilters

inductive PatchAction where
  | add
  | remove
  deriving DecidableEq, Repr

namespace PatchAction

def name : PatchAction → String
  | add => "add"
  | remove => "remove"

def names : List (String × PatchAction) := [("add", .add), ("remove", .remove)]

end PatchAction

/-- An operation of a patch, which adds options to a dimension or removes them. -/
structure PatchOperation where
  action : PatchAction
  path : String
  values : List String
  deriving DecidableEq, Repr

namespace PatchOperation

def toJson (o : PatchOperation) : Json :=
  .ofMembers [("op", .text o.action.name), ("path", .text o.path), ("value", .texts o.values)]

def ofJson? (j : Json) : Option PatchOperation := do
  let r ← JsonRecord.of? ["op", "path", "value"] j
  return { action := ← r.required "op" (Json.asChoice? PatchAction.names)
           path := ← r.required "path" Json.asText?
           values := ← r.required "value" (Json.asList? Json.asText?) }

end PatchOperation

inductive PatchError where
  | malformed (detail : String)
  | empty
  | unsupportedOp (index : Nat) (op : String)
  | unsupportedPath (index : Nat) (path : String)
  | invalidValue (index : Nat)
  | tooManyOptions (max actual : Nat)
  deriving DecidableEq, Repr

def PatchError.message : PatchError → String
  | malformed detail => s!"patch body is not a valid list of operations: {detail}"
  | empty => "patch contains no operations"
  | unsupportedOp index op =>
    s!"operation {index}: op '{op}' not supported, expected 'add' or 'remove'"
  | unsupportedPath index path =>
    s!"operation {index}: path '{path}' not supported, expected '/options/-'"
  | invalidValue index => s!"operation {index}: value must be a list of option ids"
  | tooManyOptions max actual => s!"patch names {actual} options, the maximum is {max}"

namespace Patch

/-- The only path an operation may have: the end of the option list. -/
def optionsPath : String := "/options/-"

/-- How deep the value of an operation may nest. The list and its records are the two outermost
levels of a body. -/
def valueDepth : Nat := Json.maxDepth - 2

/-- An operation before it is judged; members that are missing are empty or null. -/
structure RawOperation where
  op : String
  path : String
  value : Json

namespace RawOperation

def ofJson? (j : Json) : Option RawOperation := do
  let r ← JsonRecord.of? ["op", "path", "value"] j
  return { op := ← r.defaulted "op" "" Json.asText?
           path := ← r.defaulted "path" "" Json.asText?
           value := ← r.defaulted "value" .null (Json.freeForm? valueDepth) }

/-- The operation at a place of a patch. Its kind is judged before its path, its path before its
value. -/
def judge (index : Nat) (r : RawOperation) : Except PatchError PatchOperation := do
  let some action := PatchAction.names.lookup r.op | throw (.unsupportedOp index r.op)
  if r.path ≠ optionsPath then throw (.unsupportedPath index r.path)
  let some values := r.value.asList? Json.asText? | throw (.invalidValue index)
  return ⟨action, r.path, values⟩

def judgeAll (index : Nat) : List RawOperation → Except PatchError (List PatchOperation)
  | [] => .ok []
  | r :: rs => do
    let o ← judge index r
    let os ← judgeAll (index + 1) rs
    return o :: os

end RawOperation

/-- How many options the operations of a patch name, repetitions counted. -/
def size (operations : List PatchOperation) : Nat :=
  operations.foldl (fun n o => n + o.values.length) 0

/-- Refuses a patch that names more than `max` options. -/
def checkSize (max : Nat) (operations : List PatchOperation) : Except PatchError Unit :=
  if size operations > max then throw (.tooManyOptions max (size operations)) else return

def records? (body : Octets) : Option (List RawOperation) :=
  (Json.parse? body).bind (Json.asList? RawOperation.ofJson?)

/-- Reads a patch body that may name at most `max` options. The whole body is refused for the first
faulty operation, and only a body without fault for naming too many options. -/
def parse (max : Nat) (body : Octets) : Except PatchError (List PatchOperation) := do
  let some raw := records? body | throw (.malformed "not a list of records")
  if raw.isEmpty then throw .empty
  let operations ← RawOperation.judgeAll 0 raw
  checkSize max operations
  return operations

def write (operations : List PatchOperation) : Octets :=
  (Json.array (operations.map PatchOperation.toJson)).write

end Patch
end DatasetFilters
