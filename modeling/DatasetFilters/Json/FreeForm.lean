import DatasetFilters.Json.Parser

namespace DatasetFilters.Json

/-- How deep a JSON text with values of any form may nest arrays and objects. -/
def maxDepth : Nat := 127

/-- The reserved name under which an object holds JSON text in place of a value. -/
def embeddingName : String := "$serde_json::private::RawValue"

def isEmbedding (members : List (Option String × Json)) : Bool :=
  (members.head?.bind (·.1)) == some embeddingName

def onlyText? : List (Option String × Json) → Option String
  | [(_, .text s)] => some s
  | _ => none

mutual

/-- A value with `read s` in the place of every object that holds the text `s` under the reserved
name. Such an object has no other member. -/
def resolve? (read : String → Option Json) : Json → Option Json
  | .array items => (resolveItems? read items).map .array
  | .object members =>
    if isEmbedding members then (onlyText? members).bind read
    else (resolveMembers? read members).map .object
  | j => some j

/-- The items of an array, each resolved. -/
def resolveItems? (read : String → Option Json) : List Json → Option (List Json)
  | [] => some []
  | v :: vs => do return (← resolve? read v) :: (← resolveItems? read vs)

/-- The members of an object, each resolved. -/
def resolveMembers? (read : String → Option Json) :
    List (Option String × Json) → Option (List (Option String × Json))
  | [] => some []
  | (name, v) :: vs => do return (name, ← resolve? read v) :: (← resolveMembers? read vs)

end

/-- A sound value, nested at most `limit` deep, resolved by `read`. -/
def judged? (read : String → Option Json) (limit : Nat) (j : Json) : Option Json :=
  if j.isSound && j.depth ≤ limit then j.resolve? read else none

/-- The value that a JSON text denotes, with at most `fuel` texts one inside the other. -/
def embedded? : Nat → String → Option Json
  | 0, _ => none
  | fuel + 1, s => (parse? (Octets.ofText s)).bind (judged? (embedded? fuel) maxDepth)

/-- A value of any form that may nest `limit` deep, judged as a whole: its texts are Unicode, its
numbers within range and its depth bounded. An object that starts with the reserved name stands for
the value of a JSON text, which is judged in the same way. A text inside another is shorter than
that, so there are no more of them than the outer one has octets. -/
def freeForm? (limit : Nat) (j : Json) : Option Json :=
  j.judged? (fun s => embedded? (s.utf8ByteSize + 1) s) limit

def parseFree? (bs : Octets) : Option Json := (parse? bs).bind (freeForm? maxDepth)

theorem resolveItems?_map_text (read : String → Option Json) (l : List String) :
    resolveItems? read (l.map .text) = some (l.map .text) := by
  induction l with
  | nil => rfl
  | cons s l ih => simp [resolveItems?, resolve?, ih]

theorem resolve?_texts (read : String → Option Json) (l : List String) :
    resolve? read (texts l) = some (texts l) := by
  simp [resolve?, texts, resolveItems?_map_text]

end DatasetFilters.Json
