import DatasetFilters.Text.Blank
import DatasetFilters.Text.Octets

namespace DatasetFilters.Http

/-- The headers of a message, their names written small. A header whose value is not visible ASCII
is unreadable and counts as absent. -/
abbrev Headers := List (String × Octets)

/-- Whether a header value can be read as text: tab and visible ASCII. -/
def isReadable (value : Octets) : Bool :=
  value.all fun b => b == 9 || (32 ≤ b && b < 127)

/-- The text of the first header of a name, if it is readable. -/
def Headers.find? (hs : Headers) (name : String) : Option String := do
  let value ← List.lookup name hs
  if isReadable value then Octets.text? value else none

structure Request where
  method : String
  /-- Path and query as sent, or a whole address. -/
  target : Octets
  headers : Headers := []
  body : Octets := []
  deriving DecidableEq, Repr

namespace Request

def isSchemeOctet (b : UInt8) : Bool :=
  (48 ≤ b && b ≤ 57) || (65 ≤ b && b ≤ 90) || (97 ≤ b && b ≤ 122) || b == 43 || b == 45 || b == 46

/-- What follows scheme and host of an address; nothing if the target is no address. -/
def behindHost? (target : Octets) : Option Octets :=
  match target.dropWhile isSchemeOctet with
  | 58 :: 47 :: 47 :: rest => some (rest.dropWhile fun b => b != 47 && b != 63)
  | _ => none

/-- The target without scheme and host in front and without the fragment behind a number sign. -/
def pathAndQuery (r : Request) : Octets :=
  let target := r.target.takeWhile (· != 35)
  if target.head? = some 47 then target
  else match behindHost? target with
    | some [] => [47]
    | some rest => rest
    | none => target

/-- The path up to the query; the top where none is given. -/
def path (r : Request) : Octets :=
  match r.pathAndQuery.takeWhile (· != 63) with
  | [] => [47]
  | path => path

def query (r : Request) : Octets := (r.pathAndQuery.dropWhile (· != 63)).drop 1

end Request

structure Response where
  status : Nat
  headers : Headers := []
  body : Octets := []
  deriving DecidableEq, Repr

namespace Headers

def set (hs : Headers) (name : String) (value : Octets) : Headers :=
  hs.filter (·.1 != name) ++ [(name, value)]

end Headers

def isSuccess (status : Nat) : Bool := 200 ≤ status && status < 300

def isServerError (status : Nat) : Bool := 500 ≤ status && status < 600

/-- A way to the network: a response, or why there is none. `url` is scheme, host and port. -/
abbrev Network := (url : String) → Request → Except String Response

def unreachable : Network := fun _ _ => .error "error sending request"

end DatasetFilters.Http
