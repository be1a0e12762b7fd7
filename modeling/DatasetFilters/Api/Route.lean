import DatasetFilters.Config.Basic
import DatasetFilters.Text.Percent

namespace DatasetFilters

inductive Method where
  | get
  | post
  | put
  | delete
  | patch
  deriving DecidableEq, Repr

namespace Method

/-- The methods by name. What can be got can also be asked for its head. -/
def names : List (String × Method) :=
  [("GET", .get), ("HEAD", .get), ("POST", .post), ("PUT", .put), ("DELETE", .delete),
   ("PATCH", .patch)]

def ofName? (name : String) : Option Method := names.lookup name

def allNames (m : Method) : List String := (names.filter (·.2 == m)).map (·.1)

end Method

/-- What a path leads to, with its parameters. -/
inductive Route (α : Type) where
  | health
  | metrics
  | filters
  | filter (id : α)
  | dimensions (id : α)
  | dimension (id name : α)
  | options (id name : α)
  | option (id name option : α)
  | output (id : α)
  | events (id : α)
  deriving DecidableEq, Repr

namespace Route

/-- The methods of a route, in the order in which they are announced. -/
def methods : Route α → List Method
  | health | metrics => [.get]
  | filters => [.post]
  | filter _ => [.get, .put]
  | dimensions _ => [.get]
  | dimension _ _ => [.get, .post, .delete, .patch]
  | options _ _ => [.get]
  | option _ _ _ => [.get, .post, .delete]
  | output _ => [.get, .put]
  | events _ => [.post]

def allow (r : Route α) : String := ",".intercalate (r.methods.flatMap Method.allNames)

def isApi : Route α → Bool
  | health | metrics => false
  | _ => true

def isWord (word : String) (piece : Octets) : Bool := piece == Octets.ofText word

/-- The route of the pieces of a path below `/filters`. -/
def ofFilterPieces? : List Octets → Option (Route Octets)
  | [] => some .filters
  | [id] => some (.filter id)
  | [id, d] => if isWord "dimensions" d then some (.dimensions id) else none
  | [id, d, name] => if isWord "dimensions" d then some (.dimension id name) else none
  | [id, d, name, o] =>
    if isWord "dimensions" d && isWord "options" o then some (.options id name) else none
  | [id, d, name, o, chosen] =>
    if isWord "dimensions" d && isWord "options" o then some (.option id name chosen) else none
  | _ => none

/-- The route of the pieces of a path below `/filter-outputs`. -/
def ofOutputPieces? : List Octets → Option (Route Octets)
  | [id] => some (.output id)
  | [id, e] => if isWord "events" e then some (.events id) else none
  | _ => none

/-- The route of the pieces of a path. A parameter may be empty, but not at the end. -/
def ofPieces? (withMetrics : Bool) : List Octets → Option (Route Octets)
  | [] => none
  | top :: pieces =>
    if pieces.getLast? == some [] then none
    else if isWord "filters" top then ofFilterPieces? pieces
    else if isWord "filter-outputs" top then ofOutputPieces? pieces
    else if !pieces.isEmpty then none
    else if isWord "health" top then some .health
    else if withMetrics && isWord "metrics" top then some .metrics
    else none

/-- The route of a path, which is matched as it was sent, cut at its slashes; what stands in the
place of a parameter is decoded afterwards. -/
def ofPath? (withMetrics : Bool) (path : Octets) : Option (Route Octets) :=
  match Text.splitAt 47 path with
  | [] :: pieces => ofPieces? withMetrics pieces
  | _ => none

/-- A parameter of a path decoded; its name if it is no text. -/
def parameter (name : String) (raw : Octets) : Except String String :=
  match Octets.text? (Percent.decode raw) with
  | some s => .ok s
  | none => .error name

/-- A route with its parameters decoded, or the name of the first that is no text. -/
def decode : Route Octets → Except String (Route String)
  | health => .ok .health
  | metrics => .ok .metrics
  | filters => .ok .filters
  | filter id => return .filter (← parameter "id" id)
  | dimensions id => return .dimensions (← parameter "id" id)
  | dimension id name => return .dimension (← parameter "id" id) (← parameter "name" name)
  | options id name => return .options (← parameter "id" id) (← parameter "name" name)
  | option id name o =>
    return .option (← parameter "id" id) (← parameter "name" name) (← parameter "option" o)
  | output id => return .output (← parameter "id" id)
  | events id => return .events (← parameter "id" id)

end Route
end DatasetFilters
