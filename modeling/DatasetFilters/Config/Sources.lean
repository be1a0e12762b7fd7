import DatasetFilters.Config.KeyPath
import DatasetFilters.Json.FreeForm

namespace DatasetFilters

namespace Config

/-- What the names of all variables of the configuration start with, in any case. -/
def variableLead : String := "filter_api__"

/-- The small form of a letter. Of the letters beyond ASCII only the sign of the unit kelvin has a
small form in ASCII; the others stand in no name and are kept. -/
def smallLetter (c : Char) : Char := if c.toNat = 0x212A then 'k' else c.toLower

def dotted : List Char → List Char
  | '_' :: '_' :: cs => '.' :: dotted cs
  | c :: cs => c :: dotted cs
  | [] => []

/-- Takes in one variable of the environment, if it is one of the configuration. -/
def setVariable (ms : LooseMembers) (v : String × String) : LooseMembers :=
  match Text.dropLead? variableLead (String.ofList (v.1.toList.map smallLetter)) with
  | none => ms
  | some name =>
    let key := String.ofList (dotted name.toList)
    setKey ms key (.ofVariable (key == "service_tokens") v.2)

def withoutMark : Octets → Octets
  | 0xEF :: 0xBB :: 0xBF :: rest => rest
  | bs => bs

def ofFile? (file : Octets) : Option LooseMembers := do
  let text := Octets.textLossy (withoutMark file)
  match ← Json.parseFree? (Octets.ofText text) with
  | .object members =>
    return members.foldl (fun ms m => setKey ms (m.1.getD "") (.ofJson m.2)) []
  | _ => none

/-- The configuration that a file in JSON, if there is one, and the variables of the environment
give; the variables take precedence. The names of both are keys that may lead into values. -/
def load? (environment : List (String × String)) (file : Option Octets) : Option Config := do
  let found ← match file with
    | none => some []
    | some text => ofFile? text
  let members := environment.foldl setVariable found
  ofMembers? LooseValue.reader fun name => members.lookup name

end Config
end DatasetFilters
