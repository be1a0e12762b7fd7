import DatasetFilters.Json.Basic

namespace DatasetFilters.Json

def escapeOctet (b : UInt8) : Octets :=
  if b = 34 then [92, 34]
  else if b = 92 then [92, 92]
  else if b = 8 then [92, 98]
  else if b = 9 then [92, 116]
  else if b = 10 then [92, 110]
  else if b = 12 then [92, 102]
  else if b = 13 then [92, 114]
  else if b < 32 then
    [92, 117, 48, 48, 48 + b / 16, if b % 16 < 10 then 48 + b % 16 else 87 + b % 16]
  else [b]

def writeText (s : String) : Octets :=
  34 :: ((Octets.ofText s).flatMap escapeOctet ++ [34])

def writeNumber (n : JsonNumber) : Octets :=
  (if n.negative then [45] else []) ++ Decimal.octets n.whole ++
    (if n.fraction.isEmpty then [] else 46 :: n.fraction) ++
    (match n.exponent with
      | none => []
      | some e => 101 :: ((if e < 0 then [45] else []) ++ Decimal.octets e.natAbs))

mutual

/-- The written form of a value: no blanks, members in order, and in texts a backslash before
quotes, backslashes and control characters. -/
def write : Json → Octets
  | .null => [110, 117, 108, 108]
  | .garbled => [110, 117, 108, 108]
  | .bool true => [116, 114, 117, 101]
  | .bool false => [102, 97, 108, 115, 101]
  | .number n => writeNumber n
  | .text s => writeText s
  | .array items => 91 :: (writeItems items ++ [93])
  | .object members => 123 :: (writeMembers members ++ [125])

def writeItems : List Json → Octets
  | [] => []
  | [v] => write v
  | v :: w :: vs => write v ++ 44 :: writeItems (w :: vs)

def writeMembers : List (Option String × Json) → Octets
  | [] => []
  | [(name, v)] => writeText (name.getD "") ++ 58 :: write v
  | (name, v) :: w :: vs =>
    writeText (name.getD "") ++ 58 :: (write v ++ 44 :: writeMembers (w :: vs))

end

end DatasetFilters.Json
