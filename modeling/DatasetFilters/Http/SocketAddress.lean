import DatasetFilters.Text.Decimal

namespace DatasetFilters

/-- An address of the internet protocol, with the zone of a version 6 address. -/
inductive HostAddress where
  | v4 (octets : List Nat)
  | v6 (groups : List Nat) (zone : Nat)
  deriving DecidableEq, Repr

/-- An address that a server listens on. -/
structure SocketAddress where
  host : HostAddress
  port : Nat
  deriving DecidableEq, Repr

namespace HostAddress

def digit? (c : Char) : Option Nat := Octets.hexValue? (UInt8.ofNat (min c.toNat 255))

/-- Reads a number below `bound` of at most `width` digits to a base. Unless `padded`, only zero
itself starts with a zero. -/
def number? (base width bound : Nat) (padded : Bool) (cs : List Char) :
    Option (Nat × List Char) :=
  let isDigit := fun c => (digit? c).any (· < base)
  let ds := cs.takeWhile isDigit
  let n := ds.foldl (fun n c => base * n + (digit? c).getD 0) 0
  if ds.isEmpty || ds.length > width || n ≥ bound || (!padded && ds.head? == some '0' && ds.length > 1)
  then none
  else some (n, cs.dropWhile isDigit)

def mark? (c : Char) : List Char → Option (List Char)
  | d :: cs => if d = c then some cs else none
  | [] => none

def octet? (cs : List Char) : Option (Nat × List Char) := number? 10 3 256 false cs

def v4? (cs : List Char) : Option (List Nat × List Char) := do
  let (a, cs) ← octet? cs
  let (b, cs) ← octet? (← mark? '.' cs)
  let (c, cs) ← octet? (← mark? '.' cs)
  let (d, cs) ← octet? (← mark? '.' cs)
  return ([a, b, c, d], cs)

/-- The two groups that an address of version 4 takes up in one of version 6. -/
def embedded : List Nat → List Nat
  | [a, b, c, d] => [256 * a + b, 256 * c + d]
  | _ => []

/-- Reads the groups of an address of version 6, at most as many as there is room for, the last two
of which may be written as an address of version 4. Tells whether they were. -/
def groups (first : Bool) : Nat → List Char → List Nat × Bool × List Char
  | 0, cs => ([], false, cs)
  | room + 1, cs =>
    match if first then some cs else mark? ':' cs with
    | none => ([], false, cs)
    | some behind =>
      match if room = 0 then none else v4? behind with
      | some (octets, rest) => (embedded octets, true, rest)
      | none =>
        match number? 16 4 65536 true behind with
        | none => ([], false, cs)
        | some (n, rest) =>
          let (more, ended, rest) := groups false room rest
          (n :: more, ended, rest)

/-- Reads an address of version 6. Two colons stand for one or more zero groups. -/
def v6? (cs : List Char) : Option (List Nat × List Char) := do
  let (front, ended, rest) := groups true 8 cs
  if front.length = 8 then return (front, rest)
  if ended then none
  let rest ← mark? ':' (← mark? ':' rest)
  let (back, _, rest) := groups true (7 - front.length) rest
  return (front ++ List.replicate (8 - front.length - back.length) 0 ++ back, rest)

/-- Reads an address of version 6 between brackets, with an optional zone. -/
def bracketed? (cs : List Char) : Option (HostAddress × List Char) := do
  let (gs, rest) ← v6? (← mark? '[' cs)
  let (zone, rest) ← match mark? '%' rest with
    | none => some (0, rest)
    | some rest => number? 10 rest.length UInt32.size true rest
  return (.v6 gs zone, ← mark? ']' rest)

def joined (separator : String) (write : Nat → String) (ns : List Nat) : String :=
  separator.intercalate (ns.map write)

def hexText (n : Nat) : String := String.ofList (Nat.toDigits 16 n)

/-- Start and length of the first longest run of zeros at or behind a place. -/
def zeroRun (place : Nat) : List Nat → Nat × Nat
  | [] => (place, 0)
  | g :: gs =>
    let here := ((g :: gs).takeWhile (· == 0)).length
    let behind := zeroRun (place + 1) gs
    if here ≥ behind.2 then (place, here) else behind

/-- The written form of an address of version 6, which shortens the first longest run of zero
groups. -/
def v6Text (gs : List Nat) : String :=
  match gs with
  | [0, 0, 0, 0, 0, 65535, a, b] =>
    "::ffff:" ++ joined "." Decimal.text [a / 256, a % 256, b / 256, b % 256]
  | _ =>
    let (start, length) := zeroRun 0 gs
    if length ≤ 1 then joined ":" hexText gs
    else joined ":" hexText (gs.take start) ++ "::" ++ joined ":" hexText (gs.drop (start + length))

def text : HostAddress → String
  | v4 octets => joined "." Decimal.text octets
  | v6 gs zone =>
    "[" ++ v6Text gs ++ (if zone = 0 then "" else "%" ++ Decimal.text zone) ++ "]"

end HostAddress

namespace SocketAddress

def parse? (s : String) : Option SocketAddress := do
  let cs := s.toList
  let (host, rest) ← match HostAddress.v4? cs with
    | some (octets, rest) => some (HostAddress.v4 octets, rest)
    | none => HostAddress.bracketed? cs
  let rest ← HostAddress.mark? ':' rest
  let (port, rest) ← HostAddress.number? 10 rest.length 65536 true rest
  if rest.isEmpty then some ⟨host, port⟩ else none

def text (a : SocketAddress) : String := a.host.text ++ ":" ++ Decimal.text a.port

end SocketAddress
end DatasetFilters
