import DatasetFilters.Text.Blank
import DatasetFilters.Text.Octets

namespace DatasetFilters.Percent

def hexDigit (n : Nat) : UInt8 :=
  if n < 10 then UInt8.ofNat (48 + n) else UInt8.ofNat (55 + n)

/-- A percent sign and the two hexadecimal digits of an octet. -/
def escape (b : UInt8) : Octets :=
  [37, hexDigit (b.toNat / 16), hexDigit (b.toNat % 16)]

/-- Encodes each octet that is not `kept`. -/
def encodeWith (kept : UInt8 → Bool) (bs : Octets) : Octets :=
  bs.flatMap fun b => if kept b then [b] else escape b

/-- Octets that stand for themselves in a path segment: visible ASCII without the separators of
an address, the percent sign and the characters that addresses never hold. -/
def keptInSegment (b : UInt8) : Bool :=
  0x21 ≤ b && b ≤ 0x7E &&
    !("\"#<>?^\x60\x7b\x7d/%\\".toList.map fun c => UInt8.ofNat c.toNat).contains b

def segment (s : String) : Octets := encodeWith keptInSegment (Octets.ofText s)

/-- Octets that stand for themselves in a query value: ASCII letters, digits and four marks. -/
def keptInForm (b : UInt8) : Bool :=
  (48 ≤ b && b ≤ 57) || (65 ≤ b && b ≤ 90) || (97 ≤ b && b ≤ 122) ||
    b == 42 || b == 45 || b == 46 || b == 95

/-- The written form of one query name or value: a space becomes a plus sign. -/
def form (s : String) : Octets :=
  (Octets.ofText s).flatMap fun b =>
    if b = 32 then [43] else if keptInForm b then [b] else escape b

/-- Replaces every percent sign followed by two hexadecimal digits by the octet they name. -/
def decode : Octets → Octets
  | 37 :: a :: b :: rest =>
    match Octets.hexValue? a, Octets.hexValue? b with
    | some x, some y => UInt8.ofNat (16 * x + y) :: decode rest
    | _, _ => 37 :: decode (a :: b :: rest)
  | x :: rest => x :: decode rest
  | [] => []
termination_by bs => bs.length

/-- One name or value of a query as written: plus signs are spaces. -/
def decodeForm (bs : Octets) : String :=
  Octets.textLossy (decode (bs.map fun b => if b = 43 then 32 else b))

/-- The name and value pairs of a query. Pairs are separated by ampersands, empty ones skipped,
and a pair without an equals sign has the empty value. -/
def pairs (query : Octets) : List (String × String) :=
  (Text.splitAt 38 query).filterMap fun part =>
    if part.isEmpty then none
    else some (decodeForm (part.takeWhile (· != 61)),
      decodeForm ((part.dropWhile (· != 61)).drop 1))

end DatasetFilters.Percent
