import DatasetFilters.Text.Octets

namespace DatasetFilters.Decimal

def isDigit (b : UInt8) : Bool := 48 ≤ b && b ≤ 57

def digit (n : Nat) : UInt8 := UInt8.ofNat (48 + n)

/-- The numeral of `n`, in at most `fuel` digits. -/
def octetsUpTo : Nat → Nat → Octets
  | 0, _ => []
  | fuel + 1, n =>
    if n < 10 then [digit n] else octetsUpTo fuel (n / 10) ++ [digit (n % 10)]

/-- The numeral of `n`. -/
def octets (n : Nat) : Octets := octetsUpTo (n.log2 + 1) n

/-- The number that a run of digits denotes, continuing `acc`. -/
def valueFrom (acc : Nat) (ds : Octets) : Nat :=
  ds.foldl (fun n b => 10 * n + (b.toNat - 48)) acc

/-- The number that a run of digits denotes. -/
def value (ds : Octets) : Nat := valueFrom 0 ds

def toChars (ds : Octets) : List Char := ds.map fun b => Char.ofNat b.toNat

def ofChars (cs : List Char) : Octets := cs.map fun c => UInt8.ofNat c.toNat

/-- The numeral of `n` as text. -/
def text (n : Nat) : String := String.ofList (toChars (octets n))

/-- The numeral of `n` in at least `width` digits. -/
def padded (width n : Nat) : Octets :=
  let ds := octets n
  List.replicate (width - ds.length) 48 ++ ds

end DatasetFilters.Decimal
