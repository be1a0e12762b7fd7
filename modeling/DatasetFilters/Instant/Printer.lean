import DatasetFilters.Instant.Basic
import DatasetFilters.Text.Decimal

namespace DatasetFilters.Instant

structure Format where
  /-- Digits after the point: a fixed number, or the fewest of 0, 3, 6 and 9 that are exact. -/
  places : Option Nat
  zone : String

def documentFormat : Format := ⟨none, "Z"⟩

def tagFormat : Format := ⟨some 9, "Z"⟩

def reportFormat : Format := ⟨none, "+00:00"⟩

/-- The digits of a fraction of a second, with their point. -/
def writeFraction (places : Option Nat) (nanos : Nat) : List Char :=
  let n := places.getD <|
    if nanos = 0 then 0 else if nanos % 1000000 = 0 then 3 else if nanos % 1000 = 0 then 6 else 9
  if n = 0 then []
  else '.' :: Decimal.toChars (Decimal.padded n (nanos / Nat.pow 10 (9 - n)))

/-- A year: four digits from 0 to 9999, beyond that a sign and at least four. -/
def writeYear (y : Int) : List Char :=
  let sign := if y < 0 then ['-'] else if 9999 < y then ['+'] else []
  sign ++ Decimal.toChars (Decimal.padded 4 y.natAbs)

def writeTwo (n : Nat) : List Char := Decimal.toChars (Decimal.padded 2 n)

/-- The written form of an instant, in universal time: date, `T`, time of day, fraction and zone. A
leap second is second 60. -/
def write (f : Format) (t : Instant) : String :=
  let date := Date.ofDays (t.seconds / 86400)
  let inDay := (t.seconds % 86400).toNat
  String.ofList <|
    writeYear date.year ++ '-' :: writeTwo date.month ++ '-' :: writeTwo date.day ++
    'T' :: writeTwo (inDay / 3600) ++ ':' :: writeTwo (inDay / 60 % 60) ++
    ':' :: writeTwo (inDay % 60 + t.nanos / 1000000000) ++
    writeFraction f.places (t.nanos % 1000000000) ++ f.zone.toList

end DatasetFilters.Instant
