import DatasetFilters.Instant.Basic
import DatasetFilters.Text.Blank
import DatasetFilters.Text.Decimal

namespace DatasetFilters.Instant

/-- A reader takes characters from the front of a text, or refuses it. -/
abbrev Reader (α : Type) := List Char → Option (α × List Char)

def skipBlank (cs : List Char) : List Char := cs.dropWhile Text.isBlank

/-- Reads one digit or more, at most `limit` of them. -/
def digits? (limit : Nat) : Reader (List Char) := fun cs =>
  let ds := (cs.take limit).takeWhile Char.isDigit
  if ds.isEmpty then none else some (ds, cs.drop ds.length)

def number (ds : List Char) : Nat := Decimal.value (Decimal.ofChars ds)

/-- Reads a number of one or two digits behind blanks, up to a greatest value. -/
def two? (greatest : Nat) : Reader Nat := fun cs => do
  let (ds, rest) ← digits? 2 (skipBlank cs)
  if number ds ≤ greatest then some (number ds, rest) else none

/-- Reads a year: up to four digits, or a sign and any number of digits. -/
def year? : Reader Int := fun cs =>
  match skipBlank cs with
  | '-' :: rest => (digits? rest.length rest).map fun r => (-(number r.1 : Int), r.2)
  | '+' :: rest => (digits? rest.length rest).map fun r => ((number r.1 : Int), r.2)
  | rest => (digits? 4 rest).map fun r => ((number r.1 : Int), r.2)

def mark? (c : Char) : Reader Unit := fun cs =>
  match skipBlank cs with
  | d :: rest => if d = c then some ((), rest) else none
  | [] => none

def date? : Reader Date := fun cs => do
  let (year, cs) ← year? cs
  let ((), cs) ← mark? '-' cs
  let (month, cs) ← two? 12 cs
  let ((), cs) ← mark? '-' cs
  let (day, cs) ← two? 31 cs
  return (⟨year, month, day⟩, cs)

/-- Reads a fraction of a second as nanoseconds; digits after the ninth do not count. -/
def fraction? : Reader Nat := fun cs =>
  match cs with
  | '.' :: rest => do
    let (ds, rest) ← digits? 9 rest
    return (number ds * Nat.pow 10 (9 - ds.length), rest.dropWhile Char.isDigit)
  | rest => some (0, rest)

/-- Reads the time of day: the second of the day, and nanoseconds, which run beyond a thousand
million in second 60. -/
def time? : Reader (Nat × Nat) := fun cs => do
  let (hour, cs) ← two? 23 cs
  let ((), cs) ← mark? ':' cs
  let (minute, cs) ← two? 59 cs
  let ((), cs) ← mark? ':' cs
  let (second, cs) ← two? 60 cs
  let (nanos, cs) ← fraction? cs
  let leap := second == 60
  return ((hour * 3600 + minute * 60 + (if leap then 59 else second),
    nanos + (if leap then 1000000000 else 0)), cs)

/-- Reads hours and minutes of an offset, two digits each, with colons and blanks between. -/
def offsetParts? : Reader Int := fun cs =>
  match cs with
  | h1 :: h2 :: rest =>
    match rest.dropWhile fun c => c == ':' || Text.isBlank c with
    | m1 :: m2 :: rest =>
      if [h1, h2, m1, m2].all Char.isDigit ∧ number [h1, h2] < 24 ∧ number [m1, m2] < 60 then
        some ((number [h1, h2] * 3600 + number [m1, m2] * 60 : Nat), rest)
      else none
    | _ => none
  | _ => none

def offset? : Reader Int := fun cs =>
  match skipBlank cs with
  | a :: b :: c :: rest =>
    if [a, b, c].map Char.toUpper = ['U', 'T', 'C'] then some (0, rest)
    else if a = 'Z' || a = 'z' then some (0, b :: c :: rest)
    else if a = '+' then offsetParts? (b :: c :: rest)
    else if a = '-' || a = '\u2212' then
      (offsetParts? (b :: c :: rest)).map fun r => (-r.1, r.2)
    else none
  | a :: rest => if a = 'Z' || a = 'z' then some (0, rest) else none
  | [] => none

def dayInRange (n : Int) : Bool := -96465292 ≤ n && n < 95026237

/-- Reads an instant: date, `T` or a space, time of day and offset from universal time. Blanks may
stand before each number, before the hyphens and colons, within the offset and at both ends, and
numbers may be written without leading zeros. -/
def parse? (s : String) : Option Instant := do
  let (date, cs) ← date? s.toList
  let separator :: cs := cs | none
  if separator ≠ 'T' ∧ separator ≠ 't' ∧ separator ≠ ' ' then none
  let ((inDay, nanos), cs) ← time? cs
  let (offset, cs) ← offset? cs
  if !cs.all Text.isBlank then none
  let day ← date.days?
  if !dayInRange day then none
  ofParts? (day * 86400 + inDay - offset) nanos

end DatasetFilters.Instant
