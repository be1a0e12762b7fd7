import DatasetFilters.Text.Decimal

namespace DatasetFilters

/-- A number literal: sign, whole part, digits after the point, power of ten. -/
structure JsonNumber where
  negative : Bool
  whole : Nat
  fraction : Octets
  exponent : Option Int
  deriving DecidableEq, Repr

/-- A value of the JSON data format. It keeps the order of object members and their repetitions, and
the digits of a number, since the readers of documents depend on them. Text that is no valid Unicode
is `garbled`: it may stand in a value that is skipped and nowhere else. -/
inductive Json where
  | null
  | bool (b : Bool)
  | number (n : JsonNumber)
  | text (s : String)
  | garbled
  | array (items : List Json)
  | object (members : List (Option String × Json))
  deriving Repr

namespace JsonNumber

def ofNat (n : Nat) : JsonNumber := ⟨false, n, [], none⟩

/-- The natural number that an unsigned literal without point and power denotes. -/
def nat? (n : JsonNumber) : Option Nat :=
  if n.negative || !n.fraction.isEmpty || n.exponent.isSome then none else some n.whole

@[simp] theorem nat?_ofNat (n : Nat) : (ofNat n).nat? = some n := rfl

/-- Rounds to the nearest number with 53 significant bits, a tie to the even one. -/
def roundTo53 (n : Nat) : Nat :=
  let spare := n.log2 + 1 - 53
  let unit := Nat.pow 2 spare
  let q := n / unit
  let r := n % unit
  let up := 2 * r > unit || (2 * r == unit && q % 2 == 1)
  (if up then q + 1 else q) * unit

def grow? (significand : Nat) (b : UInt8) : Option Nat :=
  let next := 10 * significand + (b.toNat - 48)
  if next < UInt64.size then some next else none

/-- The significand that the digits of a whole part give, and how many further digits there are. -/
def wholeSignificand : Octets → Nat → Nat × Nat
  | [], acc => (acc, 0)
  | b :: ds, acc => match grow? acc b with
    | some next => wholeSignificand ds next
    | none => (acc, ds.length + 1)

/-- The significand after the digits of a fraction, and how many of them it took. -/
def fractionSignificand : Octets → Nat → Nat × Nat
  | [], acc => (acc, 0)
  | b :: ds, acc => match grow? acc b with
    | some next => let (s, n) := fractionSignificand ds next; (s, n + 1)
    | none => (acc, 0)

/-- Whether the number lies within the range of 64-bit binary floating point: a significand of at
most 64 bits, rounded, times a rounded power of ten, rounded again, is below two to the 1024. -/
def inRange (n : JsonNumber) : Bool :=
  let (w, more) := wholeSignificand (Decimal.octets n.whole) 0
  let (s, taken) := fractionSignificand n.fraction w
  let power : Int := (more : Int) - taken + n.exponent.getD 0
  s == 0 || power < 0 ||
    (power ≤ 308 && roundTo53 (roundTo53 s * roundTo53 (Nat.pow 10 power.toNat)) < Nat.pow 2 1024)

end JsonNumber

namespace Json

mutual

/-- How many arrays and objects enclose the innermost one of a value, itself included. -/
def depth : Json → Nat
  | .array items => depthItems items + 1
  | .object members => depthMembers members + 1
  | _ => 0

def depthItems : List Json → Nat
  | [] => 0
  | v :: vs => max (depth v) (depthItems vs)

def depthMembers : List (Option String × Json) → Nat
  | [] => 0
  | (_, v) :: vs => max (depth v) (depthMembers vs)

end

mutual

/-- Whether every text and name in a value is Unicode and every number within range. -/
def isSound : Json → Bool
  | .garbled => false
  | .number n => n.inRange
  | .array items => areSoundItems items
  | .object members => areSoundMembers members
  | _ => true

def areSoundItems : List Json → Bool
  | [] => true
  | v :: vs => isSound v && areSoundItems vs

def areSoundMembers : List (Option String × Json) → Bool
  | [] => true
  | (name, v) :: vs => name.isSome && isSound v && areSoundMembers vs

end

def ofMembers (members : List (String × Json)) : Json :=
  .object (members.map fun m => (some m.1, m.2))

def nat (n : Nat) : Json := .number (.ofNat n)

def texts (l : List String) : Json := .array (l.map .text)

def member? (name : String) (value : Option Json) : List (String × Json) :=
  (value.map fun v => (name, v)).toList

def get? (name : String) : Json → Option Json
  | .object members => (members.reverse.find? fun m => m.1 == some name).map (·.2)
  | _ => none

end Json
end DatasetFilters
