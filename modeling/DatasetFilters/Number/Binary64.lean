import DatasetFilters.Json.Basic
import DatasetFilters.Text.Blank

namespace DatasetFilters

/-- A number of 64-bit binary floating point, computed with exactly. -/
inductive Binary64 where
  | finite (negative : Bool) (significand : Nat) (exponent : Int)
  | infinite (negative : Bool)
  | nan
  deriving DecidableEq, Repr

namespace Binary64

def leastExponent : Int := -1074

/-- The quotient of `p` and `q` divided by two to the `e`, as a quotient. -/
def scaled (p q : Nat) (e : Int) : Nat × Nat :=
  if e < 0 then (p * Nat.pow 2 e.natAbs, q) else (p, q * Nat.pow 2 e.natAbs)

/-- The natural number nearest to a quotient, the even one of two. -/
def nearest (p q : Nat) : Nat :=
  let r := p % q
  if 2 * r > q || (2 * r == q && p / q % 2 == 1) then p / q + 1 else p / q

/-- The exponent at which a quotient has a significand of 53 bits, or the least one. -/
def exponentOf (p q : Nat) : Int :=
  let e : Int := (p.log2 : Int) - q.log2 - 53
  let (a, b) := scaled p q (e + 53)
  max leastExponent (if a < b then e else e + 1)

/-- The number nearest to the quotient of `p` and `q`. -/
def ofRatio (negative : Bool) (p q : Nat) : Binary64 :=
  let e := exponentOf p q
  let (a, b) := scaled p q e
  let m := nearest a b
  let (m, e) := if m = 0x20000000000000 then (0x10000000000000, e + 1) else (m, e)
  if e > 971 then .infinite negative else .finite negative m e

/-- Zero, with a sign. -/
def zero (negative : Bool) : Binary64 := .finite negative 0 leastExponent

/-- The number nearest to `n` times ten to the `e`. Far outside the range no power is computed. -/
def ofDecimal (negative : Bool) (n : Nat) (e : Int) : Binary64 :=
  let size := (Decimal.octets n).length + e
  if n = 0 || size < -400 then zero negative
  else if size > 400 then .infinite negative
  else if e < 0 then ofRatio negative n (Nat.pow 10 e.natAbs)
  else ofRatio negative (n * Nat.pow 10 e.natAbs) 1

def ratio (m : Nat) (e : Int) : Nat × Nat :=
  if e < 0 then (m, Nat.pow 2 e.natAbs) else (m * Nat.pow 2 e.natAbs, 1)

/-- A number divided by ten to the `k`, which is rounded before. -/
def divPowerOfTen (x : Binary64) (k : Nat) : Binary64 :=
  match x, ofRatio false (Nat.pow 10 k) 1 with
  | finite s m e, finite _ n d =>
    let (a, b) := ratio m e
    let (c, f) := ratio n d
    ofRatio s (a * f) (b * c)
  | x, _ => x

/-- A number times ten to the `k`, which is rounded before. -/
def mulPowerOfTen (x : Binary64) (k : Nat) : Binary64 :=
  match x, ofRatio false (Nat.pow 10 k) 1 with
  | finite s m e, finite _ n d =>
    let (a, b) := ratio m e
    let (c, f) := ratio n d
    ofRatio s (a * c) (b * f)
  | x, _ => x

/-- The number that a literal denotes, as data formats read it: the significand is rounded first,
then its product or quotient with a power of ten. -/
def ofLiteral (n : JsonNumber) : Binary64 :=
  let (w, more) := JsonNumber.wholeSignificand (Decimal.octets n.whole) 0
  let (s, taken) := JsonNumber.fractionSignificand n.fraction w
  let power : Int := (more : Int) - taken + n.exponent.getD 0
  if s = 0 || power < -616 then zero n.negative
  else
    let x := ofRatio n.negative s 1
    if power > 308 then .infinite n.negative
    else if power ≥ 0 then x.mulPowerOfTen power.natAbs
    else if power ≥ -308 then x.divPowerOfTen power.natAbs
    else (x.divPowerOfTen 308).divPowerOfTen (power.natAbs - 308)

def sign : List Char → Bool × List Char
  | '-' :: cs => (true, cs)
  | '+' :: cs => (false, cs)
  | cs => (false, cs)

def power? : List Char → Option Int
  | [] => some 0
  | c :: cs =>
    let (negative, ds) := sign cs
    if (c = 'e' || c = 'E') && !ds.isEmpty && ds.all Char.isDigit then
      let n : Int := Decimal.value (Decimal.ofChars ds)
      some (if negative then -n else n)
    else none

/-- Reads a decimal: digits with at most one point among or around them, and a power of ten. The
words for infinity and for no number are read too, in any case. -/
def ofText? (s : String) : Option Binary64 :=
  let (negative, cs) := sign s.toList
  let word := String.ofList (cs.map Char.toLower)
  if word = "inf" || word = "infinity" then some (.infinite negative)
  else if word = "nan" then some .nan
  else
    let whole := cs.takeWhile Char.isDigit
    let rest := cs.dropWhile Char.isDigit
    let behind := match rest with | '.' :: r => r | _ => []
    let fraction := behind.takeWhile Char.isDigit
    let tail := match rest with | '.' :: r => r.dropWhile Char.isDigit | r => r
    if whole.isEmpty && fraction.isEmpty then none
    else (power? tail).map fun e =>
      ofDecimal negative (Decimal.value (Decimal.ofChars (whole ++ fraction)))
        (e - fraction.length)

/-- Whether a number is zero, of either sign. -/
def isZero : Binary64 → Bool
  | finite _ m _ => m == 0
  | _ => false

/-- The nearest natural number of 64 bits, the greater one of two. -/
def toWord : Binary64 → Nat
  | finite false m e =>
    let (a, b) := ratio m e
    min ((2 * a + b) / (2 * b)) (UInt64.size - 1)
  | infinite false => UInt64.size - 1
  | _ => 0

/-- How many decimal places down the first digit of a quotient below one stands. -/
def leadingZeros : Nat → Nat → Nat → Nat
  | 0, _, _ => 0
  | fuel + 1, p, q => if p ≥ q then 0 else leadingZeros fuel (10 * p) q + 1

def decimalExponent (p q : Nat) : Int :=
  if p ≥ q then (Decimal.octets (p / q)).length - 1 else -(leadingZeros 400 p q : Int)

/-- Whether `c` times ten to the `k` is rounded to the number `m` times two to the `e`. -/
def roundsTo (m : Nat) (e : Int) (c : Nat) (k : Int) : Bool :=
  let (p, q) := if k < 0 then (c, Nat.pow 10 k.natAbs) else (c * Nat.pow 10 k.natAbs, 1)
  ofRatio false p q == .finite false m e

/-- The shortest decimal that is rounded to a number, among at least `n` digits: its digits and
their power of ten. Of two such decimals the nearer is taken, the greater of two equally near. -/
def shortest (m : Nat) (e : Int) : Nat → Nat → Nat × Int
  | 0, _ => (m, 0)
  | fuel + 1, n =>
    let (p, q) := ratio m e
    let k := decimalExponent p q - (n - 1 : Nat)
    let (a, b) := if k < 0 then (p * Nat.pow 10 k.natAbs, q) else (p, q * Nat.pow 10 k.natAbs)
    let c := a / b
    let low := c ≠ 0 && roundsTo m e c k
    let high := roundsTo m e (c + 1) k
    if low && (!high || 2 * (a % b) < b) then (c, k)
    else if high then (c + 1, k)
    else shortest m e fuel (n + 1)

/-- Digits times a power of ten, written out. -/
def positional (n : Nat) (k : Int) : String :=
  let ds := Decimal.toChars (Decimal.octets n)
  if k ≥ 0 then String.ofList (ds ++ List.replicate k.natAbs '0')
  else
    let ds := List.replicate (k.natAbs + 1 - ds.length) '0' ++ ds
    let (whole, fraction) := ds.splitAt (ds.length - k.natAbs)
    let fraction := Text.dropEndWhile (· == '0') fraction
    String.ofList (if fraction.isEmpty then whole else whole ++ '.' :: fraction)

/-- The shortest decimal that reads back, without a power of ten. -/
def text : Binary64 → String
  | nan => "NaN"
  | infinite negative => if negative then "-inf" else "inf"
  | finite negative m e =>
    let (n, k) := if m = 0 then (0, 0) else shortest m e 17 1
    (if negative then "-" else "") ++ positional n k

end Binary64
end DatasetFilters
