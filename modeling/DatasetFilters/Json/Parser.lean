import DatasetFilters.Json.Basic

namespace DatasetFilters.Json

/-- Space, tab, line feed and carriage return. -/
def isSpace (b : UInt8) : Bool := b == 32 || b == 9 || b == 10 || b == 13

def skipSpace (bs : Octets) : Octets := bs.dropWhile isSpace

def hexQuad? (a b c d : UInt8) : Option Nat := do
  let a ← Octets.hexValue? a
  let b ← Octets.hexValue? b
  let c ← Octets.hexValue? c
  let d ← Octets.hexValue? d
  return ((a * 16 + b) * 16 + c) * 16 + d

def plainEscape? (b : UInt8) : Option UInt8 :=
  if b = 34 || b = 92 || b = 47 then some b
  else if b = 98 then some 8
  else if b = 102 then some 12
  else if b = 110 then some 10
  else if b = 114 then some 13
  else if b = 116 then some 9
  else none

/-- Octets in front of the rest of a text; nothing can be put in front of garbled text. -/
def prepend (front : Option Octets) (r : Option Octets × Octets) : Option Octets × Octets :=
  (do return (← front) ++ (← r.1), r.2)

def encodePoint? (n : Nat) : Option Octets :=
  if 0xD800 ≤ n && n < 0xE000 then none else some (String.utf8EncodeChar (Char.ofNat n))

/-- Reads a text from behind its opening quote: its octets, unless an escape names half of a
surrogate pair, and what follows the closing quote. -/
def textOctets? : Octets → Option (Option Octets × Octets)
  | [] => none
  | 34 :: rest => some (some [], rest)
  | 92 :: 117 :: a :: b :: c :: d :: 92 :: 117 :: e :: f :: g :: h :: rest => do
    let n ← hexQuad? a b c d
    let m ← hexQuad? e f g h
    if 0xD800 ≤ n && n < 0xDC00 then
      let r ← textOctets? rest
      if 0xDC00 ≤ m && m < 0xE000 then
        return prepend (encodePoint? (0x10000 + (n - 0xD800) * 0x400 + (m - 0xDC00))) r
      else return prepend none r
    else
      let r ← textOctets? (92 :: 117 :: e :: f :: g :: h :: rest)
      return prepend (encodePoint? n) r
  | 92 :: 117 :: a :: b :: c :: d :: rest => do
    let n ← hexQuad? a b c d
    let r ← textOctets? rest
    return prepend (encodePoint? n) r
  | 92 :: e :: rest => do
    let b ← plainEscape? e
    let r ← textOctets? rest
    return prepend (some [b]) r
  | b :: rest =>
    if b < 32 || b = 92 then none else (textOctets? rest).map (prepend (some [b]))

/-- Reads a text from behind its opening quote, `none` standing for text that is no Unicode. -/
def text? (bs : Octets) : Option (Option String × Octets) :=
  (textOctets? bs).map fun r => (r.1.bind Octets.text?, r.2)

/-- Reads the digits after a decimal point, if there is one. -/
def fraction? : Octets → Option (Octets × Octets)
  | 46 :: rest =>
    let ds := rest.takeWhile Decimal.isDigit
    if ds.isEmpty then none else some (ds, rest.dropWhile Decimal.isDigit)
  | rest => some ([], rest)

def signed? (negative : Bool) (rest : Octets) : Option (Option Int × Octets) :=
  let ds := rest.takeWhile Decimal.isDigit
  let n : Int := Decimal.value ds
  if ds.isEmpty then none
  else some (some (if negative then -n else n), rest.dropWhile Decimal.isDigit)

/-- Reads a power of ten, if there is one. -/
def exponent? : Octets → Option (Option Int × Octets)
  | b :: rest =>
    if b = 101 || b = 69 then
      match rest with
      | 43 :: rest => signed? false rest
      | 45 :: rest => signed? true rest
      | rest => signed? false rest
    else some (none, b :: rest)
  | [] => some (none, [])

/-- Reads a number behind its sign. A whole part of several digits starts with none but 1 to 9. -/
def unsigned? (negative : Bool) (bs : Octets) : Option (JsonNumber × Octets) := do
  let ds := bs.takeWhile Decimal.isDigit
  if ds.isEmpty || (ds.head? == some 48 && ds.length > 1) then none
  let (fraction, rest) ← fraction? (bs.dropWhile Decimal.isDigit)
  let (exponent, rest) ← exponent? rest
  return (⟨negative, Decimal.value ds, fraction, exponent⟩, rest)

def number? : Octets → Option (JsonNumber × Octets)
  | 45 :: rest => unsigned? true rest
  | bs => unsigned? false bs

mutual

def value? : Nat → Octets → Option (Json × Octets)
  | 0, _ => none
  | fuel + 1, bs => match bs with
    | 34 :: rest => (text? rest).map fun r => ((match r.1 with | some s => .text s | none => .garbled), r.2)
    | 91 :: rest => match skipSpace rest with
      | 93 :: rest => some (.array [], rest)
      | rest => (items? fuel rest).map fun r => (.array r.1, r.2)
    | 123 :: rest => match skipSpace rest with
      | 125 :: rest => some (.object [], rest)
      | rest => (members? fuel rest).map fun r => (.object r.1, r.2)
    | 110 :: 117 :: 108 :: 108 :: rest => some (.null, rest)
    | 116 :: 114 :: 117 :: 101 :: rest => some (.bool true, rest)
    | 102 :: 97 :: 108 :: 115 :: 101 :: rest => some (.bool false, rest)
    | bs => (number? bs).map fun r => (.number r.1, r.2)

def items? : Nat → Octets → Option (List Json × Octets)
  | 0, _ => none
  | fuel + 1, bs => do
    let (v, rest) ← value? fuel (skipSpace bs)
    match skipSpace rest with
    | 44 :: rest =>
      let (vs, rest) ← items? fuel rest
      return (v :: vs, rest)
    | 93 :: rest => return ([v], rest)
    | _ => none

def members? : Nat → Octets → Option (List (Option String × Json) × Octets)
  | 0, _ => none
  | fuel + 1, bs => do
    let 34 :: rest := skipSpace bs | none
    let (name, rest) ← text? rest
    let 58 :: rest := skipSpace rest | none
    let (v, rest) ← value? fuel (skipSpace rest)
    match skipSpace rest with
    | 44 :: rest =>
      let (vs, rest) ← members? fuel rest
      return ((name, v) :: vs, rest)
    | 125 :: rest => return ([(name, v)], rest)
    | _ => none

end

/-- Reads JSON text, over octets; blanks may stand around the value and nothing else. Escapes are
always checked, Unicode is judged where a text ends. -/
def parse? (bs : Octets) : Option Json := do
  let (v, rest) ← value? (2 * bs.length + 2) (skipSpace bs)
  if (skipSpace rest).isEmpty then some v else none

end DatasetFilters.Json
