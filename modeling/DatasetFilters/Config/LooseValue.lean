import DatasetFilters.Config.Document
import DatasetFilters.Json.Parser
import DatasetFilters.Number.Binary64

namespace DatasetFilters

/-- A value of a configuration before it is known which member it is for. It is converted to what
the member needs: numbers and truth values to text, words to truth values, truth values to
numbers. -/
inductive LooseValue where
  | nothing
  | flag (b : Bool)
  | whole (n : Int)
  | real (x : Binary64)
  | text (s : String)
  | list (items : List LooseValue)
  /-- Named values; no member of a configuration has any. -/
  | table
  deriving Repr

namespace LooseValue

/-- A number literal: whole if it is written so and fits 64 bits, with or without a sign. -/
def ofNumber (n : JsonNumber) : LooseValue :=
  let isWhole := n.fraction.isEmpty && n.exponent.isNone
  if isWhole && !n.negative && n.whole < UInt64.size then .whole n.whole
  else if isWhole && n.negative && 0 < n.whole && n.whole ≤ 0x8000000000000000 then .whole (-n.whole)
  else .real (.ofLiteral n)

mutual

def ofJson : Json → LooseValue
  | .null | .garbled => .nothing
  | .bool b => .flag b
  | .number n => ofNumber n
  | .text s => .text s
  | .array items => .list (ofItems items)
  | .object _ => .table

def ofItems : List Json → List LooseValue
  | [] => []
  | j :: js => ofJson j :: ofItems js

end

/-- Reads digits with an optional sign as a number that fits 64 bits with a sign. -/
def whole? (s : String) : Option Int :=
  let (negative, ds) := Binary64.sign s.toList
  if ds.isEmpty || !ds.all Char.isDigit then none
  else
    let n := Decimal.value (Decimal.ofChars ds)
    if negative then if n ≤ 0x8000000000000000 then some (-n) else none
    else if n < 0x8000000000000000 then some n else none

/-- The value of a variable. A list is cut at its commas. -/
def ofVariable (isList : Bool) (s : String) : LooseValue :=
  let word := Text.lowerAscii s
  if word = "true" then .flag true
  else if word = "false" then .flag false
  else match whole? s with
    | some n => .whole n
    | none => match Binary64.ofText? s with
      | some x => .real x
      | none => if isList then .list ((Text.split ',' s).map .text) else .text s

def words : List (String × Bool) :=
  [("true", true), ("on", true), ("yes", true), ("false", false), ("off", false), ("no", false)]

def word? (s : String) : Option Bool := words.lookup (Text.lowerAscii s)

def asText? : LooseValue → Option String
  | text s => some s
  | flag b => some (if b then "true" else "false")
  | whole n => some ((if n < 0 then "-" else "") ++ Decimal.text n.natAbs)
  | real x => some x.text
  | _ => none

def asFlag? : LooseValue → Option Bool
  | flag b => some b
  | whole n => some (n != 0)
  | real x => some (!x.isZero)
  | text s => if s = "1" then some true else if s = "0" then some false else word? s
  | _ => none

def natural? (s : String) : Option Nat :=
  let ds := match s.toList with | '+' :: ds => ds | ds => ds
  if ds.isEmpty || !ds.all Char.isDigit then none
  else some (Decimal.value (Decimal.ofChars ds))

def asWord? : LooseValue → Option Nat
  | flag b => some b.toNat
  | whole n => if n < 0 then none else some n.natAbs
  | real x => some x.toWord
  | text s => match word? s with
    | some b => some b.toNat
    | none => (natural? s).filter (· < UInt64.size)
  | _ => none

def reader : MemberReader LooseValue where
  text := asText?
  flag := asFlag?
  number := fun bound v => v.asWord?.filter (· < bound)
  texts := fun v => match v with | .list items => items.mapM asText? | _ => none
  isNull := fun v => match v with | .nothing => true | _ => false

end LooseValue

end DatasetFilters
