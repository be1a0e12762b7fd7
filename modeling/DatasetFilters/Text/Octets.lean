namespace DatasetFilters

abbrev Octets := List UInt8

namespace Octets

/-- Text in UTF-8. -/
def ofText (s : String) : Octets := s.toByteArray.data.toList

def text? (bs : Octets) : Option String := String.fromUTF8? ⟨bs.toArray⟩

theorem text?_ofText (s : String) : text? (ofText s) = some s := by
  simp [text?, ofText, String.fromUTF8?, s.isValidUTF8]
  rfl

theorem ofText_injective {s t : String} (h : ofText s = ofText t) : s = t := by
  have := congrArg text? h
  simpa [text?_ofText] using this

/-- The last `width` digits of `n` to the base 256, most significant first. -/
def bigEndian : Nat → Nat → Octets
  | 0, _ => []
  | width + 1, n => bigEndian width (n / 256) ++ [UInt8.ofNat n]

@[simp] theorem length_bigEndian (width n : Nat) : (bigEndian width n).length = width := by
  induction width generalizing n with
  | zero => rfl
  | succ width ih => simp [bigEndian, ih]

def hexDigit (n : Nat) : Char :=
  if n < 10 then Char.ofNat (48 + n) else Char.ofNat (87 + n)

def hex (bs : Octets) : String :=
  String.ofList (bs.flatMap fun b => [hexDigit (b.toNat / 16), hexDigit (b.toNat % 16)])

/-- The value of a hexadecimal digit, small or capital. -/
def hexValue? (b : UInt8) : Option Nat :=
  if 48 ≤ b && b ≤ 57 then some (b.toNat - 48)
  else if 97 ≤ b && b ≤ 102 then some (b.toNat - 87)
  else if 65 ≤ b && b ≤ 70 then some (b.toNat - 55)
  else none

/-- The four blanks that may stand between the tokens of a data format, with form feed. -/
def isBlankOctet (b : UInt8) : Bool :=
  b == 32 || b == 9 || b == 10 || b == 12 || b == 13

/-- The least and greatest octet that may follow the lead octet `b`, and how many octets the
character needs after `b`. -/
def followers? (b : UInt8) : Option (UInt8 × UInt8 × Nat) :=
  if 0xC2 ≤ b && b ≤ 0xDF then some (0x80, 0xBF, 1)
  else if b == 0xE0 then some (0xA0, 0xBF, 2)
  else if b == 0xED then some (0x80, 0x9F, 2)
  else if 0xE1 ≤ b && b ≤ 0xEF then some (0x80, 0xBF, 2)
  else if b == 0xF0 then some (0x90, 0xBF, 3)
  else if 0xF1 ≤ b && b ≤ 0xF3 then some (0x80, 0xBF, 3)
  else if b == 0xF4 then some (0x80, 0x8F, 3)
  else none

/-- How many of the octets after a lead octet belong with it: those in range, at most `need`. -/
def wellFormedTail (low high : UInt8) (need : Nat) (bs : Octets) : Nat :=
  match need, bs with
  | 0, _ => 0
  | _, [] => 0
  | n + 1, b :: rest =>
    if low ≤ b && b ≤ high then 1 + wellFormedTail 0x80 0xBF n rest else 0

/-- The number with the payload bits of a lead octet and its followers. -/
def codePoint (lead : UInt8) (tail : Octets) : Nat :=
  let top := match tail.length with
    | 1 => lead.toNat % 32
    | 2 => lead.toNat % 16
    | _ => lead.toNat % 8
  tail.foldl (fun n b => n * 64 + b.toNat % 64) top

/-- Reads every character; a stretch that begins a character and is not completed, or an octet
that begins none, becomes one U+FFFD. -/
def charsLossy : Nat → Octets → List Char
  | 0, _ => []
  | _, [] => []
  | fuel + 1, b :: rest =>
    if b < 0x80 then Char.ofNat b.toNat :: charsLossy fuel rest
    else match followers? b with
      | none => '\uFFFD' :: charsLossy fuel rest
      | some (low, high, need) =>
        let n := wellFormedTail low high need rest
        let c := if n = need then Char.ofNat (codePoint b (rest.take n)) else '\uFFFD'
        c :: charsLossy fuel (rest.drop n)

/-- The text of any octets, with U+FFFD in the place of each faulty stretch. -/
def textLossy (bs : Octets) : String :=
  String.ofList (charsLossy bs.length bs)

end Octets
end DatasetFilters
