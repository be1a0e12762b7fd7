namespace DatasetFilters.Text

/-- The characters with the property `White_Space`. -/
def isBlank (c : Char) : Bool :=
  let n := c.toNat
  (9 ≤ n && n ≤ 13) || n == 0x20 || n == 0x85 || n == 0xA0 || n == 0x1680 ||
    (0x2000 ≤ n && n ≤ 0x200A) || n == 0x2028 || n == 0x2029 || n == 0x202F ||
    n == 0x205F || n == 0x3000

/-- Drops the longest suffix whose members all satisfy `p`. -/
def dropEndWhile (p : α → Bool) (l : List α) : List α :=
  (l.reverse.dropWhile p).reverse

/-- The characters between the first and the last that do not satisfy `p`, ends included. -/
def trimChars (p : Char → Bool) (cs : List Char) : List Char :=
  dropEndWhile p (cs.dropWhile p)

/-- Text without the blanks at its two ends, as names, selectors and numbers in queries are read. -/
def trim (s : String) : String :=
  String.ofList (trimChars isBlank s.toList)

/-- Text of blanks only, the empty text included. -/
def isBlankText (s : String) : Bool :=
  s.toList.all isBlank

/-- Text without the occurrences of `c` at its end. -/
def trimEnd (c : Char) (s : String) : String :=
  String.ofList (dropEndWhile (· == c) s.toList)

/-- Text without the occurrences of `c` at its two ends. -/
def trimBoth (c : Char) (s : String) : String :=
  String.ofList (trimChars (· == c) s.toList)

/-- What follows `lead` in `s`, if `s` starts with it. -/
def dropLead? (lead s : String) : Option String :=
  if lead.toList.isPrefixOf s.toList then
    some (String.ofList (s.toList.drop lead.toList.length))
  else none

/-- What precedes `tail` in `s`, if `s` ends with it. -/
def dropTail? (tail s : String) : Option String :=
  if tail.toList.isSuffixOf s.toList then
    some (String.ofList (s.toList.take (s.toList.length - tail.toList.length)))
  else none

/-- Cuts a list at every member that equals `sep`; a list without it is one part. -/
def splitAt [BEq α] (sep : α) : List α → List (List α)
  | [] => [[]]
  | x :: xs =>
    if x == sep then [] :: splitAt sep xs
    else match splitAt sep xs with
      | [] => [[x]]
      | part :: parts => (x :: part) :: parts

/-- Cuts text at every occurrence of `sep`. -/
def split (sep : Char) (s : String) : List String :=
  (splitAt sep s.toList).map String.ofList

/-- ASCII capital letters made small, all other characters kept. -/
def lowerAscii (s : String) : String :=
  String.ofList (s.toList.map Char.toLower)

end DatasetFilters.Text
