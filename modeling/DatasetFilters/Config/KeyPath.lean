import DatasetFilters.Config.LooseValue
import DatasetFilters.Table

namespace DatasetFilters

inductive KeyStep where
  | member (name : String)
  /-- The item at a place; below zero, places count from the end. -/
  | item (place : Int)
  deriving DecidableEq, Repr

/-- A key that leads into a value: `a.b` is the member `b` of `a`, `a[2]` the third item of `a`, and
`a[-1]` its last one. -/
structure KeyPath where
  root : String
  steps : List KeyStep
  deriving DecidableEq, Repr

namespace KeyPath

def isNameChar (c : Char) : Bool := c.isAlphanum || c == '_' || c == '-'

def isGap (c : Char) : Bool := c == ' ' || c == '\t'

/-- Reads a place: digits with an optional minus sign and gaps around them. -/
def place? (cs : List Char) : Option Int :=
  match Text.trimChars isGap cs with
  | '+' :: _ => none
  | cs => LooseValue.whole? (String.ofList cs)

def steps? : List Char → Option (List KeyStep)
  | [] => some []
  | '.' :: cs =>
    let name := cs.takeWhile isNameChar
    if name.isEmpty then none
    else (steps? (cs.dropWhile isNameChar)).map (.member (String.ofList name) :: ·)
  | '[' :: cs =>
    match place? (cs.takeWhile (· != ']')) with
    | none => none
    | some place =>
      if (cs.dropWhile (· != ']')).isEmpty then none
      else (steps? ((cs.dropWhile (· != ']')).drop 1)).map (.item place :: ·)
  | _ => none
termination_by cs => cs.length
decreasing_by
  · have := (List.dropWhile_suffix isNameChar (l := cs)).length_le
    simp only [List.length_cons]; omega
  · have := (List.dropWhile_suffix (· != ']') (l := cs)).length_le
    simp only [List.length_drop, List.length_cons]; omega

def parse? (key : String) : Option KeyPath :=
  let name := key.toList.takeWhile isNameChar
  if name.isEmpty then none
  else (steps? (key.toList.dropWhile isNameChar)).map (⟨String.ofList name, ·⟩)

/-- The path of a key. A key that is not written as a path is a name as a whole. -/
def ofKey (key : String) : KeyPath := (parse? key).getD ⟨key, []⟩

end KeyPath

namespace LooseValue

/-- Edits the item at a place. Where the list does not reach, it is filled up with nothing. -/
def editItem (place : Int) (edit : LooseValue → LooseValue) (items : List LooseValue) :
    List LooseValue :=
  let length : Int := items.length
  if place < -length then
    edit .nothing :: (List.replicate (-place - length - 1).toNat nothing ++ items)
  else
    let k := (if place < 0 then length + place else place).toNat
    (items ++ List.replicate (k + 1 - items.length) nothing).modify k edit

/-- An old value with a new one at the end of some steps. What is neither a list nor a table gives
way to one; what a table holds is of no use to any member. -/
def placed (value : LooseValue) : List KeyStep → LooseValue → LooseValue
  | [], _ => value
  | .member _ :: _, _ => .table
  | .item place :: steps, .list items => .list (editItem place (placed value steps) items)
  | .item place :: steps, _ => .list (editItem place (placed value steps) [])

end LooseValue

namespace Config

abbrev LooseMembers := List (String × LooseValue)

/-- Sets the value of a key, which makes the lists and tables on the way and fills lists with
nothing up to the place. -/
def setKey (ms : LooseMembers) (key : String) (value : LooseValue) : LooseMembers :=
  let path := KeyPath.ofKey key
  Table.put path.root (value.placed path.steps ((ms.lookup path.root).getD .nothing)) ms

end Config
end DatasetFilters
