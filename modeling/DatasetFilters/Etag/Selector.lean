import DatasetFilters.Text.Blank

namespace DatasetFilters

/-- A condition on the tag of a stored blueprint, as clients state it in `If-Match`. -/
inductive Selector where
  | any
  | exact (tag : String)
  deriving DecidableEq, Repr, Inhabited

namespace Selector

/-- Reads a condition: `*` is any tag; a mark of weakness and quotes around a tag do not count. -/
def parse (raw : String) : Selector :=
  let s := Text.trim raw
  if s = "*" then .any
  else
    let strong := (Text.dropLead? "W/" s).getD s
    .exact (((Text.dropLead? "\"" strong).bind (Text.dropTail? "\"")).getD strong)

def accepts : Selector → String → Bool
  | any, _ => true
  | exact tag, stored => tag == stored

def text : Selector → String
  | any => "*"
  | exact tag => tag

end Selector
end DatasetFilters
