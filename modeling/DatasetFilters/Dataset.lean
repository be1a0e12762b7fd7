import DatasetFilters.Json.Record

namespace DatasetFilters

/-- A version of a published dataset, by name. -/
structure DatasetRef where
  id : String
  edition : String
  version : UInt32
  deriving DecidableEq, Repr, Inhabited

namespace DatasetRef

def withVersion (d : DatasetRef) (version : UInt32) : DatasetRef := { d with version }

def name (d : DatasetRef) : String :=
  d.id ++ "/" ++ d.edition ++ "/" ++ Decimal.text d.version.toNat

def toJson (d : DatasetRef) : Json :=
  .ofMembers [("id", .text d.id), ("edition", .text d.edition), ("version", .nat d.version.toNat)]

def version? (j : Json) : Option UInt32 := (j.asNat? UInt32.size).map UInt32.ofNat

def ofJson? (j : Json) : Option DatasetRef := do
  let r ← JsonRecord.of? ["id", "edition", "version"] j
  return { id := ← r.required "id" Json.asText?
           edition := ← r.required "edition" Json.asText?
           version := ← r.required "version" version? }

end DatasetRef
end DatasetFilters
