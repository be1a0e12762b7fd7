import DatasetFilters.Catalog.Basic
import DatasetFilters.Table

namespace DatasetFilters

/-- What is known about a version and the options of its dimensions. -/
structure VersionEntry where
  version : Option Version := none
  dimensions : List (String × List String) := []
  deriving DecidableEq, Repr, Inhabited

/-- A catalog held in memory. A version can have dimensions before it is there itself; until then
all questions about it are answered as for a missing one. -/
structure Catalog where
  datasets : List (String × Dataset) := []
  versions : List (DatasetRef × VersionEntry) := []
  deriving DecidableEq, Repr, Inhabited

namespace Catalog

def putDataset (c : Catalog) (d : Dataset) : Catalog :=
  { c with datasets := Table.put d.id d c.datasets }

/-- What is known about a version, nothing if it was never mentioned. -/
def entry (c : Catalog) (ref : DatasetRef) : VersionEntry := (c.versions.lookup ref).getD {}

def putEntry (c : Catalog) (ref : DatasetRef) (e : VersionEntry) : Catalog :=
  { c with versions := Table.put ref e c.versions }

def putVersion (c : Catalog) (ref : DatasetRef) (instanceId : String) (published : Bool) :
    Catalog :=
  let state := if published then publishedState else "associated"
  c.putEntry ref { c.entry ref with version := some ⟨instanceId, state⟩ }

/-- Adds a dimension, or more options to one that is there. -/
def putDimension (c : Catalog) (ref : DatasetRef) (name : String) (options : List String) :
    Catalog :=
  let e := c.entry ref
  let known := (e.dimensions.lookup name).getD []
  c.putEntry ref { e with dimensions := Table.put name (known ++ options) e.dimensions }

def present (c : Catalog) (ref : DatasetRef) : CatalogReply (Version × VersionEntry) :=
  match (c.entry ref).version with
  | some v => .ok (v, c.entry ref)
  | none => .error (.versionNotFound ref.name)

def dataset (c : Catalog) (id : String) : CatalogReply Dataset :=
  match c.datasets.lookup id with
  | some d => .ok d
  | none => .error (.datasetNotFound id)

def version (c : Catalog) (ref : DatasetRef) (authenticated : Bool) : CatalogReply Version := do
  let (v, _) ← c.present ref
  v.visibleTo ref authenticated

def dimensions (c : Catalog) (ref : DatasetRef) : CatalogReply (List VersionDimension) := do
  let (_, e) ← c.present ref
  return e.dimensions.map fun d => ⟨d.1, ""⟩

def options (c : Catalog) (ref : DatasetRef) (name : String) (ids : List String) :
    CatalogReply (List String) := do
  let (_, e) ← c.present ref
  match e.dimensions.lookup name with
  | some known => return ids.filter known.contains
  | none => throw (.dimensionNotFound name)

end Catalog
end DatasetFilters
