import DatasetFilters.Blueprint.Basic
import DatasetFilters.Config.Basic
import DatasetFilters.Output.Basic

namespace DatasetFilters

/-- A link, with the id of what it leads to. -/
structure Link where
  href : String
  id : Option String := none
  deriving DecidableEq, Repr

def Link.toJson (l : Link) : Json :=
  .ofMembers (("href", .text l.href) :: Json.member? "id" (l.id.map .text))

abbrev Links := List (String × Link)

def Links.toJson (ls : Links) : Json := .ofMembers (ls.map fun l => (l.1, l.2.toJson))

/-- What links start with: those to this server with its configured address or, where a gateway may
be followed, with the host and path that the gateway states, those to versions always with the
configured catalog. -/
structure LinkBase where
  server : String
  catalog : String
  deriving DecidableEq, Repr

namespace LinkBase

/-- The address that a gateway states: its host, and a path in front of ours. -/
def forwarded? (hs : Http.Headers) : Option String := do
  let host := Text.trim (← hs.find? "x-forwarded-host")
  if host.isEmpty then none
  let path := (hs.find? "x-forwarded-path-prefix").map fun p => Text.trimBoth '/' (Text.trim p)
  match path.filter (!·.isEmpty) with
  | some path => return "https://" ++ host ++ "/" ++ path
  | none => return "https://" ++ host

def ofHeaders (c : Config) (hs : Http.Headers) : LinkBase :=
  let configured := Text.trimEnd '/' c.publicUrl
  { server := if c.gatewayLinks then (forwarded? hs).getD configured else configured
    catalog := Text.trimEnd '/' c.catalogUrl }

/-- The address of a blueprint. Names stand in addresses as they are. -/
def filterHref (b : LinkBase) (id : String) : String := b.server ++ "/filters/" ++ id

def dimensionHref (b : LinkBase) (id name : String) : String :=
  b.filterHref id ++ "/dimensions/" ++ name

def optionHref (b : LinkBase) (id name option : String) : String :=
  b.dimensionHref id name ++ "/options/" ++ option

def outputHref (b : LinkBase) (id : String) : String := b.server ++ "/filter-outputs/" ++ id

def filterLink (b : LinkBase) (id : String) : Link := ⟨b.filterHref id, some id⟩

def versionLink (b : LinkBase) (d : DatasetRef) : Link :=
  let version := Decimal.text d.version.toNat
  ⟨b.catalog ++ "/datasets/" ++ d.id ++ "/editions/" ++ d.edition ++ "/versions/" ++ version,
    some version⟩

def blueprint (b : LinkBase) (x : Blueprint) : Links :=
  [("self", b.filterLink x.id), ("dimensions", ⟨b.filterHref x.id ++ "/dimensions", none⟩),
   ("version", b.versionLink x.dataset)] ++
  (x.outputId.map fun id => ("filter_output", ⟨b.outputHref id, some id⟩)).toList

def dimension (b : LinkBase) (id name : String) : Links :=
  [("self", ⟨b.dimensionHref id name, some name⟩), ("filter", b.filterLink id),
   ("options", ⟨b.dimensionHref id name ++ "/options", none⟩)]

def option (b : LinkBase) (id name option : String) : Links :=
  [("self", ⟨b.optionHref id name option, some option⟩), ("filter", b.filterLink id),
   ("dimension", ⟨b.dimensionHref id name, some name⟩)]

def output (b : LinkBase) (x : Output) : Links :=
  [("self", ⟨b.outputHref x.id, some x.id⟩), ("filter_blueprint", b.filterLink x.filterId),
   ("version", b.versionLink x.dataset)]

end LinkBase
end DatasetFilters
