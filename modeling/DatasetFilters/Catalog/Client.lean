import DatasetFilters.Catalog.Basic
import DatasetFilters.Http.Message
import DatasetFilters.Json.FreeForm
import DatasetFilters.Text.Percent

namespace DatasetFilters

/-- The catalog reached over HTTP: where it is, and the credential to show it. -/
structure CatalogClient where
  baseUrl : String
  token : Option String

namespace CatalogClient

/-- A client; an empty credential is none. -/
def create (baseUrl : String) (token : Option String) : CatalogClient :=
  ⟨baseUrl, token.filter (!·.isEmpty)⟩

structure Base where
  /-- Scheme, host and port. -/
  host : String
  /-- The path, empty where it leads to the top. -/
  path : Octets
  /-- The query of the base, which every address over it keeps. -/
  query : Option Octets
  deriving DecidableEq, Repr

/-- A path that segments can be put behind: without the empty segment at its end. -/
def openPath (path : Octets) : Octets :=
  let path := if path.getLast? = some 47 && path != [47] then path.dropLast else path
  if path = [47] then [] else path

/-- The parts of a base address. Slashes at its end do not count, nor does a fragment. -/
def base? (url : String) : Option Base :=
  let cs := (Text.trimEnd '/' url).toList.takeWhile (· != '#')
  let scheme := cs.takeWhile (· != ':')
  match cs.drop scheme.length with
  | ':' :: '/' :: '/' :: rest =>
    let host := rest.takeWhile fun c => c != '/' && c != '?'
    let rest := rest.drop host.length
    if scheme.isEmpty || host.isEmpty then none
    else some {
      host := String.ofList (scheme ++ "://".toList ++ host)
      path := openPath (Octets.ofText (String.ofList (rest.takeWhile (· != '?'))))
      query := match rest.dropWhile (· != '?') with
        | [] => none
        | _ :: query => some (Octets.ofText (String.ofList query)) }
  | _ => none

/-- A path with more segments, as the library for addresses is taken to put them behind it: each is
written with escapes, and the segments `.` and `..`, which name no resource, are left out. That the
library also takes tabs, line feeds and carriage returns out of a segment is not followed here. -/
def extend (path : Octets) (segments : List String) : Octets :=
  path ++ (segments.filter fun s => s != "." && s != "..").flatMap fun s => 47 :: Percent.segment s

def queryOver (base : Option Octets) (pairs : Octets) : Octets :=
  match base with
  | none => if pairs.isEmpty then [] else 63 :: pairs
  | some query =>
    63 :: (if query.isEmpty || pairs.isEmpty then query ++ pairs else query ++ 38 :: pairs)

def datasetSegments (id : String) : List String := ["datasets", id]

def versionSegments (d : DatasetRef) : List String :=
  ["datasets", d.id, "editions", d.edition, "versions", Decimal.text d.version.toNat]

def dimensionsSegments (d : DatasetRef) : List String := versionSegments d ++ ["dimensions"]

def optionsSegments (d : DatasetRef) (dimension : String) : List String :=
  dimensionsSegments d ++ [dimension, "options"]

/-- The query that asks for some ids: the ids with commas between them, and their number. -/
def optionsQuery (ids : List String) : Octets :=
  Octets.ofText "id=" ++ Percent.form (",".intercalate ids) ++
    Octets.ofText "&limit=" ++ Decimal.octets ids.length

/-- The request for a resource, and the host it goes to. -/
def request (c : CatalogClient) (segments : List String) (query : Octets) :
    CatalogReply (String × Http.Request) :=
  match base? c.baseUrl with
  | none => .error (.transport "invalid catalog url")
  | some base =>
    let credential := c.token.map fun t => ("authorization", Octets.ofText ("Bearer " ++ t))
    .ok (base.host, { method := "GET"
                      target := extend base.path segments ++ queryOver base.query query
                      headers := credential.toList })

/-- The message in the body of a failed reply: a text member of that name, or the whole body. -/
def failureMessage (body : Octets) : String :=
  let stated := ((Json.parseFree? body).bind (Json.get? "message")).bind Json.asText?
  stated.getD (Octets.textLossy body)

/-- What a reply means, for a resource that is missing as `missing` says. -/
def interpret (missing : CatalogError) (read : Json → Option α) (r : Http.Response) :
    CatalogReply α :=
  if Http.isSuccess r.status then
    match (Json.parse? r.body).bind read with
    | some a => .ok a
    | none => .error (.serialization "unexpected reply")
  else if r.status = 404 then .error missing
  else .error (.failedReply r.status (failureMessage r.body))

def fetch (c : CatalogClient) (net : Http.Network) (segments : List String) (query : Octets)
    (missing : CatalogError) (read : Json → Option α) : CatalogReply α := do
  let (host, request) ← c.request segments query
  match net host request with
  | .error detail => throw (.transport detail)
  | .ok response => interpret missing read response

def items? (read : Json → Option α) (j : Json) : Option (List α) := do
  let r ← JsonRecord.of? ["items"] j
  r.defaulted "items" [] (Json.asList? read)

def option? (j : Json) : Option String := do
  let r ← JsonRecord.of? ["option"] j
  r.required "option" Json.asText?

def dataset (c : CatalogClient) (net : Http.Network) (id : String) : CatalogReply Dataset :=
  c.fetch net (datasetSegments id) [] (.datasetNotFound id) Dataset.ofJson?

def version (c : CatalogClient) (net : Http.Network) (d : DatasetRef) (authenticated : Bool) :
    CatalogReply Version := do
  let v ← c.fetch net (versionSegments d) [] (.versionNotFound d.name) Version.ofJson?
  v.visibleTo d authenticated

def dimensions (c : CatalogClient) (net : Http.Network) (d : DatasetRef) :
    CatalogReply (List VersionDimension) :=
  c.fetch net (dimensionsSegments d) [] (.versionNotFound d.name)
    (items? VersionDimension.ofJson?)

/-- The options that the catalog lists for some ids. Without ids nothing is asked. -/
def options (c : CatalogClient) (net : Http.Network) (d : DatasetRef) (dimension : String)
    (ids : List String) : CatalogReply (List String) :=
  if ids.isEmpty then .ok []
  else c.fetch net (optionsSegments d dimension) (optionsQuery ids) (.versionNotFound d.name)
    (items? option?)

end CatalogClient
end DatasetFilters
