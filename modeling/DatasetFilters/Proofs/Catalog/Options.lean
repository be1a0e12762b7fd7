import DatasetFilters.Catalog.Memory
import DatasetFilters.Proofs.Blueprint.RoundTrip
import DatasetFilters.Proofs.Catalog.Address
import DatasetFilters.Proofs.Json.Record
import DatasetFilters.Proofs.Text.Query

namespace DatasetFilters

namespace CatalogClient

/-- A page that lists options. -/
def Lists (j : Json) (options : List String) : Prop :=
  ∃ items, j.Has "items" (.array items) ∧
    List.Forall₂ (fun i option => Json.Has i "option" (.text option)) items options

theorem option?_of_has {j : Json} {option : String} (h : j.Has "option" (.text option)) :
    option? j = some option := by
  rw [option?, JsonRecord.of?_of_has h]
  rfl

theorem items?_of_lists {j : Json} {options : List String} (h : Lists j options) :
    items? option? j = some options := by
  obtain ⟨items, page, listed⟩ := h
  have read : Json.asList? option? (.array items) = some options :=
    Json.asList?_eq_some_iff.mpr ⟨items, rfl, listed.imp fun _ _ => option?_of_has⟩
  have found : JsonRecord.find? ⟨false, [("items", .array items)]⟩ "items" = some (.array items) := by
    simp [JsonRecord.find?]
  rw [items?, JsonRecord.of?_of_has page]
  exact (JsonRecord.read_of_find? _ found read).2 []

/-- A service reads from the query the ids with commas between them, and how many they are. -/
theorem pairs_optionsQuery (ids : List String) : Percent.pairs (optionsQuery ids) =
    [("id", ",".intercalate ids), ("limit", Decimal.text ids.length)] := by
  have first : Octets.ofText "id=" = Octets.ofText "id" ++ [61] := by decide
  have second : Octets.ofText "&limit=" = 38 :: (Octets.ofText "limit" ++ [61]) := by decide
  have written : optionsQuery ids =
      (Octets.ofText "id" ++ 61 :: Percent.form (",".intercalate ids)) ++
        38 :: (Octets.ofText "limit" ++ 61 :: Decimal.octets ids.length) := by
    simp [optionsQuery, first, second]
  rw [written, Percent.pairs_append,
    Percent.pairs_of_notMem ⟨by decide, Percent.notMem_form (by decide) _⟩ (by decide),
    Percent.pairs_of_notMem ⟨by decide, Percent.notMem_octets rfl _⟩ (by decide),
    Percent.decodeForm_form, Percent.decodeForm_octets,
    Percent.decodeForm_ofText (by decide) (by decide), Percent.decodeForm_ofText (by decide) (by decide)]
  rfl

/-- A query for options never starts a fragment. -/
theorem notMem_optionsQuery (ids : List String) : 35 ∉ optionsQuery ids := by
  simp only [optionsQuery, List.mem_append, not_or]
  exact ⟨⟨⟨by decide, Percent.notMem_form (.inl rfl) _⟩, by decide⟩, Percent.notMem_octets rfl _⟩

theorem notMem_base_query {url : String} {base : Base} (located : base? url = some base) :
    ∀ query ∈ base.query, 35 ∉ query := by
  obtain ⟨rest, fragment, -, query⟩ := parts_of_base? located
  rintro q written mem
  obtain ⟨cs, within, rfl⟩ := query q written
  exact fragment (within (Octets.mem_of_mem_ofText (by decide) mem))

/-- The query of an address over a base has the pairs of the base in front of its own. -/
theorem queryOver_eq {base : Option Octets} {pairs : Octets} (nonempty : pairs ≠ [])
    (plain : ∀ query ∈ base, 35 ∉ query) (own : 35 ∉ pairs) :
    ∃ query front, queryOver base pairs = 63 :: query ∧ 35 ∉ query ∧
      Percent.pairs query = front ++ Percent.pairs pairs := by
  have filled : pairs.isEmpty = false := by simpa using nonempty
  cases base with
  | none => exact ⟨pairs, [], by simp [queryOver, filled], own, rfl⟩
  | some query =>
    have plain := plain query rfl
    by_cases empty : query = []
    · exact ⟨pairs, [], by simp [queryOver, empty], own, rfl⟩
    · refine ⟨query ++ 38 :: pairs, Percent.pairs query, by simp [queryOver, empty, filled], ?_,
        Percent.pairs_append _ _⟩
      simp [plain, own]

theorem query_eq {request : Http.Request} {path query : Octets}
    (target : request.target = path ++ 63 :: query) (plain : Plain path) (nonempty : path ≠ [])
    (fragment : 35 ∉ query) : request.query = query := by
  have whole : request.target.takeWhile (· != 35) = path ++ 63 :: query := by
    rw [target, List.takeWhile_eq_self_iff]
    intro b mem
    refine bne_iff_ne.mpr ?_
    rintro rfl
    rcases List.mem_append.mp mem with mem | mem
    · exact plain.fragment mem
    · rcases List.mem_cons.mp mem with h | mem
      · cases h
      · exact fragment mem
  have ordinary : ∀ b ∈ path, (b != 63) = true := fun b mem =>
    bne_iff_ne.mpr fun same => plain.query (same ▸ mem)
  obtain ⟨b, tail, rfl⟩ := List.exists_cons_of_ne_nil nonempty
  obtain rfl := plain.head b rfl
  rw [Http.Request.query, Http.Request.pathAndQuery, whole]
  simp only [List.cons_append, List.head?_cons, if_true]
  rw [← List.cons_append, List.dropWhile_append_of_pos ordinary]
  rfl

/-- The last value of a name in the query of a request. -/
def parameter? (r : Http.Request) (name : String) : Option String :=
  (Percent.pairs r.query).reverse.lookup name

/-- A service that cuts the ids it is asked for at their commas, keeps the parts that it knows and lists as
many of them as it is asked for at most. -/
def Splits (net : Http.Network) (host : String) (path : Octets) (known : List String) : Prop :=
  ∀ (request : Http.Request) (ids : String) (limit : Nat), request.method = "GET" →
    request.path = path → parameter? request "id" = some ids →
    parameter? request "limit" = some (Decimal.text limit) →
    ∃ response page, net host request = .ok response ∧ Http.isSuccess response.status = true ∧
      Json.parse? response.body = some page ∧
      Lists page (((Text.split ',' ids).filter known.contains).take limit)

/-- What is made of ids that are asked for: those that are known among their parts between commas. -/
def knownParts (known ids : List String) : List String :=
  (ids.flatMap (Text.split ',')).filter known.contains

section

variable {c : CatalogClient} {base : Base} {net : Http.Network} {d : DatasetRef} {name : String}
  {known : List String}

/-- A client asks for ids with commas between them, and for as many options as it names ids. -/
theorem parameters_of_request (located : base? c.baseUrl = some base) {ids : List String}
    {request : Http.Request}
    (asked : c.request (Resource.options d name).segments (optionsQuery ids) = .ok (base.host, request)) :
    parameter? request "id" = some (",".intercalate ids) ∧
      parameter? request "limit" = some (Decimal.text ids.length) := by
  have nonempty : optionsQuery ids ≠ [] := by
    have first : Octets.ofText "id=" ≠ [] := by decide
    simp [optionsQuery, first]
  obtain ⟨query, front, behind, fragment, pairs⟩ :=
    queryOver_eq nonempty (notMem_base_query located) (notMem_optionsQuery ids)
  have target : request.target = (Resource.options d name).path base ++ 63 :: query := by
    rw [CatalogClient.request, located] at asked
    rw [← (Prod.mk.inj (Except.ok.inj asked)).2, ← behind]
    rfl
  rw [parameter?, parameter?, query_eq target (plain_path located _) (path_ne_nil _ _) fragment, pairs,
    pairs_optionsQuery]
  simp [List.lookup_cons]

/-- A client is told the known parts, but no more of them than it asked for ids. -/
theorem options_eq (located : base? c.baseUrl = some base)
    (splits : Splits net base.host ((Resource.options d name).path base) known) (ids : List String) :
    c.options net d name ids = .ok ((knownParts known ids).take ids.length) := by
  by_cases nonempty : ids = []
  · subst nonempty
    rfl
  · obtain ⟨request, asked, get, path⟩ := request_eq located (.options d name) (optionsQuery ids)
    obtain ⟨joined, counted⟩ := parameters_of_request located asked
    obtain ⟨response, page, answered, success, parsed, lists⟩ :=
      splits request _ _ get path joined counted
    rw [Text.split_joined nonempty] at lists
    have filled : ids.isEmpty = false := by simpa using nonempty
    have sent : c.request (optionsSegments d name) (optionsQuery ids) = .ok (base.host, request) := asked
    rw [options, filled]
    simp only [fetch, sent, bind, Except.bind, answered, interpret, success, parsed, Option.bind_some,
      items?_of_lists lists]
    rfl

end

/-- An id that has a comma is none of the parts, and so is never confirmed. -/
theorem notMem_knownParts {known ids : List String} {id : String} (comma : ',' ∈ id.toList) :
    id ∉ knownParts known ids := by
  intro mem
  obtain ⟨asked, -, part⟩ := List.mem_flatMap.mp (List.mem_filter.mp mem).1
  exact Text.notMem_of_mem_split part comma

theorem mem_knownParts {known ids : List String} {id : String} (asked : id ∈ ids)
    (whole : ',' ∉ id.toList) : id ∈ knownParts known ids ↔ id ∈ known := by
  have part : id ∈ ids.flatMap (Text.split ',') := by
    refine List.mem_flatMap.mpr ⟨id, asked, ?_⟩
    rw [Text.split_of_notMem whole]
    exact List.mem_singleton_self id
  rw [knownParts, List.mem_filter, and_iff_right part, List.contains_iff_mem]

theorem knownParts_of_whole {known ids : List String} (whole : ∀ id ∈ ids, ',' ∉ id.toList) :
    knownParts known ids = ids.filter known.contains := by
  have parts : ids.flatMap (Text.split ',') = ids := by
    induction ids with
    | nil => rfl
    | cons id ids ih =>
      obtain ⟨first, others⟩ := List.forall_mem_cons.mp whole
      rw [List.flatMap_cons, Text.split_of_notMem first, ih others, List.singleton_append]
  rw [knownParts, parts]

end CatalogClient

/-- The catalog in memory holds a version and the options of one of its dimensions. -/
def Catalog.Offers (catalog : Catalog) (d : DatasetRef) (name : String) (known : List String) : Prop :=
  (catalog.entry d).version.isSome = true ∧ (catalog.entry d).dimensions.lookup name = some known

/-- The catalog in memory looks each id up as it is. -/
theorem Catalog.options_of_offers {catalog : Catalog} {d : DatasetRef} {name : String}
    {known : List String} (offers : catalog.Offers d name known) (ids : List String) :
    catalog.options d name ids = .ok (ids.filter known.contains) := by
  obtain ⟨present, held⟩ := offers
  obtain ⟨v, version⟩ := Option.isSome_iff_exists.mp present
  simp only [options, Catalog.present, version, bind, Except.bind, held]
  rfl

namespace CatalogClient

/-- The options that a client of a catalog service and the catalog in memory confirm over the same data.
What the client confirms of the requested ids is confirmed in memory too. An id with a comma is never
confirmed to the client; where the service does not run out of room the others are confirmed alike, and
without such ids the two lists are the same. -/
theorem options_confirmed {c : CatalogClient} {base : Base} {net : Http.Network} {catalog : Catalog}
    {d : DatasetRef} {name : String} {known : List String} (located : base? c.baseUrl = some base)
    (splits : Splits net base.host ((Resource.options d name).path base) known)
    (offers : catalog.Offers d name known) (ids : List String) :
    ∃ remote inMemory, c.options net d name ids = .ok remote ∧
      catalog.options d name ids = .ok inMemory ∧
      remote = (knownParts known ids).take ids.length ∧
      (∀ id ∈ ids, id ∈ remote → id ∈ inMemory) ∧
      ((∀ id ∈ ids, id ∈ remote ↔ id ∈ inMemory) ↔ ∀ id ∈ ids, id ∈ known → id ∈ remote) ∧
      (∀ id, ',' ∈ id.toList → id ∉ remote) ∧
      ((knownParts known ids).length ≤ ids.length →
        ∀ id ∈ ids, id ∈ remote ↔ id ∈ inMemory ∧ ',' ∉ id.toList) ∧
      ((∀ id ∈ ids, ',' ∉ id.toList) → remote = inMemory) := by
  refine ⟨_, _, options_eq located splits ids, Catalog.options_of_offers offers ids, rfl, ?_, ?_, ?_, ?_, ?_⟩
  · intro id asked confirmed
    exact List.mem_filter.mpr ⟨asked, (List.mem_filter.mp (List.mem_of_mem_take confirmed)).2⟩
  · refine forall₂_congr fun id asked => ?_
    rw [List.mem_filter, List.contains_iff_mem, and_iff_right asked]
    refine ⟨Iff.mpr, fun found => ⟨fun confirmed => ?_, found⟩⟩
    exact List.contains_iff_mem.mp (List.mem_filter.mp (List.mem_of_mem_take confirmed)).2
  · intro id comma confirmed
    exact notMem_knownParts comma (List.mem_of_mem_take confirmed)
  · intro room id asked
    rw [List.take_of_length_le room]
    by_cases comma : ',' ∈ id.toList
    · exact iff_of_false (notMem_knownParts comma) fun h => h.2 comma
    · rw [mem_knownParts asked comma, List.mem_filter, List.contains_iff_mem, and_iff_right asked,
        and_iff_left comma]
  · intro whole
    rw [knownParts_of_whole whole]
    exact List.take_of_length_le (List.length_filter_le _ _)

end CatalogClient

namespace Small

open CatalogClient

def pageOf (options : List String) : Json :=
  .ofMembers [("items", .array (options.map fun o => .ofMembers [("option", .text o)]))]

theorem lists_pageOf (options : List String) : Lists (pageOf options) options := by
  have items : List.Forall₂ (fun i option => Json.Has i "option" (.text option))
      (options.map fun o => .ofMembers [("option", .text o)]) options := by
    rw [List.forall₂_map_left_iff]
    exact List.forall₂_same.mpr fun o _ => ⟨_, rfl, by simp⟩
  exact ⟨_, ⟨_, rfl, by simp⟩, items⟩

theorem isPlain_pageOf (options : List String) : (pageOf options).isPlain = true := by
  have item (o : String) : (Json.ofMembers [("option", .text o)]).isPlain = true :=
    Json.isPlain_ofMembers (by simp)
  refine Json.isPlain_ofMembers ?_
  simpa using Json.isPlain_array_map options item

/-- A service that knows some options, of whatever it is asked about. -/
def splitting (known : List String) : Http.Network := fun _ request =>
  let ids := (parameter? request "id").getD ""
  let limit := Decimal.value (Decimal.ofChars ((parameter? request "limit").getD "").toList)
  .ok { status := 200
        body := (pageOf (((Text.split ',' ids).filter known.contains).take limit)).write }

theorem splits_splitting (host : String) (path : Octets) (known : List String) :
    Splits (splitting known) host path known := by
  intro request ids limit _ _ joined counted
  have number : Decimal.value (Decimal.ofChars (Decimal.text limit).toList) = limit := by
    rw [Decimal.text, String.toList_ofList,
      Decimal.ofChars_toChars fun _ => Decimal.isDigit_of_mem_octets, Decimal.value_octets]
  refine ⟨_, _, rfl, rfl, Json.parse?_write (isPlain_pageOf _), ?_⟩
  simp only [joined, counted, Option.getD_some, number]
  exact lists_pageOf _

def bands : List String := ["0,5", "0", "5", "27"]

def banded : Catalog :=
  let catalog := ({} : Catalog).putVersion ⟨"d", "2017", 3⟩ "i" true
  catalog.putDimension ⟨"d", "2017", 3⟩ "age" bands

/-- An option with a comma is confirmed in memory alone, and takes the room of another one. -/
theorem comma_unconfirmed :
    remote.options (splitting bands) ⟨"d", "2017", 3⟩ "age" ["0,5", "27"] = .ok ["0", "5"] ∧
    banded.options ⟨"d", "2017", 3⟩ "age" ["0,5", "27"] = .ok ["0,5", "27"] := by
  have offers : banded.Offers ⟨"d", "2017", 3⟩ "age" bands := ⟨by decide, by decide⟩
  obtain ⟨found, inMemory, told, held, parts, -⟩ :=
    options_confirmed remote_located (splits_splitting _ _ bands) offers ["0,5", "27"]
  have first : found = ["0", "5"] := parts.trans (by decide)
  have all : inMemory = ["0,5", "27"] :=
    Except.ok.inj (held.symm.trans (by decide))
  exact ⟨first ▸ told, all ▸ held⟩

end Small

end DatasetFilters
