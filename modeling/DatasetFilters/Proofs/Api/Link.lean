import DatasetFilters.Api.Server
import DatasetFilters.Proofs.Api.Address
import DatasetFilters.Proofs.Catalog.Address

namespace DatasetFilters

namespace Api

/-- A request is given to the handler of a route, with its parameters. -/
def Handles (c : Config) (r : Http.Request) (route : Route String) (m : Method) : Prop :=
  Method.ofName? r.method = some m ∧ m ∈ route.methods ∧ Route.Leads c.metrics r.path route

theorem methods_map {α β : Type} (f : α → β) (route : Route α) : (route.map f).methods = route.methods := by
  cases route <;> rfl

theorem isApi_map {α β : Type} (f : α → β) (route : Route α) : (route.map f).isApi = route.isApi := by
  cases route <;> rfl

/-- A request that reaches a handler is answered by it, or passed on. -/
theorem dispatch_of_handles {c : Config} {r : Http.Request} {route : Route String} {m : Method}
    (h : Handles c r route m) (api : route.isApi = true) :
    dispatch c r = Forwarding.around c r (Call.answer ⟨c, Identity.caller c r.headers, r⟩ route m) := by
  obtain ⟨named, served, raw, leads, decoded⟩ := h
  have same := Route.decode_eq_ok_iff.mp decoded
  have raw_served : raw.methods.contains m = true := by
    rw [List.contains_iff_mem, ← methods_map Percent.decode raw, same, methods_map]
    exact served
  have raw_api : raw.isApi = true := by
    rw [← isApi_map Percent.decode raw, same, isApi_map]
    exact api
  simp only [dispatch, leads, raw_api, if_true, onRoute, named, raw_served, decoded]

end Api

namespace Link

/-- The path of the address that a link gives. -/
def path (l : Link) : Octets := Http.Request.path ⟨"GET", Octets.ofText l.href, [], []⟩

/-- The request of a client that follows a link. -/
def followed (l : Link) : Http.Request := { method := "GET", target := l.path }

/-- An address that is scheme and host alone. -/
structure IsHost (url : String) : Prop where
  host : Http.Request.behindHost? (Octets.ofText url) = some []
  fragment : 35 ∉ Octets.ofText url

theorem behindHost?_append {url : Octets} (host : Http.Request.behindHost? url = some []) (rest : Octets) :
    Http.Request.behindHost? (url ++ 47 :: rest) = some (47 :: rest) := by
  unfold Http.Request.behindHost? at host ⊢
  split at host
  case h_2 => cases host
  next authority scheme =>
  have nowhere : authority.dropWhile (fun b => b != 47 && b != 63) = [] := Option.some.inj host
  rw [List.dropWhile_append, scheme]
  simp [List.dropWhile_append, nowhere]

theorem head?_of_behindHost? {url rest : Octets} (host : Http.Request.behindHost? url = some rest) :
    ∃ b tail, url = b :: tail ∧ b ≠ 47 := by
  cases url with
  | nil => cases host
  | cons b tail =>
    refine ⟨b, tail, rfl, ?_⟩
    rintro rfl
    cases host

theorem path_of_isHost {l : Link} {url : String} (host : IsHost url) {rest : Octets}
    (href : Octets.ofText l.href = Octets.ofText url ++ 47 :: rest) :
    l.path = ((47 :: rest).takeWhile (· != 35)).takeWhile (· != 63) := by
  have ordinary : ∀ b ∈ Octets.ofText url, (b != 35) = true := fun b mem =>
    bne_iff_ne.mpr fun same => host.fragment (same ▸ mem)
  have unended : (Octets.ofText l.href).takeWhile (· != 35) =
      Octets.ofText url ++ 47 :: rest.takeWhile (· != 35) := by
    rw [href, List.takeWhile_append_of_pos ordinary, List.takeWhile_cons_of_pos (by decide)]
  have behind := behindHost?_append host.host (rest.takeWhile (· != 35))
  obtain ⟨b, tail, whole, other⟩ := head?_of_behindHost? behind
  rw [path, Http.Request.path, Http.Request.pathAndQuery]
  simp only [unended, behind]
  rw [if_neg (by rw [whole]; simpa using other)]
  simp

/-- A client that follows a link sends the path of its address. -/
theorem path_followed {l : Link} {rest : Octets}
    (h : l.path = ((47 :: rest).takeWhile (· != 35)).takeWhile (· != 63)) : l.followed.path = l.path := by
  have nonempty : l.path ≠ [] := by simp [h]
  have plain : CatalogClient.Plain l.path := by
    refine ⟨by simp [h], fun mem => ?_, fun mem => ?_⟩
    · have within := (List.takeWhile_sublist _).subset (h ▸ mem)
      exact absurd (List.mem_takeWhile_imp within) (by decide)
    · exact absurd (List.mem_takeWhile_imp (h ▸ mem)) (by decide)
  exact CatalogClient.path_eq (List.append_nil _).symm plain nonempty (by simp)

end Link

namespace LinkBase

/-- A link with the address of a route behind a host leads to the route just if its pieces stand for
themselves. -/
theorem handles_followed_iff {c : Config} {l : Link} {url : String} {route : Route String}
    (host : Link.IsHost url) (href : Octets.ofText l.href = Octets.ofText url ++ route.address)
    (gets : .get ∈ route.methods) (served : route.Served c.metrics) :
    Api.Handles c l.followed route .get ↔
      (∀ p ∈ route.pieces id, Percent.Verbatim p) ∧ (route.pieces id).getLast? ≠ some "" := by
  obtain ⟨p, ps, pieces⟩ := List.exists_cons_of_ne_nil (route.pieces_ne_nil id)
  have slash : route.address = 47 :: (Octets.ofText p ++ ps.flatMap fun p => 47 :: Octets.ofText p) := by
    rw [Route.address, pieces]
    rfl
  have path := Link.path_of_isHost host (slash ▸ href)
  have named : Method.ofName? l.followed.method = some .get := rfl
  rw [Api.Handles, Link.path_followed path, path, ← slash, Route.leads_iff served, and_iff_right named,
    and_iff_right gets]

/-- The link of a name leads to a route. -/
def LeadsTo (c : Config) (links : Links) (name : String) (route : Route String) : Prop :=
  ∃ l, links.lookup name = some l ∧ Api.Handles c l.followed route .get

/-- A link leads to a route just if all pieces of that route stand for themselves in a path and the
last one is not empty. -/
theorem leadsTo_iff {c : Config} {links : Links} {name : String} {l : Link} {url : String}
    {route : Route String} (found : links.lookup name = some l) (host : Link.IsHost url)
    (href : Octets.ofText l.href = Octets.ofText url ++ route.address) (gets : .get ∈ route.methods)
    (served : route.Served c.metrics) :
    LeadsTo c links name route ↔
      (∀ p ∈ route.pieces id, Percent.Verbatim p) ∧ (route.pieces id).getLast? ≠ some "" := by
  rw [← handles_followed_iff host href gets served]
  constructor
  · rintro ⟨l', found', handled⟩
    obtain rfl := Option.some.inj (found.symm.trans found')
    exact handled
  · exact fun handled => ⟨l, found, handled⟩

section

variable (b : LinkBase) (x name o : String)

/-- The address of a blueprint is that of its route, with the id as it is. -/
theorem ofText_filterHref :
    Octets.ofText (b.filterHref x) = Octets.ofText b.server ++ (Route.filter x).address := by
  have front : Octets.ofText "/filters/" = 47 :: (Octets.ofText "filters" ++ [47]) := by decide
  simp [filterHref, Octets.ofText_append, front, Route.address, Route.pieces]

theorem ofText_dimensionsHref :
    Octets.ofText (b.filterHref x ++ "/dimensions") =
      Octets.ofText b.server ++ (Route.dimensions x).address := by
  have behind : Octets.ofText "/dimensions" = 47 :: Octets.ofText "dimensions" := by decide
  rw [Octets.ofText_append, ofText_filterHref]
  simp [behind, Route.address, Route.pieces]

theorem ofText_dimensionHref :
    Octets.ofText (b.dimensionHref x name) =
      Octets.ofText b.server ++ (Route.dimension x name).address := by
  have middle : Octets.ofText "/dimensions/" = 47 :: (Octets.ofText "dimensions" ++ [47]) := by decide
  rw [dimensionHref, Octets.ofText_append, Octets.ofText_append, ofText_filterHref]
  simp [middle, Route.address, Route.pieces]

theorem ofText_optionsHref :
    Octets.ofText (b.dimensionHref x name ++ "/options") =
      Octets.ofText b.server ++ (Route.options x name).address := by
  have behind : Octets.ofText "/options" = 47 :: Octets.ofText "options" := by decide
  rw [Octets.ofText_append, ofText_dimensionHref]
  simp [behind, Route.address, Route.pieces]

theorem ofText_optionHref :
    Octets.ofText (b.optionHref x name o) =
      Octets.ofText b.server ++ (Route.option x name o).address := by
  have middle : Octets.ofText "/options/" = 47 :: (Octets.ofText "options" ++ [47]) := by decide
  rw [optionHref, Octets.ofText_append, Octets.ofText_append, ofText_dimensionHref]
  simp [middle, Route.address, Route.pieces]

end

theorem verbatim_of_mem_words {w : String} (mem : w ∈ Route.words) : Percent.Verbatim w := by
  have plain : ∀ w ∈ Route.words, (35 ∉ Octets.ofText w ∧ 63 ∉ Octets.ofText w) ∧
      47 ∉ Octets.ofText w := by
    decide
  obtain ⟨ends, slash⟩ := plain w mem
  exact (Percent.verbatim_iff w).mpr
    ⟨ends, slash, Percent.decode_of_notMem (Route.plain_words w mem)⟩

/-- Where the links of documents lead, if the configured address is that of a host and gateways are not
followed. The link to a blueprint, a dimension or an option, and that to their lists, leads to what it is a
link to, with the same names, just if all names in it stand for themselves in a path and it does not end
in an empty one. What it leads to is then answered by the handler of that resource. -/
theorem links_lead_back_iff {c : Config} (own : c.gatewayLinks = false)
    (host : Link.IsHost (Text.trimEnd '/' c.publicUrl)) (hs : Http.Headers) (x : Blueprint) :
    (∀ r route, Api.Handles c r route .get → route.isApi = true → Api.dispatch c r =
      Forwarding.around c r (Call.answer ⟨c, Identity.caller c r.headers, r⟩ route .get)) ∧
    (LeadsTo c ((ofHeaders c hs).blueprint x) "self" (.filter x.id) ↔
      Percent.Verbatim x.id ∧ x.id ≠ "") ∧
    (LeadsTo c ((ofHeaders c hs).blueprint x) "dimensions" (.dimensions x.id) ↔
      Percent.Verbatim x.id) ∧
    ∀ d ∈ x.dimensions,
      (LeadsTo c ((ofHeaders c hs).dimension x.id d.name) "self" (.dimension x.id d.name) ↔
        Percent.Verbatim x.id ∧ Percent.Verbatim d.name ∧ d.name ≠ "") ∧
      (LeadsTo c ((ofHeaders c hs).dimension x.id d.name) "options" (.options x.id d.name) ↔
        Percent.Verbatim x.id ∧ Percent.Verbatim d.name) ∧
      ∀ o ∈ d.options,
        (LeadsTo c ((ofHeaders c hs).option x.id d.name o) "self" (.option x.id d.name o) ↔
          Percent.Verbatim x.id ∧ Percent.Verbatim d.name ∧ Percent.Verbatim o ∧ o ≠ "") := by
  have server : (ofHeaders c hs).server = Text.trimEnd '/' c.publicUrl := by
    simp [ofHeaders, own]
  rw [← server] at host
  have filters : Percent.Verbatim "filters" := verbatim_of_mem_words (by decide)
  have dimensions : Percent.Verbatim "dimensions" := verbatim_of_mem_words (by decide)
  have options : Percent.Verbatim "options" := verbatim_of_mem_words (by decide)
  generalize ofHeaders c hs = b at host
  refine ⟨fun _ _ => Api.dispatch_of_handles, ?_, ?_, fun d _ => ⟨?_, ?_, fun o _ => ?_⟩⟩
  · refine (leadsTo_iff rfl host (b.ofText_filterHref _) List.mem_cons_self (by trivial)).trans ?_
    simp [Route.pieces, filters]
  · refine (leadsTo_iff rfl host (b.ofText_dimensionsHref _) List.mem_cons_self (by trivial)).trans ?_
    simp [Route.pieces, filters, dimensions]
  · refine (leadsTo_iff rfl host (b.ofText_dimensionHref _ _) List.mem_cons_self (by trivial)).trans ?_
    simp [Route.pieces, filters, dimensions, and_assoc]
  · refine (leadsTo_iff rfl host (b.ofText_optionsHref _ _) List.mem_cons_self (by trivial)).trans ?_
    simp [Route.pieces, filters, dimensions, options]
  · refine (leadsTo_iff rfl host (b.ofText_optionHref _ _ _) List.mem_cons_self (by trivial)).trans ?_
    simp [Route.pieces, filters, dimensions, options, and_assoc]

end LinkBase

namespace Small

/-- A blueprint with a name that stands for itself and one that does not. -/
def slashed : Blueprint := { (default : Blueprint) with
  id := "f"
  dimensions := [⟨"age", ["27"]⟩, ⟨"age/sex", []⟩] }

/-- The links to a dimension and its option lead there; those to a dimension with a slash in its name do not. -/
theorem slash_leads_astray :
    LinkBase.LeadsTo {} ((LinkBase.ofHeaders {} []).option "f" "age" "27") "self" (.option "f" "age" "27") ∧
    ¬LinkBase.LeadsTo {} ((LinkBase.ofHeaders {} []).dimension "f" "age/sex") "self"
      (.dimension "f" "age/sex") := by
  have host : Link.IsHost (Text.trimEnd '/' ({} : Config).publicUrl) := ⟨by decide, by decide⟩
  have leads := (LinkBase.links_lead_back_iff rfl host [] slashed).2.2.2
  have plain {s : String} (unseparated : (Octets.ofText s).any Percent.isSeparator = false)
      (percent : 37 ∉ Octets.ofText s) : Percent.Verbatim s :=
    ⟨fun b mem => by simpa using List.any_eq_false.mp unseparated b mem,
      fun ⟨_, _, _, _, within⟩ => percent (within.subset List.mem_cons_self)⟩
  constructor
  · refine ((leads _ List.mem_cons_self).2.2 _ List.mem_cons_self).mpr ?_
    exact ⟨plain (by decide) (by decide), plain (by decide) (by decide),
      plain (by decide) (by decide), by decide⟩
  · intro found
    have verbatim := ((leads _ (List.mem_cons_of_mem _ List.mem_cons_self)).1.mp found).2.1
    exact absurd (verbatim.unseparated 47 (by decide)) (by decide)

end Small

end DatasetFilters
