import DatasetFilters.Catalog.Client
import DatasetFilters.Proofs.Text.Cut
import DatasetFilters.Proofs.Text.Numeral
import DatasetFilters.Proofs.Text.Percent

namespace DatasetFilters

theorem Decimal.text_injective {m n : Nat} (h : text m = text n) : m = n := by
  have read (n : Nat) : ofChars (toChars (octets n)) = octets n :=
    ofChars_toChars fun _ => isDigit_of_mem_octets
  have same : octets m = octets n := by rw [← read m, ← read n, String.ofList_inj.mp h]
  rw [← value_octets m, same, value_octets]

namespace CatalogClient

/-- What the catalog can be asked for. -/
inductive Resource where
  | dataset (id : String)
  | version (d : DatasetRef)
  | dimensions (d : DatasetRef)
  | options (d : DatasetRef) (dimension : String)
  deriving DecidableEq

/-- Segments without those that are left out of an address. -/
def kept (segments : List String) : List String := segments.filter fun s => s != "." && s != ".."

/-- Segments as they stand in a path. -/
def written (segments : List String) : Octets := segments.flatMap fun s => 47 :: Percent.segment s

namespace Resource

def segments : Resource → List String
  | dataset id => datasetSegments id
  | version d => versionSegments d
  | dimensions d => dimensionsSegments d
  | options d dimension => optionsSegments d dimension

/-- The path at which a client asks for a resource. -/
def path (base : Base) (r : Resource) : Octets := base.path ++ written (kept r.segments)

/-- The resource is named by one of the segments that are left out. -/
def Dotted (r : Resource) : Prop := "." ∈ r.segments ∨ ".." ∈ r.segments

instance (r : Resource) : Decidable r.Dotted :=
  inferInstanceAs (Decidable ("." ∈ r.segments ∨ ".." ∈ r.segments))

theorem segments_injective {r r' : Resource} (h : r.segments = r'.segments) : r = r' := by
  have same {d d' : DatasetRef} (hid : d.id = d'.id) (hedition : d.edition = d'.edition)
      (hversion : Decimal.text d.version.toNat = Decimal.text d'.version.toNat) : d = d' := by
    obtain ⟨id, edition, version⟩ := d
    obtain ⟨id', edition', version'⟩ := d'
    rw [DatasetRef.mk.injEq]
    exact ⟨hid, hedition, UInt32.toNat_inj.mp (Decimal.text_injective hversion)⟩
  -- resources of different kinds have different numbers of segments
  cases r <;> cases r' <;>
    simp only [segments, datasetSegments, optionsSegments, dimensionsSegments, versionSegments,
      List.cons_append, List.nil_append, List.cons.injEq, reduceCtorEq, and_false, and_true,
      true_and] at h
  · rw [h]
  · rw [same h.1 h.2.1 h.2.2]
  · rw [same h.1 h.2.1 h.2.2]
  · rw [same h.1 h.2.1 h.2.2.1, h.2.2.2]

/-- Segments `.` and `..` are left out of a path, and no others. -/
theorem kept_eq_iff (r : Resource) : kept r.segments = r.segments ↔ ¬r.Dotted := by
  simp only [kept, List.filter_eq_self, Bool.and_eq_true, bne_iff_ne]
  constructor
  · rintro plain (dot | dots)
    · exact (plain _ dot).1 rfl
    · exact (plain _ dots).2 rfl
  · intro plain s hs
    constructor
    · rintro rfl
      exact plain (Or.inl hs)
    · rintro rfl
      exact plain (Or.inr hs)

end Resource

/-- Segments are written so that the path is cut at its slashes into just these. -/
theorem splitAt_written (segments : List String) :
    Text.splitAt 47 (written segments) = [] :: segments.map Percent.segment := by
  rw [Text.splitAt_eq_cons_iff, List.forall_mem_cons, List.forall_mem_map]
  refine ⟨?_, List.not_mem_nil, fun s _ => Percent.notMem_segment rfl s⟩
  rw [List.nil_append, List.flatMap_map, written]

/-- Segments that differ are written differently. -/
theorem written_injective {segments segments' : List String}
    (h : written segments = written segments') : segments = segments' := by
  have parts := (splitAt_written segments).symm.trans ((congrArg (Text.splitAt 47) h).trans
    (splitAt_written segments'))
  exact List.map_injective_iff.mpr (fun _ _ => Percent.segment_injective) (List.cons.inj parts).2

/-- A path that starts with a slash, if it is not empty, and ends before any query or fragment. -/
structure Plain (path : Octets) : Prop where
  head : ∀ b ∈ path.head?, b = 47
  fragment : (35 : UInt8) ∉ path
  query : (63 : UInt8) ∉ path

theorem Plain.of_leads {path path' : Octets} (h : Plain path) (leads : path' <+: path) :
    Plain path' where
  head b hb := by
    obtain ⟨rest, rfl⟩ := leads
    cases path' with
    | nil => cases hb
    | cons x xs => exact h.head b hb
  fragment mem := h.fragment (leads.subset mem)
  query mem := h.query (leads.subset mem)

theorem openPath_leads (path : Octets) : openPath path <+: path := by
  unfold openPath
  extract_lets opened
  have trimmed : opened <+: path := by
    unfold opened
    split
    · exact List.dropLast_prefix path
    · exact List.prefix_refl path
  split
  · exact List.nil_prefix
  · exact trimmed

theorem drop_length_takeWhile (p : α → Bool) (l : List α) :
    l.drop (l.takeWhile p).length = l.dropWhile p := by
  have whole := List.takeWhile_append_dropWhile (p := p) (l := l)
  have cut : (l.takeWhile p ++ l.dropWhile p).drop (l.takeWhile p).length = l.dropWhile p :=
    List.drop_left
  rwa [whole] at cut

/-- The text of an address from its host on up to the query. -/
theorem plain_ofText {cs : List Char} (fragment : '#' ∉ cs) : Plain (Octets.ofText (String.ofList
    ((cs.dropWhile fun c => c != '/' && c != '?').takeWhile (· != '?')))) := by
  generalize hq : (cs.dropWhile fun c => c != '/' && c != '?').takeWhile (· != '?') = q
  have within : q ⊆ cs := by
    rw [← hq]
    exact List.Subset.trans (List.takeWhile_sublist _).subset (List.dropWhile_sublist _).subset
  have query : '?' ∉ q := by
    intro mem
    rw [← hq] at mem
    exact absurd (List.mem_takeWhile_imp mem) (by decide)
  refine ⟨?_, fun mem => fragment (within (Octets.mem_of_mem_ofText (by decide) mem)),
    fun mem => query (Octets.mem_of_mem_ofText (by decide) mem)⟩
  intro b hb
  rw [Octets.ofText_ofList] at hb
  cases q with
  | nil => cases hb
  | cons c q =>
    -- the host ends at a slash or where the query starts
    have slash : c = '/' := by
      have stops := List.head?_dropWhile_not (fun c => c != '/' && c != '?') cs
      cases rest : cs.dropWhile fun c => c != '/' && c != '?' with
      | nil => simp [rest] at hq
      | cons x xs =>
        rw [rest] at hq stops
        have same : x = c := by
          rw [List.takeWhile_cons] at hq
          split at hq
          · exact (List.cons.inj hq).1
          · cases hq
        subst same
        have other : x ≠ '?' := fun h => query (h ▸ List.mem_cons_self)
        simpa [other] using stops
    subst slash
    exact (Option.some.inj hb).symm

/-- The parts of a base are those of what is behind the scheme of its address, up to the fragment. -/
theorem parts_of_base? {url : String} {base : Base} (located : base? url = some base) :
    ∃ rest : List Char, '#' ∉ rest ∧
      base.path = openPath (Octets.ofText (String.ofList
        ((rest.dropWhile fun c => c != '/' && c != '?').takeWhile (· != '?')))) ∧
      ∀ query ∈ base.query, ∃ cs, cs ⊆ rest ∧ query = Octets.ofText (String.ofList cs) := by
  unfold base? at located
  simp only at located
  split at located
  next rest address =>
    split at located
    · cases located
    · obtain rfl := Option.some.inj located
      refine ⟨rest, fun mem => ?_, by rw [drop_length_takeWhile], fun query written => ?_⟩
      · have within := (List.drop_sublist _ _).subset
          (address ▸ List.mem_cons_of_mem _ (List.mem_cons_of_mem _ (List.mem_cons_of_mem _ mem)))
        exact absurd (List.mem_takeWhile_imp within) (by decide)
      · rw [drop_length_takeWhile] at written
        split at written
        · cases written
        · next behind =>
          refine ⟨_, fun c mem => ?_, (Option.some.inj written).symm⟩
          have within := behind ▸ List.mem_cons_of_mem _ mem
          exact (List.dropWhile_sublist _).subset ((List.dropWhile_sublist _).subset within)
  next => cases located

/-- The path of a base ends before any query or fragment. -/
theorem plain_base {url : String} {base : Base} (located : base? url = some base) :
    Plain base.path := by
  obtain ⟨rest, fragment, path, -⟩ := parts_of_base? located
  rw [path]
  exact (plain_ofText fragment).of_leads (openPath_leads _)

/-- A path is that of a request, whatever query is put behind it. -/
theorem path_eq {request : Http.Request} {path query : Octets}
    (target : request.target = path ++ query) (plain : Plain path) (nonempty : path ≠ [])
    (behind : ∀ b ∈ query.head?, b = 63) : request.path = path := by
  have written : request.target.takeWhile (· != 35) = path ++ query.takeWhile (· != 35) := by
    have ordinary : ∀ b ∈ path, (b != 35) = true := fun b mem =>
      bne_iff_ne.mpr fun h => plain.fragment (h ▸ mem)
    rw [target, List.takeWhile_append_of_pos ordinary]
  have cut : (path ++ query.takeWhile (· != 35)).takeWhile (· != 63) = path := by
    have ordinary : ∀ b ∈ path, (b != 63) = true := fun b mem =>
      bne_iff_ne.mpr fun h => plain.query (h ▸ mem)
    rw [List.takeWhile_append_of_pos ordinary]
    cases query with
    | nil => simp
    | cons b query =>
      obtain rfl := behind b rfl
      simp
  cases path with
  | nil => exact absurd rfl nonempty
  | cons b path =>
    obtain rfl := plain.head b rfl
    rw [Http.Request.path, Http.Request.pathAndQuery, written]
    simp only [List.cons_append, List.head?_cons, if_true] at cut ⊢
    rw [cut]

theorem queryOver_head (base : Option Octets) (pairs : Octets) :
    ∀ b ∈ (queryOver base pairs).head?, b = 63 := by
  unfold queryOver
  split
  · split <;> simp
  · simp

theorem plain_written (segments : List String) : Plain (written segments) where
  head b hb := by
    cases segments with
    | nil => cases hb
    | cons s segments => exact (Option.some.inj hb).symm
  fragment mem := by
    obtain ⟨s, -, mem⟩ := List.mem_flatMap.mp mem
    rcases List.mem_cons.mp mem with h | h
    · cases h
    · exact Percent.notMem_segment rfl s h
  query mem := by
    obtain ⟨s, -, mem⟩ := List.mem_flatMap.mp mem
    rcases List.mem_cons.mp mem with h | h
    · cases h
    · exact Percent.notMem_segment rfl s h

theorem Plain.append {path path' : Octets} (h : Plain path) (h' : Plain path') : Plain (path ++ path') where
  head b hb := by
    cases path with
    | nil => exact h'.head b hb
    | cons x xs => exact h.head b hb
  fragment mem := (List.mem_append.mp mem).elim h.fragment h'.fragment
  query mem := (List.mem_append.mp mem).elim h.query h'.query

section

variable {c : CatalogClient} {base : Base}

/-- The path of a resource ends before any query or fragment, whatever its names are. -/
theorem plain_path (located : base? c.baseUrl = some base) (r : Resource) : Plain (r.path base) :=
  (plain_base located).append (plain_written _)

theorem path_ne_nil (base : Base) (r : Resource) : r.path base ≠ [] := by
  -- the first segment is the name of a collection
  have first : ∃ segments, kept r.segments = "datasets" :: segments := by
    cases r <;> exact ⟨_, rfl⟩
  obtain ⟨segments, first⟩ := first
  rw [Resource.path, first]
  exact List.append_ne_nil_of_right_ne_nil _ (List.cons_ne_nil _ _)

/-- What is asked about a resource is asked of the host of the base, at the path of the resource. -/
theorem request_eq (located : base? c.baseUrl = some base) (r : Resource) (query : Octets) :
    ∃ request, c.request r.segments query = .ok (base.host, request) ∧ request.method = "GET" ∧
      request.path = r.path base := by
  rw [request, located]
  exact ⟨_, rfl, rfl, path_eq rfl (plain_path located r) (path_ne_nil base r) (queryOver_head _ _)⟩

/-- A client has the same answers about a resource over two networks. -/
def SameAnswers (c : CatalogClient) (net net' : Http.Network) : Resource → Prop
  | .dataset id => c.dataset net id = c.dataset net' id
  | .version d => ∀ authenticated, c.version net d authenticated = c.version net' d authenticated
  | .dimensions d => c.dimensions net d = c.dimensions net' d
  | .options d dimension => ∀ ids, c.options net d dimension ids = c.options net' d dimension ids

/-- A client asks for nothing but the resource: its answers depend on nothing else. -/
theorem sameAnswers (located : base? c.baseUrl = some base) {r : Resource} {net net' : Http.Network}
    (same : ∀ request, request.path = r.path base → net base.host request = net' base.host request) :
    c.SameAnswers net net' r := by
  have fetched {α : Type} (query : Octets) (missing : CatalogError) (read : Json → Option α) :
      c.fetch net r.segments query missing read = c.fetch net' r.segments query missing read := by
    obtain ⟨request, asked, -, path⟩ := request_eq located r query
    simp only [fetch, asked, bind, Except.bind, same request path]
  cases r with
  | dataset id => exact fetched _ _ _
  | version d => exact fun _ => congrArg (· >>= _) (fetched _ _ _)
  | dimensions d => exact fetched _ _ _
  | options d dimension =>
    intro ids
    rw [options, options]
    split
    · rfl
    · exact fetched _ _ _

/-- The addresses at which a client of a base with a host asks for resources. Each is the path of the base
with the segments of the resource behind it, unless the resource is named by a segment that is left out. -/
theorem addresses (located : base? c.baseUrl = some base) :
    (∀ (r : Resource) (query : Octets), ∃ request,
      c.request r.segments query = .ok (base.host, request) ∧ request.method = "GET" ∧
      request.path = r.path base) ∧
    (∀ (r : Resource) (net net' : Http.Network), (∀ request, request.path = r.path base →
      net base.host request = net' base.host request) → c.SameAnswers net net' r) ∧
    (∀ r : Resource,
      Text.splitAt 47 (written (kept r.segments)) = [] :: (kept r.segments).map Percent.segment ∧
      (kept r.segments = r.segments ↔ ¬r.Dotted)) ∧
    (∀ r r' : Resource, r.path base = r'.path base ↔ kept r.segments = kept r'.segments) ∧
    ∀ r r' : Resource, ¬r.Dotted → ¬r'.Dotted → r ≠ r' → r.path base ≠ r'.path base := by
  have paths (r r' : Resource) : r.path base = r'.path base ↔ kept r.segments = kept r'.segments :=
    ⟨fun h => written_injective (List.append_cancel_left h),
      fun h => by rw [Resource.path, Resource.path, h]⟩
  refine ⟨request_eq located, fun r net net' => sameAnswers located,
    fun r => ⟨splitAt_written _, r.kept_eq_iff⟩, paths, ?_⟩
  intro r r' plain plain' other same
  have segments := (paths r r').mp same
  rw [r.kept_eq_iff.mpr plain, r'.kept_eq_iff.mpr plain'] at segments
  exact other (Resource.segments_injective segments)

end

end CatalogClient

namespace Small

/-- A catalog behind a prefix. -/
def remote : CatalogClient := .create "http://catalog:22000/v1/" none

def remoteBase : CatalogClient.Base := ⟨"http://catalog:22000", Octets.ofText "/v1", none⟩

theorem remote_located : CatalogClient.base? remote.baseUrl = some remoteBase := by
  decide +kernel

/-- The datasets `.` and `..` are asked for at the address of all datasets, and so are confused; slashes and
percent signs confuse nothing. -/
theorem dots_confused :
    (CatalogClient.Resource.dataset ".").path remoteBase =
      (CatalogClient.Resource.dataset "..").path remoteBase ∧
    (∃ request, remote.request (CatalogClient.Resource.dataset ".").segments [] =
      .ok (remoteBase.host, request) ∧ request.path = Octets.ofText "/v1/datasets") ∧
    (CatalogClient.Resource.dataset "a/b").path remoteBase ≠
      (CatalogClient.Resource.dataset "a%2Fb").path remoteBase := by
  obtain ⟨asked, -, -, paths, apart⟩ := CatalogClient.addresses remote_located
  refine ⟨(paths _ _).mpr (by decide), ?_, apart _ _ (by decide) (by decide) (by decide)⟩
  obtain ⟨request, sent, -, path⟩ := asked (.dataset ".") []
  exact ⟨request, sent, path.trans (by decide)⟩

end Small

end DatasetFilters
