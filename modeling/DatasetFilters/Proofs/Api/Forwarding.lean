import DatasetFilters.Api.Server
import DatasetFilters.Proofs.Api.Route
import DatasetFilters.Proofs.Service.Alone
import DatasetFilters.Proofs.Store.Outputs

namespace DatasetFilters

/-- An array of more than one item. -/
def Json.isCrowded : Json → Bool
  | .array items => 1 < items.length
  | _ => false

namespace JsonRecord

variable {name : String} {more : List String} {j : Json} {r : JsonRecord} {α β : Type}

theorem lookup_known {names : List String} (known : name ∈ names) (members : List (String × β)) :
    (members.filter fun m => names.contains m.1).lookup name = members.lookup name := by
  induction members with
  | nil => rfl
  | cons m members ih =>
    cases hm : names.contains m.1 with
    | true =>
      rw [List.filter_cons_of_pos (by simpa using hm), Table.lookup_cons, Table.lookup_cons, ih]
    | false =>
      have other : name ≠ m.1 := by
        rintro rfl
        simp [known] at hm
      rw [List.filter_cons_of_neg (by simpa using hm), Table.lookup_cons, if_neg other, ih]

/-- An array is read by position, so it may not have more items than the members that are read. -/
theorem required_first_of_array {items : List Json} (h : of? (name :: more) (.array items) = some r)
    (read : Json → Option α) :
    ((of? [name] (.array items)).bind fun r => r.required name read) =
      if 1 < items.length then none else r.required name read := by
  simp only [of?] at h
  split at h
  case isFalse => cases h
  obtain rfl := Option.some.inj h
  cases items with
  | nil => rfl
  | cons item others =>
    cases others with
    | nil => simp [of?, required, find?]
    | cons => simp [of?]

theorem required_first_of_object {members : List (Option String × Json)}
    (h : of? (name :: more) (.object members) = some r) (read : Json → Option α) :
    ((of? [name] (.object members)).bind fun r => r.required name read) = r.required name read := by
  simp only [of?, bind, Option.bind_eq_some_iff] at h
  obtain ⟨members', unnamed, h⟩ := h
  split at h
  case isFalse => cases h
  next distinct =>
  obtain rfl := Option.some.inj h
  have fewer : (members'.filter fun m => [name].contains m.1).Sublist
      (members'.filter fun m => (name :: more).contains m.1) := by
    refine List.monotone_filter_right members' fun m hm => ?_
    obtain rfl : m.1 = name := by simpa using hm
    simp
  have distinct' := (fewer.map (·.1)).nodup distinct
  simp only [of?, bind, unnamed, Option.bind_some, if_pos distinct', required, find?]
  rw [lookup_known (List.mem_singleton_self name), lookup_known List.mem_cons_self]

/-- A record of which the first member only is wanted. It is found alike, unless the record is an
array with more items than that. -/
theorem required_first (h : of? (name :: more) j = some r) (read : Json → Option α) :
    ((of? [name] j).bind fun r => r.required name read) =
      if j.isCrowded then none else r.required name read := by
  cases j with
  | array items => simpa [Json.isCrowded] using required_first_of_array h read
  | object members => exact required_first_of_object h read
  | _ => cases h

end JsonRecord

/-- Whether a new blueprint is written, itself or the dataset in it, as an array of several members. -/
def NewBlueprint.isListed (j : Json) : Bool :=
  j.isCrowded ||
    ((JsonRecord.of? ["dataset", "dimensions", "type"] j).bind (·.find? "dataset")).any Json.isCrowded

namespace Forwarding

/-- A body that the handler reads is read alike in advance, if it is not listed. -/
theorem datasetId?_eq {body : Octets} {j : Json} {new : NewBlueprint}
    (parsed : Json.parse? body = some j) (read : NewBlueprint.ofJson? j = some new) :
    datasetId? body = if NewBlueprint.isListed j then none else some new.dataset.id := by
  simp only [NewBlueprint.ofJson?, bind, Option.bind_eq_some_iff] at read
  obtain ⟨r, record, dataset, member, _, -, _, -, made⟩ := read
  obtain rfl := Option.some.inj made
  obtain ⟨d, found, inner⟩ := Option.bind_eq_some_iff.mp member
  simp only [DatasetRef.ofJson?, bind, Option.bind_eq_some_iff] at inner
  obtain ⟨r', record', id, idMember, _, -, _, -, made⟩ := inner
  obtain rfl := Option.some.inj made
  simp only [datasetId?, bind, parsed, Option.bind_some]
  rw [JsonRecord.required_first record]
  simp only [NewBlueprint.isListed, record, Option.bind_some, found, Option.any_some,
    JsonRecord.required]
  cases j.isCrowded with
  | true => rfl
  | false =>
    have inside := JsonRecord.required_first record' Json.asText?
    rw [idMember] at inside
    simpa [JsonRecord.required] using inside

end Forwarding

namespace Store

/-- Whether a document of the type for flexible tables is stored under a key. -/
def holdsFlexible (s : Store) : Collection → String → Bool
  | .filters, key => (s.filter? key).any Blueprint.isFlexible
  | .outputs, key => (s.output? key).any Output.isFlexible

theorem getFilter_any (s : Store) (id : String) :
    s.getFilter id .any =
      (match s.backend.failure? .get .filters with
        | some e => .error e
        | none => readFilter id (s.backend.find? .filters id), s.touched) := by
  rw [getFilter, Backend.get]
  cases s.backend.failure? .get .filters with
  | some e => rfl
  | none =>
    have accepted : selectFilter id .any (s.backend.find? .filters id) =
        readFilter id (s.backend.find? .filters id) := by
      rw [selectFilter]
      cases readFilter id (s.backend.find? .filters id) <;> rfl
    exact Prod.ext accepted rfl

theorem getOutput_eq (s : Store) (id : String) :
    s.getOutput id =
      (match s.backend.failure? .get .outputs with
        | some e => .error e
        | none => readOutput id (s.backend.find? .outputs id), s.touched) := by
  rw [getOutput, Backend.get]
  cases s.backend.failure? .get .outputs <;> rfl

end Store

namespace Forwarding

variable {σ ε δ α : Type} {answer : (q : Query) → World → σ → q.Reply × World × σ} {t t' : σ}
  {w w' : World}

/-- What is found out about a request: a failure counts as no. -/
def affirmed (p : α → Bool) : Except δ α → Bool
  | .ok a => p a
  | .error _ => false

theorem affirmed_iff {p : α → Bool} {found : Except δ α} :
    affirmed p found = true ↔ ∃ a, found = .ok a ∧ p a = true := by
  cases found <;> simp [affirmed]

/-- The look at a blueprint finds a flexible one just if the store answers and the document is
there. -/
theorem affirmed_getFilter (s : Store) (id : String) :
    affirmed Blueprint.isFlexible (s.getFilter id .any).1 = true ↔
      s.backend.failure? .get .filters = none ∧ s.holdsFlexible .filters id = true := by
  rw [Store.getFilter_any, Store.holdsFlexible, Store.filter?]
  cases s.backend.failure? .get .filters with
  | some e => simp [affirmed]
  | none =>
    cases s.backend.find? .filters id with
    | none => simp [affirmed, Store.readFilter]
    | some text => cases h : Blueprint.decode? text <;> simp [affirmed, Store.readFilter, h]

/-- The look at an output finds a flexible one just if the store answers and the document is
there. -/
theorem affirmed_getOutput (s : Store) (id : String) :
    affirmed Output.isFlexible (s.getOutput id).1 = true ↔
      s.backend.failure? .get .outputs = none ∧ s.holdsFlexible .outputs id = true := by
  rw [Store.getOutput_eq, Store.holdsFlexible, Store.output?]
  cases s.backend.failure? .get .outputs with
  | some e => simp [affirmed]
  | none =>
    cases s.backend.find? .outputs id with
    | none => simp [affirmed, Store.readOutput]
    | some text => cases h : Output.decode? text <;> simp [affirmed, Store.readOutput, h]

/-- The look into the store for either kind of document. -/
def isFlexibleDocument : Collection → String → Request ε Bool
  | .filters, id => isFlexibleFilter id
  | .outputs, id => isFlexibleOutput id

variable (answer t w) in
/-- The look into the store for a document takes one access and changes nothing else. -/
theorem run_isFlexibleDocument (c : Collection) (id : String) : ∃ flag,
    ((isFlexibleDocument c id : Request ε Bool) w).run answer t =
      (.ok flag, { w with store := w.store.touched }, t) ∧
    (flag = true ↔ w.store.backend.failure? .get c = none ∧ w.store.holdsFlexible c id = true) := by
  cases c with
  | filters =>
    have asked := Request.run_access (ε := ε) (w := w) answer t fun s => s.getFilter id .any
    rw [show (w.store.getFilter id .any).2 = w.store.touched by rw [Store.getFilter_any]] at asked
    refine ⟨_, ?_, affirmed_getFilter w.store id⟩
    rw [isFlexibleDocument, isFlexibleFilter, Request.run_bind asked]
    cases (w.store.getFilter id .any).1 <;> rfl
  | outputs =>
    have asked := Request.run_access (ε := ε) (w := w) answer t fun s => s.getOutput id
    rw [show (w.store.getOutput id).2 = w.store.touched by rw [Store.getOutput_eq]] at asked
    refine ⟨_, ?_, affirmed_getOutput w.store id⟩
    rw [isFlexibleDocument, isFlexibleOutput, Request.run_bind asked]
    cases (w.store.getOutput id).1 <;> rfl

variable (answer t w) in
/-- The look at a dataset asks the catalog once; a failure counts as no. -/
theorem run_isFlexibleDataset (id : String) :
    ((isFlexibleDataset id : Request ε Bool) w).run answer t =
      (.ok (affirmed Dataset.isFlexible (answer (.dataset id) w t).1),
        (answer (.dataset id) w t).2) := by
  refine (Request.run_bind (Request.run_ask (.dataset id)) _).trans ?_
  rcases answer (.dataset id) w t with ⟨reply, w', t'⟩
  cases reply <;> rfl

variable {c : Config} {r : Http.Request}

/-- Below a collection a request is judged by the id in its path, as it was sent. -/
theorem concerns_document {path : Octets} (method : String) (body : Octets) {col : Collection}
    {raw : Octets} {rest : List Octets} (h : pieces path = Octets.ofText col.segment :: raw :: rest) :
    (concerns method path body : Request ε Bool) =
      match Octets.text? raw with
      | none => pure false
      | some id => isFlexibleDocument col id := by
  have other : (Octets.ofText "filter-outputs" == Octets.ofText "filters") = false := by decide
  rw [concerns, h]
  dsimp only
  cases Octets.text? raw with
  | none => rfl
  | some id =>
    cases col with
    | filters => simp only [Collection.segment, BEq.rfl, if_true, isFlexibleDocument]
    | outputs =>
      simp only [Collection.segment, other, BEq.rfl, if_true, Bool.false_eq_true, if_false,
        isFlexibleDocument]

theorem concerns_new {path : Octets} (body : Octets)
    (h : pieces path = [Octets.ofText Collection.filters.segment]) :
    (concerns "POST" path body : Request ε Bool) =
      match datasetId? body with
      | some id => isFlexibleDataset id
      | none => pure false := by
  rw [concerns, h]
  exact if_pos (by decide)

variable (answer t w) in
theorem run_concerns_document {path : Octets} (method : String) (body : Octets) {col : Collection}
    {raw : Octets} {rest : List Octets} (h : pieces path = Octets.ofText col.segment :: raw :: rest) :
    ∃ flag w' t', ((concerns method path body : Request ε Bool) w).run answer t = (.ok flag, w', t') ∧
      (flag = true ↔ w.store.backend.failure? .get col = none ∧
        ∃ key, Octets.text? raw = some key ∧ w.store.holdsFlexible col key = true) := by
  rw [concerns_document method body h]
  cases Octets.text? raw with
  | none => exact ⟨false, w, t, rfl, by simp⟩
  | some id =>
    obtain ⟨flag, ran, decided⟩ := run_isFlexibleDocument answer t w col id
    exact ⟨flag, _, t, ran, by simp [decided]⟩

variable (answer t w) in
theorem run_concerns_new {path : Octets} (body : Octets)
    (h : pieces path = [Octets.ofText Collection.filters.segment]) :
    ∃ flag w' t', ((concerns "POST" path body : Request ε Bool) w).run answer t = (.ok flag, w', t') ∧
      (flag = true ↔ ∃ id, datasetId? body = some id ∧
        ∃ d : Dataset, (answer (.dataset id) w t).1 = .ok d ∧ d.isFlexible = true) := by
  rw [concerns_new body h]
  cases datasetId? body with
  | none => exact ⟨false, w, t, rfl, by simp⟩
  | some id =>
    refine ⟨_, _, _, run_isFlexibleDataset answer t w id, ?_⟩
    refine affirmed_iff.trans ?_
    simp only [Option.some.injEq, exists_eq_left']
    exact Iff.rfl

/-- A request is passed on, and what would be answered here plays no part. -/
def PassesOn (c : Config) (r : Http.Request) (answer : (q : Query) → World → σ → q.Reply × World × σ)
    (w : World) (t : σ) : Prop :=
  ∃ w' t', ∀ here, ((around c r here) w).run answer t = ((pass c r) w').run answer t'

/-- A request is answered here. -/
def AnsweredHere (c : Config) (r : Http.Request)
    (answer : (q : Query) → World → σ → q.Reply × World × σ) (w : World) (t : σ) : Prop :=
  ∃ w' t', ∀ here, ((around c r here) w).run answer t = (here w').run answer t'

/-- No one run is that of every request. -/
theorem not_all_run_to {x : Except Refusal Http.Response × World × σ}
    (h : ∀ here : Request Refusal Http.Response, (here w).run answer t = x) : False := by
  have answered := h (pure { status := 200 })
  have refused := h (Request.fail .bodyTooLarge)
  cases answered.trans refused.symm

/-- What is found out about a request decides who answers it. -/
theorem run_around (on : c.forwardFlexible = true) (fits : r.body.length ≤ c.maxBodySize) {flag : Bool}
    (found : ((concerns r.method r.path r.body : Request Refusal Bool) w).run answer t =
      (.ok flag, w', t')) (here : Request Refusal Http.Response) :
    ((around c r here) w).run answer t = ((if flag then pass c r else here) w').run answer t' := by
  have reads : around c r here = (do if ← concerns r.method r.path r.body then pass c r else here) := by
    rw [around, on, if_neg (by decide), if_neg (Nat.not_lt.mpr fits)]
  rw [reads, Request.run_bind found]

/-- A request is either passed on or answered here. -/
theorem becomes_iff (on : c.forwardFlexible = true) (fits : r.body.length ≤ c.maxBodySize) {flag : Bool}
    (found : ((concerns r.method r.path r.body : Request Refusal Bool) w).run answer t =
      (.ok flag, w', t')) :
    (PassesOn c r answer w t ↔ flag = true) ∧ (AnsweredHere c r answer w t ↔ flag = false) := by
  have runs := run_around on fits found
  cases flag with
  | true =>
    refine ⟨iff_of_true ⟨w', t', runs⟩ rfl, iff_of_false ?_ (by decide)⟩
    rintro ⟨w'', t'', here⟩
    exact not_all_run_to fun answered => (here answered).symm.trans (runs answered)
  | false =>
    refine ⟨iff_of_false ?_ (by decide), iff_of_true ⟨w', t', runs⟩ rfl⟩
    rintro ⟨w'', t'', passed⟩
    exact not_all_run_to fun answered => (runs answered).symm.trans (passed answered)

/-- A request that the server takes to one of the handlers of blueprints and outputs. -/
structure Reaches (c : Config) (r : Http.Request) (route : Route Octets) (decoded : Route String)
    (m : Method) : Prop where
  routed : Route.ofPath? c.metrics r.path = some route
  api : route.isApi = true
  named : Method.ofName? r.method = some m
  served : m ∈ route.methods
  decodes : route.decode = .ok decoded

namespace Reaches

variable {route : Route Octets} {decoded : Route String} {m : Method}

theorem dispatch_eq (h : Reaches c r route decoded m) :
    Api.dispatch c r =
      around c r (Call.answer ⟨c, Identity.caller c r.headers, r⟩ decoded m) := by
  have onRoute : Api.onRoute c r route =
      Call.answer ⟨c, Identity.caller c r.headers, r⟩ decoded m := by
    simp only [Api.onRoute, h.named, h.decodes, List.contains_iff_mem.mpr h.served, if_true]
  simp only [Api.dispatch, h.routed, h.api, if_true, onRoute]

theorem method_eq (h : Reaches c r .filters decoded m) : r.method = "POST" := by
  obtain rfl := List.mem_singleton.mp h.served
  have named := h.named
  simp only [Method.ofName?, Method.names, Table.lookup_cons] at named
  repeat' split at named
  all_goals first | assumption | cases named

/-- A request is passed on or answered here. Over a document, the stored document of the undecoded piece
of its path decides; over a new blueprint, what the catalog tells of the dataset. -/
theorem passesOn_iff (h : Reaches c r route decoded m) (on : c.forwardFlexible = true)
    (fits : r.body.length ≤ c.maxBodySize)
    (answer : (q : Query) → World → σ → q.Reply × World × σ) (w : World) (t : σ) :
    (AnsweredHere c r answer w t ↔ ¬ PassesOn c r answer w t) ∧
    (∀ col raw, route.document? = some (col, raw) →
      (PassesOn c r answer w t ↔ w.store.backend.failure? .get col = none ∧
        ∃ key, Octets.text? raw = some key ∧ w.store.holdsFlexible col key = true)) ∧
    (route = .filters → (PassesOn c r answer w t ↔ ∃ id, datasetId? r.body = some id ∧
        ∃ d : Dataset, (answer (.dataset id) w t).1 = .ok d ∧ d.isFlexible = true)) := by
  rcases Route.pieces_of_ofPath? h.routed h.api with ⟨rfl, pieces⟩ | ⟨col, raw, rest, about, pieces⟩
  · obtain ⟨flag, w', t', found, decided⟩ := run_concerns_new (ε := Refusal) answer t w r.body pieces
    rw [← h.method_eq] at found
    obtain ⟨passed, here⟩ := becomes_iff on fits found
    refine ⟨?_, nofun, fun _ => passed.trans decided⟩
    rw [passed, here, Bool.not_eq_true]
  · obtain ⟨flag, w', t', found, decided⟩ :=
      run_concerns_document (ε := Refusal) answer t w r.method r.body pieces
    obtain ⟨passed, here⟩ := becomes_iff on fits found
    refine ⟨?_, ?_, ?_⟩
    · rw [passed, here, Bool.not_eq_true]
    · intro col' raw' about'
      obtain ⟨rfl, rfl⟩ := Prod.mk.inj (Option.some.inj (about.symm.trans about'))
      exact passed.trans decided
    · rintro rfl
      cases about

end Reaches

/-- Which requests are passed on. One about a stored document is, if the key that stands in its path,
not decoded, is that of a document for flexible tables, and if the look at it does not fail; a handler
goes by the decoded one. One for a new blueprint is, if the catalog tells that its dataset is for
flexible tables, and if neither the blueprint nor the dataset in it is written as an array of several
members, which the handler reads all the same. All other requests are answered here. -/
theorem passed_on_exactly {route : Route Octets} {decoded : Route String} {m : Method}
    (reaches : Reaches c r route decoded m) (on : c.forwardFlexible = true)
    (fits : r.body.length ≤ c.maxBodySize)
    (answer : (q : Query) → World → σ → q.Reply × World × σ) (w : World) (t : σ) :
    Api.dispatch c r = around c r (Call.answer ⟨c, Identity.caller c r.headers, r⟩ decoded m) ∧
    (AnsweredHere c r answer w t ↔ ¬ PassesOn c r answer w t) ∧
    (∀ col id, decoded.document? = some (col, id) → ∃ raw, route.document? = some (col, raw) ∧
      Octets.text? (Percent.decode raw) = some id ∧
      (PassesOn c r answer w t ↔ w.store.backend.failure? .get col = none ∧
        ∃ key, Octets.text? raw = some key ∧ w.store.holdsFlexible col key = true) ∧
      (Percent.decode raw = raw → (PassesOn c r answer w t ↔
        w.store.backend.failure? .get col = none ∧ w.store.holdsFlexible col id = true))) ∧
    (route = .filters → ∀ j new, Json.parse? r.body = some j → NewBlueprint.ofJson? j = some new →
      (PassesOn c r answer w t ↔ NewBlueprint.isListed j = false ∧
        ∃ d : Dataset, (answer (.dataset new.dataset.id) w t).1 = .ok d ∧ d.isFlexible = true)) := by
  obtain ⟨other, documents, news⟩ := reaches.passesOn_iff on fits answer w t
  refine ⟨reaches.dispatch_eq, other, ?_, ?_⟩
  · intro col id about
    obtain ⟨raw, sent, read⟩ := Route.document?_of_decode reaches.decodes about
    refine ⟨raw, sent, read, documents col raw sent, fun plain => ?_⟩
    rw [plain] at read
    simp only [documents col raw sent, read, Option.some.injEq, exists_eq_left']
  · intro new j blueprint parsed accepted
    rw [news new, datasetId?_eq parsed accepted]
    cases NewBlueprint.isListed j with
    | true => simp
    | false =>
      simp only [Bool.false_eq_true, if_false, Option.some.injEq, exists_eq_left', true_and]

end Forwarding

namespace Small.Forwarded

open Forwarding

/-- A blueprint over a flexible table. -/
def table : Blueprint where
  id := "f"
  instanceId := ""
  dataset := ⟨"d", "2017", 3⟩
  dimensions := []
  events := []
  state := .created
  published := none
  kind := flexibleType
  outputId := none
  etag := ""
  stamp := 0
  lastUpdated := .epoch

def world : World where
  store := { backend := { filters := [("f", table.encode)] } }
  channel := .create "" 0 0
  ids := fun _ => ""
  clock := fun _ => .epoch

/-- All datasets are for flexible tables. -/
def catalog : (q : Query) → World → Unit → q.Reply × World × Unit
  | .dataset id, w, _ => (.ok ⟨id, flexibleDatasetType, ""⟩, w, ())
  | .version d _, w, _ => (.error (.versionNotFound d.name), w, ())
  | .dimensions d, w, _ => (.error (.versionNotFound d.name), w, ())
  | .options d _ _, w, _ => (.error (.versionNotFound d.name), w, ())
  | .forward _ _, w, _ => (.error "", w, ())

def config : Config := { forwardFlexible := true }

def get (path : String) : Http.Request := { method := "GET", target := Octets.ofText path }

def post (body : String) : Http.Request where
  method := "POST"
  target := Octets.ofText "/filters"
  body := Octets.ofText body

theorem reaches_get (path : String) (raw : Octets)
    (routed : Route.ofPath? true (get path).path = some (.filter raw))
    (decoded : Percent.decode raw = Octets.ofText "f") :
    Reaches config (get path) (.filter raw) (.filter "f") .get where
  routed := routed
  api := rfl
  named := rfl
  served := List.mem_cons_self
  decodes := by
    simp only [Route.decode, Route.parameter, decoded, Octets.text?_ofText]
    rfl

theorem reaches_post (body : String) : Reaches config (post body) .filters .filters .post where
  routed := rfl
  api := rfl
  named := rfl
  served := List.mem_cons_self
  decodes := rfl

/-- The dataset is written as an object, or as an array of its members. -/
def named : String :=
  "\x7b\"dataset\":\x7b\"id\":\"d\",\"edition\":\"2017\",\"version\":3\x7d\x7d"

def listed : String := "\x7b\"dataset\":[\"d\",\"2017\",3]\x7d"

def new : NewBlueprint := ⟨⟨"d", "2017", 3⟩, [], ""⟩

/-- The same blueprint is asked for, once with its id encoded; and the same blueprint is asked to be
made, once with its dataset as an array. Only the plain spellings are passed on. -/
theorem passed_on_as_spelled :
    PassesOn config (get "/filters/f") catalog world () ∧
    AnsweredHere config (get "/filters/%66") catalog world () ∧
    PassesOn config (post named) catalog world () ∧
    AnsweredHere config (post listed) catalog world () := by
  have plain : Percent.decode [102] = [102] := by simp [Percent.decode]
  have encoded : Percent.decode [37, 54, 54] = [102] := by
    simp [Percent.decode, Octets.hexValue?]
  have stored : world.store.filter? "f" = some table := by
    rw [Store.filter?, Backend.find?, Backend.documents, world, List.lookup_cons_self, Option.bind_some,
      Blueprint.decode?_encode]
  have about : (Route.filter "f").document? = some (.filters, "f") := rfl
  refine ⟨?_, ?_, ?_, ?_⟩
  · obtain ⟨-, -, documents, -⟩ := passed_on_exactly
      (reaches_get "/filters/f" [102] (by decide) plain) rfl (by decide) catalog world ()
    obtain ⟨raw, sent, -, -, decides⟩ := documents _ _ about
    obtain ⟨-, rfl⟩ := Prod.mk.inj (Option.some.inj sent)
    refine (decides plain).mpr ⟨rfl, ?_⟩
    rw [Store.holdsFlexible, stored]
    rfl
  · obtain ⟨-, here, documents, -⟩ := passed_on_exactly
      (reaches_get "/filters/%66" [37, 54, 54] (by decide) encoded) rfl (by decide) catalog world ()
    obtain ⟨raw, sent, -, decides, -⟩ := documents _ _ about
    obtain ⟨-, rfl⟩ := Prod.mk.inj (Option.some.inj sent)
    rw [here, decides]
    rintro ⟨-, key, read, found⟩
    obtain rfl : "%66" = key := Option.some.inj ((Octets.text?_ofText "%66").symm.trans read)
    cases found
  · obtain ⟨-, -, -, news⟩ := passed_on_exactly (reaches_post named) rfl (by decide) catalog world ()
    refine (news rfl _ new rfl rfl).mpr ⟨rfl, _, rfl, rfl⟩
  · obtain ⟨-, here, -, news⟩ := passed_on_exactly (reaches_post listed) rfl (by decide) catalog world ()
    rw [here, news rfl _ new rfl rfl]
    rintro ⟨plain, -⟩
    cases plain

end Small.Forwarded
end DatasetFilters
