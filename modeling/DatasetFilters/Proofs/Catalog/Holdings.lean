import DatasetFilters.Proofs.Catalog.Lookup
import DatasetFilters.Proofs.Dimension
import DatasetFilters.Proofs.Service.Deed

namespace DatasetFilters

/-- What a catalog holds for good: the instance of a dataset version, and the options of a dimension
that a version declares. -/
structure Holdings where
  instance? : DatasetRef → Option String
  options? : DatasetRef → String → Option (List String)

namespace Holdings

variable (h : Holdings)

def Offers (dataset : DatasetRef) (name id : String) : Prop :=
  ∃ options, h.options? dataset name = some options ∧ id ∈ options

def Confirms (dataset : DatasetRef) (name : String) (_ : List String)
    (reply : CatalogReply (List String)) : Prop :=
  ∀ found, reply = .ok found → ∀ id ∈ found, h.Offers dataset name id

/-- What a catalog with these holdings may answer. Any question may fail, batches of ids may be
answered in any order, and what it says about publication may change. -/
def Answers : (q : Query) → q.Reply → Prop
  | .version dataset _, reply => ∀ v, reply = .ok v → h.instance? dataset = some v.instanceId
  | .dimensions dataset, reply =>
    ∀ ds, reply = .ok ds → ∀ name ∈ ds.map (·.name), (h.options? dataset name).isSome
  | .options dataset name lookup, reply => ∀ confirmed, reply = .ok confirmed → ∃ l,
    lookup.Runs (h.Confirms dataset name) l ∧ l.isDone = true ∧ l.outcome = .ok confirmed
  | .dataset _, _ => True
  | .forward _ _, _ => True

/-- A selection of options that the catalog holds. Empty ids stand for nothing. -/
def Selects (dataset : DatasetRef) (name : String) (ids : List String) : Prop :=
  ∃ options, h.options? dataset name = some options ∧ ∀ id ∈ ids, id ≠ "" → id ∈ options

structure Grounds (b : Blueprint) : Prop where
  dimensions : ∀ d ∈ b.dimensions, h.Selects b.dataset d.name d.options
  instanceId : h.instance? b.dataset = some b.instanceId

variable {h}

theorem Selects.subset {dataset : DatasetRef} {name : String} {ids ids' : List String}
    (hs : h.Selects dataset name ids) (hids : ∀ id ∈ ids', id ∈ ids) :
    h.Selects dataset name ids' := by
  obtain ⟨options, hoptions, hall⟩ := hs
  exact ⟨options, hoptions, fun id hid => hall id (hids id hid)⟩

/-- Selections of one dimension that the catalog holds are held together. -/
theorem Selects.union {dataset : DatasetRef} {name : String} {ids ids' ids'' : List String}
    (hs : h.Selects dataset name ids) (hs' : h.Selects dataset name ids')
    (hids : ∀ id ∈ ids'', id ∈ ids ∨ id ∈ ids') : h.Selects dataset name ids'' := by
  obtain ⟨options, hoptions, hall⟩ := hs
  obtain ⟨options', hoptions', hall'⟩ := hs'
  rw [hoptions, Option.some.injEq] at hoptions'
  subst hoptions'
  refine ⟨options, hoptions, ?_⟩
  intro id hid hne
  rcases hids id hid with hid | hid
  · exact hall id hid hne
  · exact hall' id hid hne

end Holdings

variable {h : Holdings} {settings : Settings} {me : Client} {past : List Moment}

/-- What was heard at any moment still holds, since the holdings stay as they are. -/
theorem Client.Heard.holds {q : Query} {r : q.Reply} (hr : me.Heard (fun _ => h.Answers) past q r) :
    h.Answers q r := by
  obtain ⟨-, -, -, -, -, -, -, hanswer⟩ := hr
  exact hanswer

/-- What was confirmed for a dimension is a selection that the catalog holds. -/
theorem Confirmed.selects {dataset : DatasetRef} {name : String} {ids : List String}
    (hc : Confirmed settings (fun _ => h.Answers) me past dataset name ids) :
    h.Selects dataset name ids := by
  obtain ⟨dimensions, heard, hname⟩ := hc.declared
  obtain ⟨options, hoptions⟩ := Option.isSome_iff_exists.mp (heard.holds dimensions rfl name hname)
  refine ⟨options, hoptions, ?_⟩
  intro id hid hne
  have distinct : id ∈ Dimension.distinct ids := Dimension.mem_distinct.mpr ⟨hid, hne⟩
  rcases hc.options with hempty | ⟨confirmed, heard, hverdict⟩
  · simp [hempty] at distinct
  · obtain ⟨l, runs, hdone, houtcome⟩ := heard.holds confirmed rfl
    obtain ⟨options', hoptions', hoffered⟩ := runs.option_of_verdict
      (fun _ found hanswer => hanswer found rfl) hdone houtcome hverdict id distinct
    rw [hoptions, Option.some.injEq] at hoptions'
    rwa [hoptions']

theorem Dimension.exists_of_observed {ds ds' : List Dimension}
    (hds : ds.map Dimension.observed = ds'.map Dimension.observed) {d : Dimension} (hd : d ∈ ds) :
    ∃ d' ∈ ds', d'.name = d.name ∧ ∀ id ∈ d.options, id ∈ d'.options := by
  have hmem : d.observed ∈ ds'.map Dimension.observed := hds ▸ List.mem_map_of_mem hd
  obtain ⟨d', hd', heq⟩ := List.mem_map.mp hmem
  refine ⟨d', hd', congrArg Prod.fst heq, ?_⟩
  intro id hid
  have sorted : Content.sorted d'.options = Content.sorted d.options := congrArg Prod.snd heq
  rwa [← Content.mem_sorted, sorted, Content.mem_sorted]

/-- A change with grounds keeps a blueprint within what the catalog holds. -/
theorem Justified.grounds {a x c : Blueprint} {e : FilterEdit}
    (hj : Justified settings (fun _ => h.Answers) me past a e) (hxa : x.observed = a.observed)
    (hc : e.apply x = .ok c) (hx : h.Grounds x) : h.Grounds c := by
  have dataset : a.dataset = x.dataset := congrArg Observation.dataset hxa.symm
  have dimensions : x.dimensions.map Dimension.observed = a.dimensions.map Dimension.observed :=
    congrArg Observation.dimensions hxa
  cases hj with
  | promotion told =>
    rw [FilterEdit.apply_change hc]
    exact ⟨hx.dimensions, hx.instanceId⟩
  | update updates =>
    rw [FilterEdit.apply_change hc]
    cases updates with
    | report asked valid => exact ⟨hx.dimensions, hx.instanceId⟩
    | move found asked valid other editable told confirmed =>
      refine ⟨?_, told.holds found rfl⟩
      intro d hd
      obtain ⟨d', hd', hname, hoptions⟩ := Dimension.exists_of_observed dimensions hd
      have selects := (confirmed d' hd').selects.subset hoptions
      rw [hname] at selects
      exact selects
  | submission editable same made =>
    rw [FilterEdit.apply_change hc]
    exact ⟨hx.dimensions, hx.instanceId⟩
  | addDimension d confirmed =>
    rw [dataset] at confirmed
    rw [FilterEdit.apply_addDimension hc]
    obtain ⟨ds, hds⟩ := FilterEdit.upsertDimension_eq x d
    constructor
    · intro d' hd'
      have hdataset : (x.upsertDimension d).dataset = x.dataset := by rw [hds]
      rw [hdataset]
      rcases Blueprint.mem_upsertDimension hd' with hd' | ⟨hname, hoptions⟩
      · exact hx.dimensions d' hd'
      · rw [hname, hoptions]
        exact confirmed.selects
    · rw [hds]
      exact hx.instanceId
  | removeDimension name =>
    rw [FilterEdit.apply_removeDimension hc]
    exact ⟨fun d hd => hx.dimensions d (List.mem_filter.mp hd).1, hx.instanceId⟩
  | addOptions name options confirmed =>
    rw [dataset] at confirmed
    rw [FilterEdit.modifyDimension?_eq (FilterEdit.apply_addOptions hc)]
    refine ⟨?_, hx.instanceId⟩
    intro d hd
    rcases Blueprint.mem_modifyFirst hd with hd | ⟨old, hold, rfl, rfl⟩
    · exact hx.dimensions d hd
    · exact (hx.dimensions old hold).union confirmed.selects fun id => Dimension.mem_insert.mp
  | removeOptions name options =>
    rw [FilterEdit.modifyDimension?_eq (FilterEdit.apply_removeOptions hc)]
    refine ⟨?_, hx.instanceId⟩
    intro d hd
    rcases Blueprint.mem_modifyFirst hd with hd | ⟨old, hold, rfl, rfl⟩
    · exact hx.dimensions d hd
    · exact (hx.dimensions old hold).subset fun id hid => (Dimension.mem_erase.mp hid).1

end DatasetFilters
