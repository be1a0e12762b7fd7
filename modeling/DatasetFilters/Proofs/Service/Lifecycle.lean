import DatasetFilters.Proofs.Service.Conditions

namespace DatasetFilters

namespace Blueprint

/-- What a submitted blueprint keeps. -/
structure Stands (old new : Blueprint) : Prop where
  submitted : new.isSubmitted = true
  dataset : new.dataset = old.dataset
  instanceId : new.instanceId = old.instanceId
  dimensions : new.dimensions = old.dimensions
  outputId : new.outputId = old.outputId

/-- How a blueprint goes on. -/
structure Continues (old new : Blueprint) : Prop where
  id : new.id = old.id
  kind : new.kind = old.kind
  datasetId : new.dataset.id = old.dataset.id
  edition : new.dataset.edition = old.dataset.edition
  events : old.events <+: new.events
  published : old.isPublished = true → new.isPublished = true
  stands : old.isSubmitted = true → old.Stands new

theorem Continues.refl (b : Blueprint) : b.Continues b :=
  ⟨rfl, rfl, rfl, rfl, List.prefix_rfl, fun h => h, fun h => ⟨h, rfl, rfl, rfl, rfl⟩⟩

theorem Continues.trans {a b c : Blueprint} (h : a.Continues b) (h' : b.Continues c) :
    a.Continues c where
  id := h'.id.trans h.id
  kind := h'.kind.trans h.kind
  datasetId := h'.datasetId.trans h.datasetId
  edition := h'.edition.trans h.edition
  events := h.events.trans h'.events
  published := fun ha => h'.published (h.published ha)
  stands := by
    intro ha
    have first := h.stands ha
    have second := h'.stands first.submitted
    exact ⟨second.submitted, second.dataset.trans first.dataset,
      second.instanceId.trans first.instanceId, second.dimensions.trans first.dimensions,
      second.outputId.trans first.outputId⟩

theorem isSubmitted_congr {b b' : Blueprint} (h : b.observed = b'.observed) :
    b.isSubmitted = b'.isSubmitted :=
  congrArg (fun o : Observation => o.state == .submitted) h

theorem Continues.restamped (s : Store) (t : Instant) (b : Blueprint) :
    b.Continues (s.restamped t b) :=
  ⟨rfl, rfl, rfl, rfl, List.prefix_rfl, fun h => h, fun h => ⟨h, rfl, rfl, rfl, rfl⟩⟩

theorem Continues.dimensions {b : Blueprint} (editable : b.isSubmitted = false)
    (ds : List Dimension) : b.Continues { b with dimensions := ds } where
  id := rfl
  kind := rfl
  datasetId := rfl
  edition := rfl
  events := List.prefix_rfl
  published := fun h => h
  stands := by simp [editable]

end Blueprint

/-- A change leaves a continuation if it stays within the edition, and if on a submitted blueprint it
does no more than report events and make it public. -/
theorem BlueprintChange.continues_apply {c : BlueprintChange} {b : Blueprint}
    (edition : ∀ d ∈ c.dataset, d.id = b.dataset.id ∧ d.edition = b.dataset.edition)
    (editable : b.isSubmitted = true →
      c.dataset = none ∧ c.instanceId = none ∧ c.state = none ∧ c.outputId = none) :
    b.Continues (c.apply b) where
  id := rfl
  kind := rfl
  datasetId := by
    cases hd : c.dataset with
    | none => simp [apply, hd]
    | some d => simp [apply, hd, (edition d hd).1]
  edition := by
    cases hd : c.dataset with
    | none => simp [apply, hd]
    | some d => simp [apply, hd, (edition d hd).2]
  events := List.prefix_append _ _
  published := fun h => FilterEdit.isPublished_of_apply (e := .change c) rfl h
  stands := by
    intro submitted
    obtain ⟨dataset, instanceId, state, outputId⟩ := editable submitted
    have kept : (c.apply b).isSubmitted = true := by
      rw [Blueprint.isSubmitted, apply, state]
      exact submitted
    exact ⟨kept, by simp [apply, dataset], by simp [apply, instanceId], rfl, by simp [apply, outputId]⟩

variable {settings : Settings} {answers : Nat → (q : Query) → q.Reply → Prop} {me : Client}
  {documents : Blueprint → Prop} {past : List Moment} {now next start : World} {s : Server}

/-- A change that a client has grounds for leaves a continuation of the blueprint. -/
theorem Justified.continues {a x c : Blueprint} {e : FilterEdit}
    (h : Justified settings answers me past a e) (hxa : x.observed = a.observed)
    (applied : e.apply x = .ok c) : x.Continues c := by
  have state : x.isSubmitted = a.isSubmitted := Blueprint.isSubmitted_congr hxa
  have dimensions (he : ∀ y, e ≠ .change y) : x.Continues c := by
    obtain ⟨ds, rfl⟩ := FilterEdit.apply_eq_dimensions applied he
    exact .dimensions (FilterEdit.not_submitted applied he) ds
  cases h with
  | promotion told =>
    rw [FilterEdit.apply_change applied]
    exact BlueprintChange.continues_apply (by simp [BlueprintChange.promotion])
      fun _ => ⟨rfl, rfl, rfl, rfl⟩
  | update updates =>
    rw [FilterEdit.apply_change applied]
    cases updates with
    | report asked valid =>
      exact BlueprintChange.continues_apply (by simp) fun _ => ⟨rfl, rfl, rfl, rfl⟩
    | move found asked valid other editable told confirmed =>
      refine BlueprintChange.continues_apply ?_ fun submitted => ?_
      · intro d hd
        rw [← Option.some.inj hd, Blueprint.dataset_congr hxa]
        exact ⟨rfl, rfl⟩
      · rw [state, editable] at submitted
        simp at submitted
  | submission editable same made =>
    rw [FilterEdit.apply_change applied]
    refine BlueprintChange.continues_apply (by simp [BlueprintChange.submission]) fun submitted => ?_
    rw [state, editable] at submitted
    simp at submitted
  | addDimension d confirmed => exact dimensions (by simp)
  | removeDimension name => exact dimensions (by simp)
  | addOptions name options confirmed => exact dimensions (by simp)
  | removeOptions name options => exact dimensions (by simp)

/-- What one deed leaves of a stored blueprint: the blueprint itself, or a continuation with another
tag. -/
theorem Deed.continues (hash : Sha256.Separates fun m => ∃ b, documents b ∧ m = b.content)
    (hvalid : (Rules.ofServices settings answers documents).valid past now)
    (hd : Deed settings answers me past now next) {old : Blueprint} (stored : now.Stores old) :
    ∃ new, next.Stores new ∧ (new = old ∨ new.etag ≠ old.etag ∧ old.Continues new) := by
  have rests (filters : next.store.backend.filters = now.store.backend.filters) :
      ∃ new, next.Stores new ∧ (new = old ∨ new.etag ≠ old.etag ∧ old.Continues new) :=
    ⟨old, (World.stores_of_filters_eq filters).mpr stored, Or.inl rfl⟩
  have others {t : Instant} {b : Blueprint} (hne : old.id ≠ b.id)
      (kept : next = { now with store := now.store.keeping t b }) :
      ∃ new, next.Stores new ∧ (new = old ∨ new.etag ≠ old.etag ∧ old.Continues new) := by
    refine ⟨old, ?_, Or.inl rfl⟩
    rw [kept, World.Stores, Store.filter?_keeping_of_ne hne]
    exact stored
  cases hd with
  | rests filters outputs channel => exact rests filters
  | works busy cleared filters work => exact rests filters
  | creates b t version new free told instanceId confirmed published blank fresh kept =>
    refine others ?_ kept
    intro hid
    rw [World.Stores, hid, free] at stored
    simp at stored
  | edits a x c t e saw follows sees cleared found same justified applied changed kept =>
    have idc := (FilterEdit.apply_id_etag applied).1
    by_cases hid : old.id = x.id
    · obtain rfl := stored.unique found hid
      have continues := justified.continues (saw.observed_eq hash hvalid stored same.2) applied
      refine ⟨now.store.restamped t c, ?_, Or.inr ⟨changed, continues.trans (.restamped _ t c)⟩⟩
      rw [kept]
      exact Store.filter?_keeping_self now.store t _
    · exact others (b := now.store.restamped t c) (fun h => hid (h.trans idc)) kept

/-- At each moment a blueprint is left alone or goes on with another tag. -/
theorem Moment.Keeps.continues {m : Moment}
    (hash : Sha256.Separates fun m => ∃ b, documents b ∧ m = b.content)
    (h : m.Keeps (.ofServices settings answers documents) past) {old : Blueprint}
    (stored : m.before.Stores old) :
    ∃ new, m.after.Stores new ∧ (new = old ∨ new.etag ≠ old.etag ∧ old.Continues new) := by
  cases h with
  | idle me past now hvalid => exact ⟨old, stored, Or.inl rfl⟩
  | own me past now next hvalid hdeed => exact hdeed.continues hash hvalid stored
  | received past now channel hvalid => exact ⟨old, stored, Or.inl rfl⟩

/-- Whatever is stored has a continuation at all later times of a run. -/
theorem Run.continues (run : Run settings answers start past s)
    (hash : Sha256.Separates fun m => ∃ b, documents b ∧ m = b.content)
    (keeps : ∀ m earlier, (m :: earlier) <:+ past →
      m.Keeps (.ofServices settings answers documents) earlier)
    {m : Moment} {earlier : List Moment} (hs : (m :: earlier) <:+ past) {old : Blueprint}
    (stored : m.after.Stores old) : ∃ new, s.world.Stores new ∧ old.Continues new := by
  refine Classical.byContradiction fun lost => ?_
  obtain ⟨m', earlier', hs', -, ⟨b, hb, continues⟩, gone⟩ := run.turning
    (I := fun w => ∃ new, w.Stores new ∧ old.Continues new) hs ⟨old, stored, .refl old⟩ lost
  obtain ⟨new, hnew, rfl | ⟨-, further⟩⟩ := (keeps m' earlier' hs').continues hash hb
  · exact gone ⟨new, hnew, continues⟩
  · exact gone ⟨new, hnew, continues.trans further⟩

/-- The history of the blueprints in a run. A moment leaves a stored blueprint as it is, or puts a
continuation with another tag in its place; and after any later moment a continuation is stored. -/
theorem Run.lifecycle (fresh : start.Fresh) (run : Run settings answers start past s)
    (hash : Collisionless past) :
    (∀ m ∈ past, ∀ old, m.before.Stores old →
      ∃ new, m.after.Stores new ∧ (new = old ∨ new.etag ≠ old.etag ∧ old.Continues new)) ∧
    ∀ m earlier m' earlier', (m' :: earlier') <:+ past → (m :: earlier) <:+ (m' :: earlier') →
      ∀ old, m.after.Stores old → ∃ new, m'.after.Stores new ∧ old.Continues new := by
  obtain ⟨-, -, keeps⟩ := run.sound_services fresh hash
  constructor
  · intro m hm old stored
    obtain ⟨earlier, hs⟩ := suffix_of_mem hm
    exact (keeps m earlier hs).continues hash stored
  · intro m earlier m' earlier' hs' hs old stored
    obtain ⟨s', run'⟩ := run.of_suffix hs'
    have continues := run'.continues hash (fun m earlier h => keeps m earlier (h.trans hs')) hs stored
    rwa [run'.world_eq] at continues

namespace Small

theorem blank_goes_on :
    (chosen.etag ≠ blank.etag ∧ blank.Continues chosen) ∧ chosen.Continues submitted := by
  obtain ⟨s, run, -⟩ := run answers_reply
  obtain ⟨m, earlier, at21, edit⟩ := first_edits
  obtain ⟨before, after, -, differs, -⟩ := edit.edits
  have hs : (m :: earlier) <:+ moments := at21 ▸ List.drop_suffix 21 moments
  obtain ⟨once, ever⟩ := Run.lifecycle world_fresh run collisionless
  constructor
  · obtain ⟨new, hnew, outcome⟩ := once m (hs.mem List.mem_cons_self) blank before
    have idn : new.id = chosen.id := (kept ⟨m, hs.mem List.mem_cons_self, hnew⟩).1
    obtain rfl := hnew.unique after idn
    rcases outcome with same | outcome
    · exact absurd (congrArg Blueprint.observed same) differs
    · exact outcome
  · cases hlast : moments with
    | nil => simp [hlast] at hs
    | cons m' earlier' =>
      rw [hlast] at hs
      have last : m'.after = lastWorld world moments := by rw [hlast]; rfl
      obtain ⟨new, hnew, continues⟩ :=
        ever m earlier m' earlier' (hlast ▸ List.suffix_refl _) hs chosen after
      have stored : m'.after.Stores submitted := by
        rw [last]
        exact computed.2.1
      rwa [← hnew.unique stored (continues.id)]

end Small

end DatasetFilters
