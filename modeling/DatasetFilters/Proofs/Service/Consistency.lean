import DatasetFilters.Proofs.Service.Hashed
import DatasetFilters.Proofs.Service.Lifecycle

namespace DatasetFilters

namespace Output

/-- An output is one of the selections of a blueprint. -/
structure Renders (o : Output) (b : Blueprint) : Prop where
  filterId : o.filterId = b.id
  dataset : o.dataset = b.dataset
  instanceId : o.instanceId = b.instanceId
  kind : o.kind = b.kind
  dimensions : o.dimensions.map Dimension.observed = b.dimensions.map Dimension.observed

theorem Renders.of_plan {o o' : Output} {b : Blueprint} (h : o.Renders b) (plan : o'.plan = o.plan) :
    o'.Renders b where
  filterId := (congrArg Output.filterId plan : _).trans h.filterId
  dataset := (congrArg Output.dataset plan : _).trans h.dataset
  instanceId := (congrArg Output.instanceId plan : _).trans h.instanceId
  kind := (congrArg Output.kind plan : _).trans h.kind
  dimensions := (congrArg (fun o => o.dimensions.map Dimension.observed) plan : _).trans h.dimensions

theorem Renders.of_stands {o : Output} {old new : Blueprint} (h : o.Renders old)
    (continues : old.Continues new) (stands : old.Stands new) : o.Renders new where
  filterId := h.filterId.trans continues.id.symm
  dataset := h.dataset.trans stands.dataset.symm
  instanceId := h.instanceId.trans stands.instanceId.symm
  kind := h.kind.trans continues.kind.symm
  dimensions := by rw [stands.dimensions]; exact h.dimensions

/-- An output renders the blueprint that it is made of, and what looks like it. -/
theorem renders_ofBlueprint (id : String) (time : Instant) {b x : Blueprint}
    (h : x.observed = b.observed) : (ofBlueprint id b time).Renders x where
  filterId := (Blueprint.id_congr h).symm
  dataset := (Blueprint.dataset_congr h).symm
  instanceId := (congrArg Observation.instanceId h).symm
  kind := (congrArg Observation.kind h).symm
  dimensions := (congrArg Observation.dimensions h).symm

end Output

/-- Submitted blueprints have their outputs, and others have none. -/
structure World.Consistent (w : World) : Prop where
  rendered : ∀ b, w.Stores b → b.isSubmitted = true →
    ∃ o, b.outputId = some o.id ∧ w.store.output? o.id = some o ∧ o.Renders b
  unnamed : ∀ b, w.Stores b → b.isSubmitted = false → b.outputId = none

section

variable {settings : Settings} {answers : Nat → (q : Query) → q.Reply → Prop} {me : Client}
  {documents : Blueprint → Prop} {past : List Moment} {now next start : World} {s : Server}

/-- Outputs stay, made of the same. -/
theorem Deed.output_kept (hd : Deed settings answers me past now next) {id : String} {o : Output}
    (stored : now.store.output? id = some o) :
    ∃ o', next.store.output? id = some o' ∧ o'.plan = o.plan := by
  have rests (outputs : next.store.backend.outputs = now.store.backend.outputs) :
      ∃ o', next.store.output? id = some o' ∧ o'.plan = o.plan :=
    ⟨o, (Store.output?_of_outputs_eq outputs id).trans stored, rfl⟩
  have puts {t : Instant} {id' : String} {o' : Output}
      (same : ∀ old, now.store.output? id' = some old → o'.plan = old.plan)
      (kept : next = { now with store := now.store.puttingOutput t id' o' }) :
      ∃ o', next.store.output? id = some o' ∧ o'.plan = o.plan := by
    rw [kept]
    by_cases h : id = id'
    · subst h
      exact ⟨o', Store.output?_puttingOutput_self _ _ _ _, same o stored⟩
    · exact ⟨o, by rw [Store.output?_puttingOutput, if_neg h, stored], rfl⟩
  cases hd with
  | rests filters outputs channel => exact rests outputs
  | works busy cleared filters work =>
    cases work with
    | makes b outputId t time stamp submits took free kept =>
      refine puts (fun old h => ?_) kept
      simp [Store.output?_of_free free] at h
    | tends id' old o' t found same kept =>
      refine puts (fun old' h => ?_) kept
      rw [Option.some.inj (h.symm.trans found)]
      exact same
    | sends b outputId submits made took submitted named kept => exact rests (by rw [kept])
  | creates b t version new free told instanceId confirmed published blank fresh kept =>
    exact rests (by rw [kept]; rfl)
  | edits a x c t e saw follows sees cleared found same justified applied changed kept =>
    exact rests (by rw [kept]; rfl)

theorem Moment.Keeps.output_kept {m : Moment}
    (h : m.Keeps (.ofServices settings answers documents) past) {id : String} {o : Output}
    (stored : m.before.store.output? id = some o) :
    ∃ o', m.after.store.output? id = some o' ∧ o'.plan = o.plan := by
  cases h with
  | idle me past now hvalid => exact ⟨o, stored, rfl⟩
  | own me past now next hvalid hdeed => exact hdeed.output_kept stored
  | received past now channel hvalid => exact ⟨o, stored, rfl⟩

/-- Outputs stay, made of the same. -/
theorem Run.output_kept (run : Run settings answers start past s)
    (keeps : ∀ m earlier, (m :: earlier) <:+ past →
      m.Keeps (.ofServices settings answers documents) earlier)
    {m : Moment} {earlier : List Moment} (hs : (m :: earlier) <:+ past) {id : String} {o : Output}
    (stored : m.after.store.output? id = some o) :
    ∃ o', s.world.store.output? id = some o' ∧ o'.plan = o.plan := by
  refine Classical.byContradiction fun lost => ?_
  obtain ⟨m', earlier', hs', -, ⟨o₁, h₁, plan₁⟩, gone⟩ := run.turning
    (I := fun w => ∃ o', w.store.output? id = some o' ∧ o'.plan = o.plan) hs ⟨o, stored, rfl⟩ lost
  obtain ⟨o₂, h₂, plan₂⟩ := (keeps m' earlier' hs').output_kept h₁
  exact gone ⟨o₂, h₂, plan₂.trans plan₁⟩

/-- How a change that a client has grounds for bears on submission: it is one, or it leaves state and
output as they are. -/
theorem Justified.submits {a x c : Blueprint} {e : FilterEdit}
    (h : Justified settings answers me past a e) (applied : e.apply x = .ok c) :
    (c.isSubmitted = x.isSubmitted ∧ c.outputId = x.outputId) ∨
    ∃ b outputId time, e = .change (.submission outputId time) ∧ a.isSubmitted = false ∧
      (b.id = a.id ∧ b.etag = a.etag) ∧ me.Made settings answers past b outputId time := by
  have dimensions (he : ∀ y, e ≠ .change y) :
      c.isSubmitted = x.isSubmitted ∧ c.outputId = x.outputId := by
    obtain ⟨ds, rfl⟩ := FilterEdit.apply_eq_dimensions applied he
    exact ⟨rfl, rfl⟩
  cases h with
  | promotion told =>
    rw [FilterEdit.apply_change applied]
    exact Or.inl ⟨rfl, rfl⟩
  | update updates =>
    rw [FilterEdit.apply_change applied]
    cases updates <;> exact Or.inl ⟨rfl, rfl⟩
  | submission editable same made => exact Or.inr ⟨_, _, _, rfl, editable, same, made⟩
  | addDimension d confirmed => exact Or.inl (dimensions (by simp))
  | removeDimension name => exact Or.inl (dimensions (by simp))
  | addOptions name options confirmed => exact Or.inl (dimensions (by simp))
  | removeOptions name options => exact Or.inl (dimensions (by simp))

variable (hash : NoCollision settings answers past)
  (hdocuments : Sha256.Separates fun m => ∃ b, documents b ∧ m = b.content)
  (hvalid : (Rules.ofServices settings answers documents).valid past now)
  (history : ∀ m earlier, (m :: earlier) <:+ past → ∀ id o, m.after.store.output? id = some o →
    ∃ o', now.store.output? id = some o' ∧ o'.plan = o.plan)
include hash hdocuments hvalid history

/-- The output that a client made of a blueprint is there when it marks the blueprint submitted. -/
theorem Client.Made.rendered {b x : Blueprint} {outputId : String} {time : Instant}
    (made : me.Made settings answers past b outputId time) (stored : now.Stores x)
    (htag : x.etag = b.etag) :
    ∃ o, o.id = outputId ∧ now.store.output? outputId = some o ∧
      o.Renders ((BlueprintChange.submission outputId time).apply x) := by
  obtain ⟨m, earlier, hs, -, took, -, stamp, found⟩ := made
  obtain ⟨o, kept, plan⟩ := history m earlier hs outputId _ found
  have grown := (List.suffix_cons m earlier).trans hs
  have looks : x.observed = b.observed :=
    (took.changes.mono grown).observed_eq hash hvalid hdocuments stored htag
  have renders := Output.renders_ofBlueprint outputId time looks
  have plan : o.plan = (Output.ofBlueprint outputId b time).plan := plan
  have renders := renders.of_plan plan
  exact ⟨o, congrArg Output.id plan, kept, renders.filterId, renders.dataset, renders.instanceId,
    renders.kind, renders.dimensions⟩

/-- A blueprint that is written on grounds is as it should be. -/
theorem Justified.consistent {a x c : Blueprint} {e : FilterEdit} (h : now.Consistent)
    (justified : Justified settings answers me past a e) (saw : me.Saw past a)
    (stored : now.Stores x) (htag : x.etag = a.etag) (applied : e.apply x = .ok c) :
    (c.isSubmitted = true →
      ∃ o, c.outputId = some o.id ∧ now.store.output? o.id = some o ∧ o.Renders c) ∧
    (c.isSubmitted = false → c.outputId = none) := by
  have looks : x.observed = a.observed := saw.observed_eq hdocuments hvalid stored htag
  have continues : x.Continues c := justified.continues looks applied
  rcases justified.submits applied with ⟨state, named⟩ | ⟨b, outputId, time, rfl, -, hba, made⟩
  · rw [state, named]
    refine ⟨fun submitted => ?_, h.unnamed x stored⟩
    obtain ⟨o, hid, kept, renders⟩ := h.rendered x stored submitted
    exact ⟨o, hid, kept, renders.of_stands continues (continues.stands submitted)⟩
  · rw [FilterEdit.apply_change applied]
    refine ⟨fun _ => ?_, fun unsubmitted => ?_⟩
    · obtain ⟨o, rfl, kept, renders⟩ :=
        made.rendered hash hdocuments hvalid history stored (htag.trans hba.2.symm)
      exact ⟨o, rfl, kept, renders⟩
    · have submitted : ((BlueprintChange.submission outputId time).apply x).isSubmitted = true := rfl
      simp [submitted] at unsubmitted

/-- One deed leaves each submitted blueprint with an output that renders it. -/
theorem Deed.consistent (hd : Deed settings answers me past now next) (h : now.Consistent) :
    next.Consistent := by
  -- an output that was there is there, made of the same
  have kept {b : Blueprint} (hb : ∃ o, b.outputId = some o.id ∧ now.store.output? o.id = some o ∧
      o.Renders b) : ∃ o, b.outputId = some o.id ∧ next.store.output? o.id = some o ∧ o.Renders b := by
    obtain ⟨o, named, stored, renders⟩ := hb
    obtain ⟨o', stored', plan⟩ := hd.output_kept stored
    have hid : o'.id = o.id := (congrArg Output.id plan :)
    exact ⟨o', hid ▸ named, hid ▸ stored', renders.of_plan plan⟩
  have rests (filters : next.store.backend.filters = now.store.backend.filters) :
      next.Consistent := by
    constructor
    · intro b hb submitted
      exact kept (h.rendered b ((World.stores_of_filters_eq filters).mp hb) submitted)
    · intro b hb
      exact h.unnamed b ((World.stores_of_filters_eq filters).mp hb)
  have writes {t : Instant} {b : Blueprint}
      (written : next = { now with store := now.store.keeping t b })
      (rendered : b.isSubmitted = true →
        ∃ o, b.outputId = some o.id ∧ now.store.output? o.id = some o ∧ o.Renders b)
      (unnamed : b.isSubmitted = false → b.outputId = none) : next.Consistent := by
    have cases {y : Blueprint} (hy : next.Stores y) : y = b ∨ now.Stores y := by
      rw [written] at hy
      exact World.stores_keeping hy
    constructor
    · intro y hy submitted
      rcases cases hy with rfl | hy
      · exact kept (rendered submitted)
      · exact kept (h.rendered y hy submitted)
    · intro y hy unsubmitted
      rcases cases hy with rfl | hy
      · exact unnamed unsubmitted
      · exact h.unnamed y hy unsubmitted
  cases hd with
  | rests filters outputs channel => exact rests filters
  | works busy cleared filters work => exact rests filters
  | creates b t version new free told instanceId confirmed published blank fresh written =>
    refine writes written (fun submitted => ?_) fun _ => blank.2
    simp [Blueprint.isSubmitted, blank.1] at submitted
  | edits a x c t e saw follows sees cleared found same justified applied changed written =>
    obtain ⟨rendered, unnamed⟩ :=
      justified.consistent hash hdocuments hvalid history h saw found same.2 applied
    refine writes written (fun submitted => ?_) unnamed
    obtain ⟨o, named, stored, renders⟩ := rendered submitted
    have continues := Blueprint.Continues.restamped now.store t c
    exact ⟨o, named, stored, renders.of_stands continues (continues.stands submitted)⟩

end

end DatasetFilters
