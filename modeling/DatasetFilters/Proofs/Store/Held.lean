import DatasetFilters.Proofs.Store.Edit

namespace DatasetFilters

namespace Blueprint

/-- A blueprint with the marks of a write. -/
def marked (b : Blueprint) (tag : String) (stamp : UInt64) (time : Instant) : Blueprint :=
  { b with etag := tag, stamp, lastUpdated := time }

variable (b : Blueprint) (tag : String) (stamp : UInt64) (time : Instant)

/-- The marks of a write are no part of what the tag is made from. -/
theorem tag_marked : (b.marked tag stamp time).tag = b.tag := rfl

theorem etag_marked : (b.marked tag stamp time).etag = tag := rfl

theorem restamped_marked (s : Store) (now : Instant) :
    s.restamped now (b.marked tag stamp time) =
      b.marked b.tag (max (s.clock.next now) (stamp + 1)) now := rfl

theorem modifyDimension?_marked (name : String) (f : Dimension → Dimension) :
    (b.marked tag stamp time).modifyDimension? name f =
      (b.modifyDimension? name f).map (·.marked tag stamp time) := by
  unfold modifyDimension?
  change (if (b.dimension? name).isSome = true then _ else _) = _
  cases (b.dimension? name).isSome <;> rfl

theorem upsertDimension_marked (d : Dimension) :
    (b.marked tag stamp time).upsertDimension d =
      (b.upsertDimension d).marked tag stamp time := by
  unfold upsertDimension
  rw [modifyDimension?_marked]
  cases b.modifyDimension? d.name fun old => { old with options := d.options } <;> rfl

end Blueprint

/-- A change does to a blueprint with marks what it does to the one without. -/
theorem FilterEdit.apply_marked (e : FilterEdit) (b : Blueprint) (tag : String) (stamp : UInt64)
    (time : Instant) :
    e.apply (b.marked tag stamp time) = (e.apply b).map (·.marked tag stamp time) := by
  have editable : Store.ensureEditable (b.marked tag stamp time) = Store.ensureEditable b := rfl
  cases e with
  | change x => rfl
  | addDimension d =>
    simp only [apply, editable, Blueprint.upsertDimension_marked]
    cases Store.ensureEditable b <;> rfl
  | removeDimension name =>
    have found : (b.marked tag stamp time).dimension? name = b.dimension? name := rfl
    simp only [apply, editable, found]
    cases Store.ensureEditable b with
    | error error => rfl
    | ok _ => cases (b.dimension? name).isNone <;> rfl
  | addOptions name options =>
    simp only [apply, editable, Blueprint.modifyDimension?_marked]
    cases Store.ensureEditable b with
    | error error => rfl
    | ok _ => cases b.modifyDimension? name (·.insert options) <;> rfl
  | removeOptions name options =>
    simp only [apply, editable, Blueprint.modifyDimension?_marked]
    cases Store.ensureEditable b with
    | error error => rfl
    | ok _ => cases b.modifyDimension? name (·.erase options) <;> rfl

/-- A sound store in which a blueprint is stored, with the tag of its content. -/
structure Store.Holds (s : Store) (b : Blueprint) : Prop where
  sound : s.Sound
  stored : ∃ stamp time, s.filter? b.id = some (b.marked b.tag stamp time)

/-- No other blueprint is stored than before, or another way. -/
def Store.SameBeside (s s' : Store) (id : String) : Prop := ∀ k, k ≠ id → s'.filter? k = s.filter? k

variable {s s' : Store} {b c : Blueprint} {e : FilterEdit}

theorem Store.Sound.holds (h : s.Sound) (hb : s.filter? b.id = some b) : s.Holds b := by
  refine ⟨h, b.stamp, b.lastUpdated, ?_⟩
  rw [hb, ← h.etag_eq hb]
  rfl

theorem Store.Holds.of_filters_eq (h : s.Holds b) (same : s'.backend.filters = s.backend.filters) :
    s'.Holds b where
  sound := h.sound.of_filters_eq same
  stored := by
    rw [filter?_of_filters_eq same]
    exact h.stored

theorem Store.SameBeside.of_filters_eq (same : s'.backend.filters = s.backend.filters)
    (id : String) : s.SameBeside s' id := fun k _ => filter?_of_filters_eq same k

theorem Store.SameBeside.trans {s'' : Store} {id : String} (h : s.SameBeside s' id)
    (h' : s'.SameBeside s'' id) : s.SameBeside s'' id :=
  fun k hk => (h' k hk).trans (h k hk)

/-- Who names the right tag changes the blueprint, or finds the backend failing: a change that
leaves the tag alone has to be one that leaves the blueprint alone. -/
theorem Store.Holds.modifyFilter (h : s.Holds b) (applied : e.apply b = .ok c)
    (told : c.tag = b.tag → c = b) (now : Instant) :
    (∃ error, s.backend.failure? .modify .filters = some error ∧
      s.modifyFilter now b.id (.exact b.tag) e.apply = (.error error, s.touched)) ∨
    ∃ stamp time s', s.modifyFilter now b.id (.exact b.tag) e.apply =
        (.ok (c.marked c.tag stamp time), s') ∧ s'.Holds c ∧ s.SameBeside s' b.id := by
  obtain ⟨stamp, time, stored⟩ := h.stored
  have hid : c.id = b.id := (FilterEdit.apply_id_etag applied).1
  have changed : e.apply (b.marked b.tag stamp time) = .ok (c.marked b.tag stamp time) := by
    rw [FilterEdit.apply_marked, applied]
    rfl
  have eq := modifyFilter_eq h.sound now b.id (.exact b.tag) fun b c (hc : e.apply b = .ok c) =>
    (FilterEdit.apply_id_etag hc).1
  rcases failed : s.backend.failure? .modify .filters with _ | error
  · have accepted : (Selector.exact b.tag).accepts (b.marked b.tag stamp time).etag = true :=
      beq_self_eq_true b.tag
    rw [failed, stored] at eq
    simp only [changed] at eq
    rw [if_pos accepted] at eq
    have tags : (c.marked b.tag stamp time).tag = (b.marked b.tag stamp time).etag ↔
        c.tag = b.tag := by rw [Blueprint.tag_marked, Blueprint.etag_marked]
    refine Or.inr ?_
    by_cases unmoved : c.tag = b.tag
    · rw [if_pos (tags.mpr unmoved)] at eq
      obtain rfl : c = b := told unmoved
      exact ⟨stamp, time, _, eq, h.of_filters_eq rfl, .of_filters_eq rfl _⟩
    · rw [if_neg (mt tags.mp unmoved), Blueprint.restamped_marked] at eq
      generalize max (s.clock.next now) (stamp + 1) = later at eq
      have own : (c.marked c.tag later now).etag = (c.marked c.tag later now).tag :=
        (Blueprint.tag_marked ..).symm
      refine ⟨later, now, _, eq, ⟨h.sound.keeping now own, later, now, ?_⟩, ?_⟩
      · exact Store.filter?_keeping_self s now (c.marked c.tag later now)
      · intro k hk
        exact Store.filter?_keeping_of_ne fun same => hk (same.trans hid)
  · rw [failed] at eq
    exact Or.inl ⟨error, rfl, eq⟩

end DatasetFilters
