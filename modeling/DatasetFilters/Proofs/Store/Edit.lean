import DatasetFilters.Proofs.Store.Documents

namespace DatasetFilters

/-- The changes that the store makes to a blueprint: all ways to write to one are the same access
with a different change. -/
inductive FilterEdit where
  | change (c : BlueprintChange)
  | addDimension (d : Dimension)
  | removeDimension (name : String)
  | addOptions (name : String) (options : List String)
  | removeOptions (name : String) (options : List String)
  deriving DecidableEq, Repr

namespace FilterEdit

open Store in
def apply : FilterEdit → Blueprint → Except StoreError Blueprint
  | change c, b => .ok (c.apply b)
  | addDimension d, b => do
    ensureEditable b
    return b.upsertDimension d
  | removeDimension name, b => do
    ensureEditable b
    if (b.dimension? name).isNone then throw (.dimensionNotFound name)
    return b.removeDimension name
  | addOptions name options, b => do
    ensureEditable b
    let some b := b.modifyDimension? name (·.insert options) | throw (.dimensionNotFound name)
    return b
  | removeOptions name options, b => do
    ensureEditable b
    let some b := b.modifyDimension? name (·.erase options) | throw (.dimensionNotFound name)
    return b

end FilterEdit

namespace Store

variable (s : Store) (now : Instant) (id : String) (selector : Selector)

theorem updateFilter_eq_modifyFilter (c : BlueprintChange) :
    s.updateFilter now id c selector =
      s.modifyFilter now id selector (FilterEdit.change c).apply := rfl

end Store

namespace FilterEdit

/-- A submitted blueprint keeps its dimensions. -/
theorem not_submitted {e : FilterEdit} {b c : Blueprint} (h : e.apply b = .ok c)
    (he : ∀ x, e ≠ change x) : b.isSubmitted = false := by
  cases hb : b.isSubmitted with
  | false => rfl
  | true =>
    cases e with
    | change x => exact absurd rfl (he x)
    | _ => simp [apply, Store.ensureEditable, hb, bind, Except.bind] at h

theorem apply_change {x : BlueprintChange} {b c : Blueprint} (h : (change x).apply b = .ok c) :
    c = x.apply b := by
  simpa [apply] using h.symm

theorem apply_addDimension {d : Dimension} {b c : Blueprint}
    (h : (addDimension d).apply b = .ok c) : c = b.upsertDimension d := by
  have hb := not_submitted h (by simp)
  simpa [apply, Store.ensureEditable, hb, bind, Except.bind, pure, Except.pure] using h.symm

theorem apply_removeDimension {name : String} {b c : Blueprint}
    (h : (removeDimension name).apply b = .ok c) : c = b.removeDimension name := by
  have hb := not_submitted h (by simp)
  simp only [apply, Store.ensureEditable, hb, bind, Except.bind, pure, Except.pure,
    Bool.false_eq_true, if_false] at h
  cases hd : (b.dimension? name).isNone with
  | true => simp [hd, throw, throwThe, MonadExceptOf.throw] at h
  | false => simpa [hd] using h.symm

theorem apply_addOptions {name : String} {options : List String} {b c : Blueprint}
    (h : (addOptions name options).apply b = .ok c) :
    b.modifyDimension? name (·.insert options) = some c := by
  have hb := not_submitted h (by simp)
  simp only [apply, Store.ensureEditable, hb, bind, Except.bind, pure, Except.pure,
    Bool.false_eq_true, if_false] at h
  cases hd : b.modifyDimension? name (·.insert options) with
  | none => simp [hd, throw, throwThe, MonadExceptOf.throw] at h
  | some d => simpa [hd] using h

theorem apply_removeOptions {name : String} {options : List String} {b c : Blueprint}
    (h : (removeOptions name options).apply b = .ok c) :
    b.modifyDimension? name (·.erase options) = some c := by
  have hb := not_submitted h (by simp)
  simp only [apply, Store.ensureEditable, hb, bind, Except.bind, pure, Except.pure,
    Bool.false_eq_true, if_false] at h
  cases hd : b.modifyDimension? name (·.erase options) with
  | none => simp [hd, throw, throwThe, MonadExceptOf.throw] at h
  | some d => simpa [hd] using h

/-- No change fails with a conflict; this is for the store to find. -/
theorem apply_ne_conflict {e : FilterEdit} {b : Blueprint} {error : StoreError}
    (h : e.apply b = .error error) (key : String) : error ≠ .conflict key := by
  intro same
  obtain rfl := same
  cases hb : b.isSubmitted with
  | true => cases e <;> simp [apply, Store.ensureEditable, hb, bind, Except.bind] at h
  | false =>
    cases e with
    | change c => simp [apply] at h
    | addDimension d =>
      simp [apply, Store.ensureEditable, hb, bind, Except.bind, pure, Except.pure] at h
    | removeDimension name =>
      cases hd : (b.dimension? name).isNone <;>
        simp [apply, Store.ensureEditable, hb, hd, bind, Except.bind, pure, Except.pure, throw,
          throwThe, MonadExceptOf.throw] at h
    | addOptions name options =>
      cases hd : b.modifyDimension? name (·.insert options) <;>
        simp [apply, Store.ensureEditable, hb, hd, bind, Except.bind, pure, Except.pure, throw,
          throwThe, MonadExceptOf.throw] at h
    | removeOptions name options =>
      cases hd : b.modifyDimension? name (·.erase options) <;>
        simp [apply, Store.ensureEditable, hb, hd, bind, Except.bind, pure, Except.pure, throw,
          throwThe, MonadExceptOf.throw] at h

theorem modifyDimension?_eq {b c : Blueprint} {name : String} {f : Dimension → Dimension}
    (h : b.modifyDimension? name f = some c) :
    c = { b with dimensions := Blueprint.modifyFirst name f b.dimensions } := by
  unfold Blueprint.modifyDimension? at h
  split at h
  · exact (Option.some.inj h).symm
  · exact absurd h (by simp)

theorem upsertDimension_eq (b : Blueprint) (d : Dimension) :
    ∃ ds, b.upsertDimension d = { b with dimensions := ds } := by
  unfold Blueprint.upsertDimension
  cases h : b.modifyDimension? d.name fun old => { old with options := d.options } with
  | none => exact ⟨_, rfl⟩
  | some c => exact ⟨_, modifyDimension?_eq h⟩

/-- Edits of dimensions and options change nothing but the dimensions. -/
theorem apply_eq_dimensions {e : FilterEdit} {b c : Blueprint} (h : e.apply b = .ok c)
    (he : ∀ x, e ≠ change x) : ∃ ds, c = { b with dimensions := ds } := by
  cases e with
  | change x => exact absurd rfl (he x)
  | addDimension d =>
    rw [apply_addDimension h]
    exact upsertDimension_eq b d
  | removeDimension name => exact ⟨_, apply_removeDimension h⟩
  | addOptions name options => exact ⟨_, modifyDimension?_eq (apply_addOptions h)⟩
  | removeOptions name options => exact ⟨_, modifyDimension?_eq (apply_removeOptions h)⟩

/-- No change touches the id. -/
theorem apply_id_etag {e : FilterEdit} {b c : Blueprint} (h : e.apply b = .ok c) :
    c.id = b.id ∧ c.etag = b.etag := by
  by_cases he : ∃ x, e = change x
  · obtain ⟨x, rfl⟩ := he
    rw [apply_change h]
    exact ⟨rfl, rfl⟩
  · obtain ⟨ds, rfl⟩ := apply_eq_dimensions h fun x hx => he ⟨x, hx⟩
    exact ⟨rfl, rfl⟩

theorem isPublished_of_apply {e : FilterEdit} {b c : Blueprint} (h : e.apply b = .ok c)
    (hb : b.isPublished = true) : c.isPublished = true := by
  by_cases he : ∃ x, e = change x
  · obtain ⟨x, rfl⟩ := he
    rw [apply_change h, Blueprint.isPublished, BlueprintChange.apply, if_pos hb]
    exact hb
  · obtain ⟨ds, rfl⟩ := apply_eq_dimensions h fun x hx => he ⟨x, hx⟩
    exact hb

end FilterEdit

namespace Store

/-- An access with a change is refused, or finds that the change makes no difference, or writes the
changed blueprint. -/
theorem modifyFilter_cases {s : Store} (h : s.Sound) (now : Instant) (id : String)
    (selector : Selector) (e : FilterEdit) :
    (∃ error, s.modifyFilter now id selector e.apply = (.error error, s.touched)) ∨
    ∃ b c, s.filter? id = some b ∧ selector.accepts b.etag = true ∧ e.apply b = .ok c ∧
      ((c.tag = b.etag ∧ s.modifyFilter now id selector e.apply = (.ok c, s.touched)) ∨
       (c.tag ≠ b.etag ∧ s.modifyFilter now id selector e.apply =
          (.ok (s.restamped now c), s.keeping now (s.restamped now c)))) := by
  rw [modifyFilter_eq h now id selector fun b c hc => (FilterEdit.apply_id_etag hc).1]
  cases s.backend.failure? .modify .filters with
  | some error => exact Or.inl ⟨error, rfl⟩
  | none =>
    cases hb : s.filter? id with
    | none => exact Or.inl ⟨_, rfl⟩
    | some b =>
      by_cases ha : selector.accepts b.etag = true
      · cases hc : e.apply b with
        | error error => exact Or.inl ⟨error, by simp only [if_pos ha, hc]⟩
        | ok c =>
          refine Or.inr ⟨b, c, rfl, ha, hc, ?_⟩
          by_cases ht : c.tag = b.etag
          · exact Or.inl ⟨ht, by simp only [if_pos ha, hc, if_pos ht]⟩
          · exact Or.inr ⟨ht, by simp only [if_pos ha, hc, if_neg ht]⟩
      · exact Or.inl ⟨_, by simp only [if_neg ha]; rfl⟩

theorem modifyFilter_of_error {s s' : Store} (sound : s.Sound) {time : Instant} {id : String}
    {selector : Selector} {e : FilterEdit} {error : StoreError}
    (h : s.modifyFilter time id selector e.apply = (.error error, s')) : s' = s.touched := by
  rcases modifyFilter_cases sound time id selector e with
    ⟨_, he⟩ | ⟨_, _, -, -, -, ⟨-, he⟩ | ⟨-, he⟩⟩
  · exact (Prod.ext_iff.mp (he.symm.trans h)).2.symm
  all_goals simp [he] at h

/-- A change under a selector that the stored tag does not meet is a conflict, if it is not the backend
that fails. -/
theorem modifyFilter_conflict {s : Store} (h : s.Sound) (now : Instant) {id : String}
    {selector : Selector} (e : FilterEdit) {b : Blueprint} (hb : s.filter? id = some b)
    (ha : selector.accepts b.etag = false) :
    (s.modifyFilter now id selector e.apply).1 =
      .error ((s.backend.failure? .modify .filters).getD (.conflict id)) := by
  rw [modifyFilter_eq h now id selector fun b c hc => (FilterEdit.apply_id_etag hc).1, hb]
  cases s.backend.failure? .modify .filters with
  | some error => rfl
  | none => simp [ha]

/-- No change is a conflict by itself: where there is one, another tag is stored. -/
theorem modifyFilter_of_conflict {s : Store} (h : s.Sound) {now : Instant} {id key : String}
    {selector : Selector} {e : FilterEdit}
    (hc : (s.modifyFilter now id selector e.apply).1 = .error (.conflict key)) :
    ∃ z, s.filter? id = some z ∧ selector.accepts z.etag = false := by
  rw [modifyFilter_eq h now id selector fun b c hc => (FilterEdit.apply_id_etag hc).1] at hc
  cases hf : s.backend.failure? .modify .filters with
  | some error =>
    obtain ⟨detail, -, rfl⟩ := Option.map_eq_some_iff.mp hf
    simp [hf] at hc
  | none =>
    cases hb : s.filter? id with
    | none => simp [hf, hb] at hc
    | some b =>
      by_cases ha : selector.accepts b.etag = true
      · cases he : e.apply b with
        | error error =>
          simp only [hf, hb, if_pos ha, he, Except.error.injEq] at hc
          subst hc
          exact absurd rfl (FilterEdit.apply_ne_conflict he key)
        | ok c =>
          by_cases ht : c.tag = b.etag <;> simp [hf, hb, ha, he, ht] at hc
      · exact ⟨b, rfl, Bool.eq_false_iff.mpr ha⟩

theorem getFilter_cases {s : Store} (h : s.Sound) (id : String) (selector : Selector) :
    (∃ error, s.getFilter id selector = (.error error, s.touched)) ∨
    ∃ b, s.filter? id = some b ∧ selector.accepts b.etag = true ∧
      s.getFilter id selector = (.ok b, s.touched) := by
  rw [getFilter_eq h]
  cases s.backend.failure? .get .filters with
  | some error => exact Or.inl ⟨error, rfl⟩
  | none =>
    cases s.filter? id with
    | none => exact Or.inl ⟨_, rfl⟩
    | some b =>
      by_cases ha : selector.accepts b.etag = true
      · exact Or.inr ⟨b, rfl, ha, by simp only [if_pos ha]⟩
      · exact Or.inl ⟨_, by simp only [if_neg ha]; rfl⟩

/-- An addition fails, or puts the blueprint under a key that was free. -/
theorem addFilter_cases {s : Store} (h : s.Sound) (now : Instant) (b : Blueprint) :
    (∃ error, s.addFilter now b =
      (.error error, { s.touched with clock := s.clock.advanced now })) ∨
    (s.filter? b.id = none ∧
      s.addFilter now b = (.ok (s.stampedFilter now b), s.keeping now (s.stampedFilter now b))) := by
  rw [addFilter_eq h]
  cases s.backend.failure? .insert .filters with
  | some error => exact Or.inl ⟨error, rfl⟩
  | none =>
    cases s.filter? b.id with
    | none => exact Or.inr ⟨rfl, rfl⟩
    | some _ => exact Or.inl ⟨_, rfl⟩

section

variable {s : Store} {id : String} {selector : Selector} {now : Instant} {error : StoreError}

/-- A reading fails with the backend, or because nothing is there or something with another tag. -/
theorem getFilter_error (h : s.Sound) (he : (s.getFilter id selector).1 = .error error) :
    s.backend.failure? .get .filters = some error ∨ error = .filterNotFound id ∨
      error = .conflict id := by
  rw [getFilter_eq h] at he
  cases hf : s.backend.failure? .get .filters with
  | some failure =>
    rw [hf] at he
    exact Or.inl (congrArg some (Except.error.inj he))
  | none =>
    cases hb : s.filter? id with
    | none =>
      simp only [hf, hb] at he
      exact Or.inr (Or.inl (Except.error.inj he).symm)
    | some b =>
      by_cases ha : selector.accepts b.etag = true
      · simp only [hf, hb, if_pos ha] at he
        cases he
      · simp only [hf, hb, if_neg ha] at he
        exact Or.inr (Or.inr (Except.error.inj he).symm)

/-- A change of a blueprint as a whole refuses for no reason of its own. -/
theorem updateFilter_error (h : s.Sound) {c : BlueprintChange}
    (he : (s.updateFilter now id c selector).1 = .error error) :
    s.backend.failure? .modify .filters = some error ∨ error = .filterNotFound id ∨
      error = .conflict id := by
  rw [updateFilter_eq_modifyFilter,
    modifyFilter_eq h now id selector fun b c hc => (FilterEdit.apply_id_etag hc).1] at he
  cases hf : s.backend.failure? .modify .filters with
  | some failure =>
    rw [hf] at he
    exact Or.inl (congrArg some (Except.error.inj he))
  | none =>
    cases hb : s.filter? id with
    | none =>
      simp only [hf, hb] at he
      exact Or.inr (Or.inl (Except.error.inj he).symm)
    | some b =>
      by_cases ha : selector.accepts b.etag = true
      · simp only [hf, hb, if_pos ha, FilterEdit.apply] at he
        by_cases ht : (c.apply b).tag = b.etag <;> simp [ht] at he
      · simp only [hf, hb, if_neg ha] at he
        exact Or.inr (Or.inr (Except.error.inj he).symm)

theorem updateFilter_id (h : s.Sound) {c : BlueprintChange} {b : Blueprint}
    (hb : (s.updateFilter now id c selector).1 = .ok b) : b.id = id := by
  rw [updateFilter_eq_modifyFilter] at hb
  rcases modifyFilter_cases h now id selector (.change c) with
    ⟨_, he⟩ | ⟨x, y, hx, -, hy, ⟨-, he⟩ | ⟨-, he⟩⟩
  all_goals rw [he] at hb
  · cases hb
  all_goals
    obtain rfl := Except.ok.inj hb
    exact (FilterEdit.apply_id_etag hy).1.trans (h.id_eq hx)

end

end Store
end DatasetFilters
