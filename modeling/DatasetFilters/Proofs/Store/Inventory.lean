import DatasetFilters.Proofs.Store.Outputs

namespace DatasetFilters

namespace Table

variable {κ α : Type} [DecidableEq κ]

theorem put_put (key : κ) (value value' : α) (l : List (κ × α)) :
    put key value' (put key value l) = put key value' l := by
  induction l with
  | nil => simp [put]
  | cons e es ih =>
    by_cases he : e.1 = key
    · simp [put, he]
    · simp [put, he, ih]

theorem put_of_lookup_eq_none {key : κ} {l : List (κ × α)} (h : l.lookup key = none) (value : α) :
    put key value l = l ++ [(key, value)] := by
  induction l with
  | nil => rfl
  | cons e es ih =>
    rw [lookup_cons] at h
    by_cases hk : key = e.1
    · simp [hk] at h
    · rw [if_neg hk] at h
      rw [put, if_neg (Ne.symm hk), ih h, List.cons_append]

/-- Of the entries of a kind, a new value takes the place of the old one. -/
theorem countP_put (p : α → Bool) (key : κ) (value : α) (l : List (κ × α)) :
    (put key value l).countP (fun e => p e.2) + ((l.lookup key).any p).toNat =
      l.countP (fun e => p e.2) + (p value).toNat := by
  induction l with
  | nil => cases h : p value <;> simp [put, h]
  | cons e es ih =>
    rw [put, lookup_cons]
    by_cases hk : e.1 = key
    · rw [if_pos hk, if_pos hk.symm, List.countP_cons, List.countP_cons, Option.any_some]
      cases p value <;> cases p e.2 <;> simp
    · rw [if_neg hk, if_neg (Ne.symm hk), List.countP_cons, List.countP_cons]
      omega

theorem map_fst_put_of_mem {key : κ} {l : List (κ × α)} (h : key ∈ l.map (·.1)) (value : α) :
    (put key value l).map (·.1) = l.map (·.1) := by
  induction l with
  | nil => simp at h
  | cons e es ih =>
    rw [put]
    by_cases hk : e.1 = key
    · rw [if_pos hk, List.map_cons, List.map_cons, hk]
    · have rest : key ∈ es.map (·.1) := by
        rcases List.mem_cons.mp h with same | rest
        · exact absurd same.symm hk
        · exact rest
      rw [if_neg hk, List.map_cons, List.map_cons, ih rest]

theorem map_fst_put_of_not_mem {key : κ} {l : List (κ × α)} (h : key ∉ l.map (·.1)) (value : α) :
    (put key value l).map (·.1) = l.map (·.1) ++ [key] := by
  induction l with
  | nil => rfl
  | cons e es ih =>
    rw [List.map_cons, List.mem_cons, not_or] at h
    rw [put, if_neg (Ne.symm h.1), List.map_cons, ih h.2, List.map_cons, List.cons_append]

/-- Keys stay distinct. -/
theorem nodup_put {l : List (κ × α)} (h : (l.map (·.1)).Nodup) (key : κ) (value : α) :
    ((put key value l).map (·.1)).Nodup := by
  by_cases hk : key ∈ l.map (·.1)
  · rwa [map_fst_put_of_mem hk]
  · rw [map_fst_put_of_not_mem hk]
    refine List.nodup_append.mpr ⟨h, by simp, ?_⟩
    intro a ha b hb
    rw [List.mem_singleton.mp hb]
    rintro rfl
    exact hk ha

theorem lookup_eq_some_of_mem {l : List (κ × α)} (h : (l.map (·.1)).Nodup) {e : κ × α} (he : e ∈ l) :
    l.lookup e.1 = some e.2 := by
  induction l with
  | nil => simp at he
  | cons e' es ih =>
    rw [List.map_cons, List.nodup_cons] at h
    rw [lookup_cons]
    rcases List.mem_cons.mp he with rfl | he
    · rw [if_pos rfl]
    · have other : e.1 ≠ e'.1 := fun same => h.1 (same ▸ List.mem_map_of_mem he)
      rw [if_neg other, ih h.2 he]

theorem mem_of_lookup_eq_some {l : List (κ × α)} {key : κ} {value : α}
    (h : l.lookup key = some value) : (key, value) ∈ l := by
  obtain ⟨l₁, l₂, rfl, -⟩ := List.lookup_eq_some_iff.mp h
  exact List.mem_append_right _ List.mem_cons_self

end Table

namespace Store

/-- The stored blueprints. -/
def blueprints (s : Store) : List Blueprint :=
  s.backend.filters.filterMap fun e => Blueprint.decode? e.2

/-- The stored outputs. -/
def outputs (s : Store) : List Output :=
  s.backend.outputs.filterMap fun e => Output.decode? e.2

/-- Neither collection has a key twice, so that each document is counted once. -/
structure Keyed (s : Store) : Prop where
  filters : (s.backend.filters.map (·.1)).Nodup
  outputs : (s.backend.outputs.map (·.1)).Nodup

theorem Keyed.of_empty {s : Store} (filters : s.backend.filters = [])
    (outputs : s.backend.outputs = []) : s.Keyed := by
  constructor
  · rw [filters]
    exact List.nodup_nil
  · rw [outputs]
    exact List.nodup_nil

theorem Keyed.of_backend_eq {s s' : Store} (h : s.Keyed)
    (filters : s'.backend.filters = s.backend.filters)
    (outputs : s'.backend.outputs = s.backend.outputs) : s'.Keyed := by
  constructor
  · rw [filters]
    exact h.filters
  · rw [outputs]
    exact h.outputs

variable {s : Store}

theorem Keyed.keeping (h : s.Keyed) (now : Instant) (b : Blueprint) : (s.keeping now b).Keyed :=
  ⟨Table.nodup_put h.filters b.id b.encode, h.outputs⟩

theorem Keyed.puttingOutput (h : s.Keyed) (now : Instant) (key : String) (o : Output) :
    (s.puttingOutput now key o).Keyed :=
  ⟨h.filters, Table.nodup_put h.outputs key o.encode⟩

/-- What is listed is what is found under its id. -/
theorem mem_blueprints (keyed : s.Keyed) (sound : s.Sound) {b : Blueprint} :
    b ∈ s.blueprints ↔ s.filter? b.id = some b := by
  rw [blueprints, List.mem_filterMap]
  constructor
  · rintro ⟨e, he, decoded⟩
    have found : s.filter? e.1 = some b := by
      rw [filter?, Backend.find?, Backend.documents, Table.lookup_eq_some_of_mem keyed.filters he]
      exact decoded
    rw [sound.id_eq found]
    exact found
  · intro found
    rw [filter?, Option.bind_eq_some_iff] at found
    obtain ⟨text, lookup, decoded⟩ := found
    exact ⟨(b.id, text), Table.mem_of_lookup_eq_some lookup, decoded⟩

theorem mem_outputs (keyed : s.Keyed) (keeps : s.KeepsOutputs) {o : Output} :
    o ∈ s.outputs ↔ s.output? o.id = some o := by
  rw [outputs, List.mem_filterMap]
  constructor
  · rintro ⟨e, he, decoded⟩
    have found : s.output? e.1 = some o := by
      rw [output?, Backend.find?, Backend.documents, Table.lookup_eq_some_of_mem keyed.outputs he]
      exact decoded
    rw [keeps.id_eq found]
    exact found
  · intro found
    rw [output?, Option.bind_eq_some_iff] at found
    obtain ⟨text, lookup, decoded⟩ := found
    exact ⟨(o.id, text), Table.mem_of_lookup_eq_some lookup, decoded⟩

theorem countP_blueprints (s : Store) (p : Blueprint → Bool) :
    s.blueprints.countP p = s.backend.filters.countP fun e => (Blueprint.decode? e.2).any p := by
  rw [blueprints, List.countP_filterMap]
  refine List.countP_congr fun e _ => ?_
  cases Blueprint.decode? e.2 <;> simp

theorem countP_outputs (s : Store) (p : Output → Bool) :
    s.outputs.countP p = s.backend.outputs.countP fun e => (Output.decode? e.2).any p := by
  rw [outputs, List.countP_filterMap]
  refine List.countP_congr fun e _ => ?_
  cases Output.decode? e.2 <;> simp

/-- A write takes away what it replaces and adds what it puts, so the blueprints of a kind change in
number as these two are of the kind. -/
theorem countP_blueprints_keeping (s : Store) (now : Instant) (b : Blueprint) (p : Blueprint → Bool) :
    (s.keeping now b).blueprints.countP p + ((s.filter? b.id).any p).toNat =
      s.blueprints.countP p + (p b).toNat := by
  have puts := Table.countP_put (fun text => (Blueprint.decode? text).any p) b.id b.encode
    s.backend.filters
  rw [Blueprint.decode?_encode, Option.any_some] at puts
  rw [countP_blueprints, countP_blueprints, ← puts, filter?, Backend.find?, Backend.documents]
  cases s.backend.filters.lookup b.id <;> rfl

/-- The outputs of a kind change in number as what is replaced and what is put are of the kind. -/
theorem countP_outputs_puttingOutput (s : Store) (now : Instant) (key : String) (o : Output)
    (p : Output → Bool) :
    (s.puttingOutput now key o).outputs.countP p + ((s.output? key).any p).toNat =
      s.outputs.countP p + (p o).toNat := by
  have puts := Table.countP_put (fun text => (Output.decode? text).any p) key o.encode
    s.backend.outputs
  rw [Output.decode?_encode, Option.any_some] at puts
  rw [countP_outputs, countP_outputs, ← puts, output?, Backend.find?, Backend.documents]
  cases s.backend.outputs.lookup key <;> rfl

end Store
end DatasetFilters
