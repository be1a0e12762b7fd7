import DatasetFilters.Blueprint.Basic

namespace DatasetFilters

namespace Dimension

theorem nodup_eraseDups (options : List String) : options.eraseDups.Nodup := by
  cases options with
  | nil => simp
  | cons o rest =>
    rw [List.eraseDups_cons, List.nodup_cons, List.mem_eraseDups]
    refine ⟨by simp, nodup_eraseDups _⟩
termination_by options.length
decreasing_by exact Nat.lt_succ_of_le (List.length_filter_le _ _)

theorem eraseDups_of_nodup {options : List String} (h : options.Nodup) :
    options.eraseDups = options := by
  induction options with
  | nil => simp
  | cons o rest ih =>
    obtain ⟨apart, nodup⟩ := List.nodup_cons.mp h
    have kept : rest.filter (fun x => !x == o) = rest := by
      refine List.filter_eq_self.mpr fun x hx => ?_
      simpa using fun same : x = o => apart (same ▸ hx)
    rw [List.eraseDups_cons, kept, ih nodup]

theorem filter_eraseDups (p : String → Bool) (options : List String) :
    options.eraseDups.filter p = (options.filter p).eraseDups := by
  cases options with
  | nil => rfl
  | cons o rest =>
    have rest_eq := filter_eraseDups p (rest.filter fun x => !x == o)
    rw [List.eraseDups_cons, List.filter_cons, List.filter_cons, rest_eq, List.filter_filter]
    by_cases ho : p o = true
    · rw [if_pos ho, if_pos ho, List.eraseDups_cons, List.filter_filter]
      simp only [Bool.and_comm]
    · -- what equals an option that is dropped is dropped itself
      have same : (rest.filter fun x => p x && !x == o) = rest.filter p := by
        refine List.filter_congr fun x _ => ?_
        by_cases hx : x = o
        · simp [hx, ho]
        · simp [hx]
      rw [if_neg ho, if_neg ho, same]
termination_by options.length
decreasing_by exact Nat.lt_succ_of_le (List.length_filter_le _ _)

/-- Options that are inserted stand behind those that were there, each where it first stands. -/
theorem foldl_insertOption (acc options : List String) :
    options.foldl insertOption acc = acc ++ (options.removeAll acc).eraseDups := by
  induction options generalizing acc with
  | nil => simp
  | cons o rest ih =>
    rw [List.foldl_cons, ih]
    by_cases known : o ∈ acc
    · have passed : (o :: rest).removeAll acc = rest.removeAll acc := by
        simp [List.removeAll, known]
      rw [insertOption, if_pos (List.contains_iff_mem.mpr known), passed]
    · have kept : (o :: rest).removeAll acc = o :: rest.removeAll acc := by
        simp [List.removeAll, known]
      have later : rest.removeAll (acc ++ [o]) = (rest.removeAll acc).filter fun x => !x == o := by
        rw [List.removeAll, List.removeAll, List.filter_filter]
        refine List.filter_congr fun x _ => ?_
        by_cases hx : x = o <;> simp [hx]
      rw [insertOption, if_neg (mt List.contains_iff_mem.mp known), kept, List.eraseDups_cons, later,
        List.append_assoc]
      rfl

/-- Options that are inserted go behind those that were there, each once. -/
theorem insert_options (d : Dimension) (options : List String) :
    (d.insert options).options = d.options ++ (options.removeAll d.options).eraseDups :=
  foldl_insertOption d.options options

/-- Options are erased one after the other. -/
theorem erase_options (d : Dimension) (options : List String) :
    (d.erase options).options = options.foldl (fun kept o => kept.filter (· != o)) d.options := by
  unfold erase
  generalize d.options = kept
  induction options generalizing kept with
  | nil => simp
  | cons o rest ih =>
    rw [List.foldl_cons, ← ih, List.filter_filter]
    refine List.filter_congr fun x _ => ?_
    rw [List.contains_cons, Bool.not_or, Bool.and_comm]
    rfl

/-- An option that is listed twice counts once. -/
theorem insert_eraseDups (d : Dimension) (options : List String) :
    d.insert options.eraseDups = d.insert options := by
  have once : (options.eraseDups.removeAll d.options).eraseDups =
      (options.removeAll d.options).eraseDups := by
    rw [List.removeAll, filter_eraseDups, eraseDups_of_nodup (nodup_eraseDups _), List.removeAll]
  rw [insert, insert, foldl_insertOption, foldl_insertOption, once]

theorem erase_eraseDups (d : Dimension) (options : List String) :
    d.erase options.eraseDups = d.erase options := by
  have same : options.eraseDups.contains = options.contains := by
    funext o
    rw [Bool.eq_iff_iff, List.contains_iff_mem, List.contains_iff_mem, List.mem_eraseDups]
  rw [erase, erase, same]

theorem insert_eq_self {d : Dimension} {options : List String}
    (known : ∀ o ∈ options, o ∈ d.options) : d.insert options = d := by
  have nothing : options.removeAll d.options = [] := by
    rw [List.removeAll, List.filter_eq_nil_iff]
    simpa using known
  rw [insert, foldl_insertOption, nothing, List.eraseDups_nil, List.append_nil]

theorem erase_eq_self {d : Dimension} {options : List String}
    (absent : ∀ o ∈ options, o ∉ d.options) : d.erase options = d := by
  have kept : d.options.filter (fun o => !options.contains o) = d.options := by
    rw [List.filter_eq_self]
    intro o there
    simpa using fun erased => absent o erased there
  rw [erase, kept]

/-- The ids that the catalog is asked for are those given that are not empty, each once. -/
theorem distinct_eq (ids : List String) :
    distinct ids = (ids.filter fun id => !id.isEmpty).eraseDups := by
  have folded : distinct ids = (ids.filter fun id => !id.isEmpty).foldl insertOption [] := by
    rw [List.foldl_filter, distinct]
    congr 1
    funext acc id
    cases id.isEmpty <;> rfl
  rw [folded, foldl_insertOption]
  simp [List.removeAll]

theorem nodup_distinct (ids : List String) : (distinct ids).Nodup := by
  rw [distinct_eq]
  exact nodup_eraseDups _

theorem mem_insert {d : Dimension} {o : String} {options : List String} :
    o ∈ (d.insert options).options ↔ o ∈ d.options ∨ o ∈ options := by
  rw [insert_options, List.mem_append, List.mem_eraseDups, List.removeAll, List.mem_filter]
  by_cases h : o ∈ d.options <;> simp [h]

theorem mem_erase {d : Dimension} {o : String} {options : List String} :
    o ∈ (d.erase options).options ↔ o ∈ d.options ∧ o ∉ options := by
  simp [erase]

theorem mem_distinct {o : String} {ids : List String} : o ∈ distinct ids ↔ o ∈ ids ∧ o ≠ "" := by
  rw [distinct_eq, List.mem_eraseDups, List.mem_filter]
  simp

end Dimension

namespace Blueprint

/-- Every dimension after an edit of one was there before, or is the edited one. -/
theorem mem_modifyFirst {name : String} {f : Dimension → Dimension} {d : Dimension}
    {ds : List Dimension} (h : d ∈ modifyFirst name f ds) :
    d ∈ ds ∨ ∃ old ∈ ds, old.name = name ∧ d = f old := by
  induction ds with
  | nil => simp [modifyFirst] at h
  | cons first rest ih =>
    rw [modifyFirst] at h
    by_cases hname : first.name = name
    · rw [if_pos hname] at h
      rcases List.mem_cons.mp h with rfl | h
      · exact Or.inr ⟨first, List.mem_cons_self, hname, rfl⟩
      · exact Or.inl (List.mem_cons_of_mem _ h)
    · rw [if_neg hname] at h
      rcases List.mem_cons.mp h with rfl | h
      · exact Or.inl List.mem_cons_self
      · rcases ih h with h | ⟨old, hold, hn, rfl⟩
        · exact Or.inl (List.mem_cons_of_mem _ h)
        · exact Or.inr ⟨old, List.mem_cons_of_mem _ hold, hn, rfl⟩

/-- Every dimension after an addition was there before, or is the one added. -/
theorem mem_upsertDimension {b : Blueprint} {d d' : Dimension}
    (h : d' ∈ (b.upsertDimension d).dimensions) :
    d' ∈ b.dimensions ∨ (d'.name = d.name ∧ d'.options = d.options) := by
  unfold upsertDimension modifyDimension? at h
  by_cases hd : (b.dimension? d.name).isSome = true
  · rw [if_pos hd, Option.getD_some] at h
    rcases mem_modifyFirst h with h | ⟨old, -, hname, rfl⟩
    · exact Or.inl h
    · exact Or.inr ⟨hname, rfl⟩
  · rw [if_neg hd, Option.getD_none] at h
    rcases List.mem_append.mp h with h | h
    · exact Or.inl h
    · exact Or.inr (by rw [List.mem_singleton.mp h]; exact ⟨rfl, rfl⟩)

end Blueprint
end DatasetFilters
