import DatasetFilters.Proofs.Dimension
import DatasetFilters.Proofs.Etag.Observation
import DatasetFilters.Service.Selections

namespace DatasetFilters

namespace PatchOperation

/-- The ids of an operation that are not blank, each where it first stands. -/
def ids (o : PatchOperation) : List String := (o.values.filter fun v => !Text.isBlankText v).eraseDups

/-- The options after an operation: an addition puts those that are new behind the options that were
there, a removal takes its ids away. -/
def revise (o : PatchOperation) (options : List String) : List String :=
  match o.action with
  | .add => options ++ o.ids.removeAll options
  | .remove => options.removeAll o.ids

end PatchOperation

/-- The options after the operations of a patch. -/
def Patch.revise (options : List String) (operations : List PatchOperation) : List String :=
  operations.foldl (fun options o => o.revise options) options

namespace PatchOperation

/-- An operation after which the options are the same set had no effect. -/
theorem revise_eq_of_mem_iff {o : PatchOperation} {options : List String}
    (h : ∀ v, v ∈ o.revise options ↔ v ∈ options) : o.revise options = options := by
  unfold revise at h ⊢
  cases action : o.action with
  | add =>
    simp only [action] at h ⊢
    have nothing : o.ids.removeAll options = [] := by
      refine List.eq_nil_iff_forall_not_mem.mpr fun v hv => ?_
      have known := (h v).mp (List.mem_append_right _ hv)
      simp [List.removeAll, known] at hv
    rw [nothing, List.append_nil]
  | remove =>
    simp only [action] at h ⊢
    refine List.filter_eq_self.mpr fun v hv => ?_
    exact (List.mem_filter.mp ((h v).mpr hv)).2

end PatchOperation

namespace Selections

/-- An operation is about its ids that are not blank, each once. -/
theorem operands_eq (o : PatchOperation) : operands o = o.ids := by
  have kept {v : String} (h : Text.isBlankText v = false) : v.isEmpty = false := by
    refine Bool.eq_false_iff.mpr fun empty => ?_
    rw [String.isEmpty_iff.mp empty] at h
    exact absurd h (by decide)
  rw [operands, Dimension.distinct_eq, PatchOperation.ids, List.filter_filter]
  congr 1
  refine List.filter_congr fun v _ => ?_
  cases blank : Text.isBlankText v with
  | true => simp
  | false => simp [kept blank]

/-- Erasing through the mirror that a patch keeps is the removal. -/
theorem erase_operands {o : PatchOperation} (removes : o.action = .remove) (d : Dimension) :
    d.erase (operands o) = { d with options := o.revise d.options } := by
  rw [operands_eq, PatchOperation.revise, removes]
  rfl

/-- Inserting what the mirror lacks is the addition. -/
theorem insert_operands {o : PatchOperation} (adds : o.action = .add) (d : Dimension) :
    d.insert ((operands o).filter fun v => !d.has v) =
      { d with options := o.revise d.options } := by
  have new : (operands o).filter (fun v => !d.has v) = o.ids.removeAll d.options := by
    rw [operands_eq]
    rfl
  have apart : (o.ids.removeAll d.options).removeAll d.options = o.ids.removeAll d.options := by
    simp [List.removeAll]
  have once : (o.ids.removeAll d.options).eraseDups = o.ids.removeAll d.options :=
    Dimension.eraseDups_of_nodup ((Dimension.nodup_eraseDups _).filter _)
  have inserted := d.insert_options (o.ids.removeAll d.options)
  rw [apart, once] at inserted
  rw [new, PatchOperation.revise, adds, ← inserted]
  rfl

end Selections

namespace Blueprint

/-- The first dimension of a name stands somewhere, and an edit of it changes nothing around it. -/
theorem exists_modifyFirst {name : String} {d : Dimension} {ds : List Dimension}
    (h : ds.find? (·.name == name) = some d) : d.name = name ∧ ∃ before after,
      ds = before ++ d :: after ∧ (∀ x ∈ before, x.name ≠ name) ∧
        ∀ f, modifyFirst name f ds = before ++ f d :: after := by
  induction ds with
  | nil => simp at h
  | cons x rest ih =>
    by_cases hx : x.name = name
    · rw [List.find?_cons_of_pos (by simpa using hx), Option.some.injEq] at h
      subst h
      refine ⟨hx, [], rest, rfl, by simp, fun f => ?_⟩
      rw [modifyFirst, if_pos hx]
      rfl
    · rw [List.find?_cons_of_neg (by simpa using hx)] at h
      obtain ⟨named, before, after, rfl, others, edited⟩ := ih h
      refine ⟨named, x :: before, after, rfl, ?_, fun f => ?_⟩
      · exact List.forall_mem_cons.mpr ⟨hx, others⟩
      · rw [modifyFirst, if_neg hx, edited f]
        rfl

/-- A blueprint with other options in the first dimension of a name. -/
def withOptions (b : Blueprint) (name : String) (options : List String) : Blueprint :=
  { b with dimensions := modifyFirst name (fun d => { d with options }) b.dimensions }

/-- A blueprint after operations of a patch of one of its dimensions. -/
def patched (b : Blueprint) (d : Dimension) (operations : List PatchOperation) : Blueprint :=
  b.withOptions d.name (Patch.revise d.options operations)

variable {b : Blueprint} {d : Dimension} {name : String}

/-- An edit of a dimension changes nothing but its options. -/
theorem modifyDimension?_eq_withOptions (h : b.dimension? name = some d) (f : Dimension → Dimension)
    (named : ∀ d, (f d).name = d.name) :
    b.modifyDimension? name f = some (b.withOptions name (f d).options) := by
  obtain ⟨-, before, after, -, -, edited⟩ := exists_modifyFirst h
  have same : f d = { d with options := (f d).options } := by
    rw [← named d]
  rw [modifyDimension?, h, withOptions, edited f, edited]
  simp only [Option.isSome_some, if_true]
  rw [← same]

theorem dimension?_withOptions (h : b.dimension? name = some d) (options : List String) :
    (b.withOptions name options).dimension? name = some { d with options } := by
  obtain ⟨named, before, after, -, others, edited⟩ := exists_modifyFirst h
  have passed : before.find? (·.name == name) = none := by
    simpa [List.find?_eq_none] using others
  rw [dimension?, withOptions, edited, List.find?_append, passed]
  simp [named]

theorem patched_nil (h : b.dimension? d.name = some d) : b.patched d [] = b := by
  obtain ⟨-, before, after, split, -, edited⟩ := exists_modifyFirst h
  rw [patched, Patch.revise, List.foldl_nil, withOptions, edited, ← split]

theorem modifyFirst_modifyFirst {f g : Dimension → Dimension} (named : ∀ d, (g d).name = d.name)
    (ds : List Dimension) :
    modifyFirst name f (modifyFirst name g ds) = modifyFirst name (fun d => f (g d)) ds := by
  induction ds with
  | nil => rfl
  | cons d rest ih =>
    by_cases h : d.name = name
    · simp only [modifyFirst, h, named, if_true]
    · simp only [modifyFirst, h, if_false, ih]

theorem withOptions_withOptions (b : Blueprint) (name : String) (options options' : List String) :
    (b.withOptions name options).withOptions name options' = b.withOptions name options' := by
  rw [withOptions, withOptions, withOptions]
  simp only
  rw [modifyFirst_modifyFirst]
  exact fun _ => rfl

theorem patched_cons (b : Blueprint) (d : Dimension) (o : PatchOperation)
    (rest : List PatchOperation) :
    (b.patched d [o]).patched { d with options := o.revise d.options } rest = b.patched d (o :: rest) :=
  withOptions_withOptions b d.name _ _

/-- An operation that leaves the options as they were leaves the blueprint. -/
theorem patched_of_revise_eq {o : PatchOperation} (h : b.dimension? d.name = some d)
    (same : o.revise d.options = d.options) : b.patched d [o] = b :=
  (congrArg (b.withOptions d.name) same).trans (patched_nil h)

/-- What can be observed of a patched blueprint tells the options as a set. -/
theorem mem_revise_congr {l l' : List PatchOperation} (h : b.dimension? d.name = some d)
    (same : (b.patched d l).observed = (b.patched d l').observed) (v : String) :
    v ∈ Patch.revise d.options l ↔ v ∈ Patch.revise d.options l' := by
  obtain ⟨-, before, after, -, -, edited⟩ := exists_modifyFirst h
  have dimensions := congrArg Observation.dimensions same
  simp only [observed, patched, withOptions, edited, List.map_append, List.map_cons,
    List.append_cancel_left_eq, List.cons.injEq, Dimension.observed, Prod.mk.injEq] at dimensions
  rw [← Content.mem_sorted, dimensions.1.2, Content.mem_sorted]

end Blueprint
end DatasetFilters
