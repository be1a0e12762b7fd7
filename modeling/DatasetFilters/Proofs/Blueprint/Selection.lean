import DatasetFilters.Proofs.Dimension
import DatasetFilters.Proofs.Etag.Observation
import DatasetFilters.Proofs.Store.Edit
import Mathlib.Data.Finset.Basic

namespace DatasetFilters

/-- Dimensions in their order, each named once, with the set of the options selected on it: an
ordered map from names to sets of options. -/
@[ext]
structure Selection where
  dimensions : List (String × Finset String)
  distinct : (dimensions.map Prod.fst).Nodup
  deriving DecidableEq

inductive DimensionEdit where
  /-- Appends a dimension, or replaces the options of the one of its name. -/
  | put (name : String) (options : Finset String)
  | delete (name : String)
  | insert (name : String) (options : Finset String)
  | erase (name : String) (options : Finset String)
  deriving DecidableEq

namespace Selection

variable {s : Selection} {name : String} {f g : Finset String → Finset String}

def names (s : Selection) : List String := s.dimensions.map Prod.fst

def modify (s : Selection) (name : String) (f : Finset String → Finset String) : Selection where
  dimensions := s.dimensions.map fun d => if d.1 = name then (d.1, f d.2) else d
  distinct := by
    have same : (s.dimensions.map fun d => if d.1 = name then (d.1, f d.2) else d).map Prod.fst =
        s.dimensions.map Prod.fst := by
      rw [List.map_map]
      refine List.map_congr_left fun d _ => ?_
      simp only [Function.comp]
      split <;> rfl
    rw [same]
    exact s.distinct

def append (s : Selection) (name : String) (options : Finset String) (new : name ∉ s.names) :
    Selection where
  dimensions := s.dimensions ++ [(name, options)]
  distinct := by
    rw [List.map_append]
    exact s.distinct.append (List.nodup_singleton name) (List.disjoint_singleton.mpr new)

def remove (s : Selection) (name : String) : Selection where
  dimensions := s.dimensions.filter (·.1 != name)
  distinct := (List.filter_sublist.map Prod.fst).nodup s.distinct

@[simp] theorem dimensions_modify : (s.modify name f).dimensions =
    s.dimensions.map fun d => if d.1 = name then (d.1, f d.2) else d := rfl

@[simp] theorem dimensions_append {options : Finset String} (new : name ∉ s.names) :
    (s.append name options new).dimensions = s.dimensions ++ [(name, options)] := rfl

@[simp] theorem dimensions_remove :
    (s.remove name).dimensions = s.dimensions.filter (·.1 != name) := rfl

/-- A selection after an edit. Only what is there can be deleted, and options are inserted and erased
on what is there. -/
def edit? (s : Selection) : DimensionEdit → Option Selection
  | .put name options =>
    if h : name ∈ s.names then some (s.modify name fun _ => options)
    else some (s.append name options h)
  | .delete name => if name ∈ s.names then some (s.remove name) else none
  | .insert name options => if name ∈ s.names then some (s.modify name (· ∪ options)) else none
  | .erase name options => if name ∈ s.names then some (s.modify name (· \ options)) else none

def editAll? (s : Selection) (edits : List DimensionEdit) : Option Selection :=
  edits.foldlM edit? s

@[simp] theorem editAll?_singleton (s : Selection) (edit : DimensionEdit) :
    s.editAll? [edit] = s.edit? edit := by
  rw [editAll?, List.foldlM_cons]
  exact bind_pure _

theorem editAll?_append (s : Selection) (edits edits' : List DimensionEdit) :
    s.editAll? (edits ++ edits') = (s.editAll? edits).bind (·.editAll? edits') :=
  List.foldlM_append

theorem mem_names {options : Finset String} (h : (name, options) ∈ s.dimensions) : name ∈ s.names :=
  List.mem_map.mpr ⟨_, h, rfl⟩

/-- Dimensions are told apart by their names. -/
theorem eq_of_mem {options options' : Finset String} (h : (name, options) ∈ s.dimensions)
    (h' : (name, options') ∈ s.dimensions) : options = options' :=
  (Prod.ext_iff.mp (List.inj_on_of_nodup_map s.distinct h h' rfl)).2

theorem modify_congr {options : Finset String} (h : (name, options) ∈ s.dimensions)
    (same : f options = g options) : s.modify name f = s.modify name g := by
  refine Selection.ext (List.map_congr_left fun d hd => ?_)
  by_cases hname : d.1 = name
  · subst hname
    rw [if_pos rfl, if_pos rfl, s.eq_of_mem hd h, same]
  · rw [if_neg hname, if_neg hname]

theorem modify_eq_self {options : Finset String} (h : (name, options) ∈ s.dimensions)
    (same : f options = options) : s.modify name f = s := by
  have idle : s.modify name id = s := by
    have kept : (fun d : String × Finset String => if d.1 = name then (d.1, id d.2) else d) = id := by
      funext d
      exact ite_self d
    rw [Selection.ext_iff, dimensions_modify, kept, List.map_id]
  rw [modify_congr h (g := id) same, idle]

/-- What two insertions come to depends on the options that are there. -/
theorem insert_congr {options new new' : Finset String} (h : (name, options) ∈ s.dimensions)
    (same : options ∪ new = options ∪ new') :
    s.edit? (.insert name new) = s.edit? (.insert name new') := by
  rw [edit?, edit?, modify_congr (f := (· ∪ new)) (g := (· ∪ new')) h same]

theorem insert_idle {options new : Finset String} (h : (name, options) ∈ s.dimensions)
    (known : options ∪ new = options) : s.edit? (.insert name new) = some s := by
  rw [edit?, if_pos (mem_names h), modify_eq_self h known]

theorem erase_idle {options old : Finset String} (h : (name, options) ∈ s.dimensions)
    (absent : options \ old = options) : s.edit? (.erase name old) = some s := by
  rw [edit?, if_pos (mem_names h), modify_eq_self h absent]

end Selection

/-- A dimension by its name and the set of its options. -/
def Dimension.selected (d : Dimension) : String × Finset String := (d.name, d.options.toFinset)

namespace Blueprint

variable {b b' : Blueprint} {s : Selection} {name : String}

def selected (b : Blueprint) : List (String × Finset String) := b.dimensions.map Dimension.selected

/-- A blueprint has the dimensions of a selection, in order. -/
def Shows (b : Blueprint) (s : Selection) : Prop := b.selected = s.dimensions

instance : Decidable (b.Shows s) := inferInstanceAs (Decidable (_ = _))

/-- What of a blueprint is selected under a name. -/
def selected? (b : Blueprint) (name : String) : Option (String × Finset String) :=
  b.selected.find? (·.1 == name)

theorem selected?_eq (b : Blueprint) (name : String) :
    b.selected? name = (b.dimension? name).map Dimension.selected :=
  List.find?_map

theorem selected_congr (h : b.observed = b'.observed) : b.selected = b'.selected := by
  have view (b : Blueprint) : b.selected = b.observed.dimensions.map fun d => (d.1, d.2.toFinset) := by
    rw [selected, observed, List.map_map]
    refine List.map_congr_left fun d _ => ?_
    refine Prod.ext rfl (Finset.ext fun o => ?_)
    simp [Dimension.selected, Dimension.observed, Content.mem_sorted]
  rw [view, view, h]

theorem Shows.names_eq (h : b.Shows s) : b.dimensions.map (·.name) = s.names := by
  rw [Selection.names, ← h, selected, List.map_map]
  rfl

theorem exists_shows (h : (b.dimensions.map (·.name)).Nodup) : ∃ s, b.Shows s := by
  have distinct : (b.selected.map Prod.fst).Nodup := by
    rw [selected, List.map_map]
    exact h
  exact ⟨⟨_, distinct⟩, rfl⟩

theorem Shows.mem_names (h : b.Shows s) : name ∈ s.names ↔ (b.dimension? name).isSome = true := by
  rw [← h.names_eq, dimension?, List.find?_isSome]
  simp

theorem Shows.mem_of_selected? {d : String × Finset String} (h : b.Shows s)
    (hd : b.selected? name = some d) : (name, d.2) ∈ s.dimensions := by
  have found : d.1 = name := by simpa using List.find?_some hd
  rw [← h, ← found]
  exact List.mem_of_find?_eq_some hd

/-- Where names stand once each, the first dimension of a name is the only one. -/
theorem modifyFirst_eq_map {ds : List Dimension} (h : (ds.map (·.name)).Nodup)
    (f : Dimension → Dimension) :
    modifyFirst name f ds = ds.map fun d => if d.name = name then f d else d := by
  induction ds with
  | nil => rfl
  | cons d ds ih =>
    obtain ⟨apart, distinct⟩ := List.nodup_cons.mp h
    rw [modifyFirst, List.map_cons]
    by_cases hname : d.name = name
    · have others : ds.map (fun d => if d.name = name then f d else d) = ds := by
        refine (List.map_congr_left fun d' hd' => ?_).trans (List.map_id ds)
        have other : d'.name ≠ name := by
          intro same
          exact apart (List.mem_map.mpr ⟨d', hd', same.trans hname.symm⟩)
        exact if_neg other
      rw [if_pos hname, if_pos hname, others]
    · rw [if_neg hname, if_neg hname, ih distinct]

/-- An edit of the first dimension of a name is one of the options that it shows. -/
theorem Shows.modifyDimension? {c : Blueprint} {f : Dimension → Dimension}
    {g : Finset String → Finset String} (h : b.Shows s) (edited : b.modifyDimension? name f = some c)
    (hf : ∀ d : Dimension, (f d).selected = (d.name, g d.options.toFinset)) :
    name ∈ s.names ∧ c.Shows (s.modify name g) := by
  have found : (b.dimension? name).isSome = true := by
    unfold Blueprint.modifyDimension? at edited
    split at edited
    · assumption
    · simp at edited
  refine ⟨h.mem_names.mpr found, ?_⟩
  rw [FilterEdit.modifyDimension?_eq edited, Shows, selected,
    modifyFirst_eq_map (h.names_eq ▸ s.distinct), Selection.dimensions_modify, ← h, selected,
    List.map_map, List.map_map]
  refine List.map_congr_left fun d _ => ?_
  by_cases hname : d.name = name
  · simpa [Dimension.selected, hname] using hf d
  · simp [Dimension.selected, hname]

end Blueprint

namespace Dimension

variable (d : Dimension) (options : List String)

theorem selected_insert :
    (d.insert options).selected = (d.name, d.options.toFinset ∪ options.toFinset) := by
  refine Prod.ext rfl (Finset.ext fun o => ?_)
  simp [selected, mem_insert]

theorem selected_erase :
    (d.erase options).selected = (d.name, d.options.toFinset \ options.toFinset) := by
  refine Prod.ext rfl (Finset.ext fun o => ?_)
  simp [selected, mem_erase]

end Dimension

namespace FilterEdit

/-- What a change does to the dimensions. -/
def edits : FilterEdit → List DimensionEdit
  | change _ => []
  | addDimension d => [.put d.name d.options.toFinset]
  | removeDimension name => [.delete name]
  | addOptions name options => [.insert name options.toFinset]
  | removeOptions name options => [.erase name options.toFinset]

/-- A dimension that is added takes the place of the one of its name, or goes behind all others. -/
theorem shows_upsertDimension {b : Blueprint} {s : Selection} (h : b.Shows s) (d : Dimension) :
    ∃ s', s.edit? (.put d.name d.options.toFinset) = some s' ∧ (b.upsertDimension d).Shows s' := by
  unfold Blueprint.upsertDimension
  cases edited : b.modifyDimension? d.name fun old => { old with options := d.options } with
  | some c =>
    obtain ⟨known, shows'⟩ := h.modifyDimension? edited (g := fun _ => d.options.toFinset) fun _ => rfl
    exact ⟨_, by rw [Selection.edit?, dif_pos known], shows'⟩
  | none =>
    have new : d.name ∉ s.names := by
      rw [h.mem_names]
      intro found
      simp [Blueprint.modifyDimension?, found] at edited
    refine ⟨_, by rw [Selection.edit?, dif_neg new], ?_⟩
    rw [Blueprint.Shows, Selection.dimensions_append, ← h]
    exact List.map_append

theorem dimension?_of_apply_removeDimension {name : String} {b c : Blueprint}
    (h : (removeDimension name).apply b = .ok c) : (b.dimension? name).isSome = true := by
  have hb := not_submitted h (by simp)
  cases hd : b.dimension? name with
  | some d => rfl
  | none =>
    simp [apply, Store.ensureEditable, hb, hd, bind, Except.bind, throw, throwThe,
      MonadExceptOf.throw] at h

/-- What a change makes of a blueprint shows what its edits make of what the blueprint showed. -/
theorem shows_apply {e : FilterEdit} {b c : Blueprint} {s : Selection} (h : e.apply b = .ok c)
    (hs : b.Shows s) : ∃ s', s.editAll? e.edits = some s' ∧ c.Shows s' := by
  cases e with
  | change x => exact ⟨s, rfl, by rw [apply_change h]; exact hs⟩
  | addDimension d =>
    rw [edits, Selection.editAll?_singleton, apply_addDimension h]
    exact shows_upsertDimension hs d
  | removeDimension name =>
    have known := hs.mem_names.mpr (dimension?_of_apply_removeDimension h)
    refine ⟨_, by rw [edits, Selection.editAll?_singleton, Selection.edit?, if_pos known], ?_⟩
    rw [apply_removeDimension h, Blueprint.Shows, Selection.dimensions_remove, ← hs,
      Blueprint.selected, Blueprint.selected, List.filter_map]
    rfl
  | addOptions name options =>
    obtain ⟨known, shows'⟩ := hs.modifyDimension? (apply_addOptions h) (g := (· ∪ options.toFinset))
      (·.selected_insert options)
    exact ⟨_, by rw [edits, Selection.editAll?_singleton, Selection.edit?, if_pos known], shows'⟩
  | removeOptions name options =>
    obtain ⟨known, shows'⟩ := hs.modifyDimension? (apply_removeOptions h)
      (g := (· \ options.toFinset)) (·.selected_erase options)
    exact ⟨_, by rw [edits, Selection.editAll?_singleton, Selection.edit?, if_pos known], shows'⟩

end FilterEdit
end DatasetFilters
