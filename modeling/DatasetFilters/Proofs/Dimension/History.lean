import DatasetFilters.Proofs.Dimension
import Mathlib.Data.Finset.Basic

namespace DatasetFilters

/-- One option inserted or erased. -/
inductive OptionStep where
  | insert (option : String)
  | erase (option : String)
  deriving DecidableEq

namespace OptionStep

def onList (options : List String) : OptionStep → List String
  | insert o => Dimension.insertOption options o
  | erase o => options.filter (· != o)

def onSet (options : Finset String) : OptionStep → Finset String
  | insert o => Insert.insert o options
  | erase o => options.erase o

/-- The moment of a history at which an option enters: it is inserted, whatever inserted it before has
been undone by then, and it is not erased any more. -/
structure EnteredAt (history : List OptionStep) (o : String) (t : Nat) : Prop where
  inserted : history[t]? = some (insert o)
  stays : ∀ u, t < u → history[u]? ≠ some (erase o)
  anew : ∀ s, s < t → history[s]? = some (insert o) →
    ∃ u, s < u ∧ u < t ∧ history[u]? = some (erase o)

/-- Every insertion of an option is undone later. -/
def Gone (history : List OptionStep) (o : String) : Prop :=
  ∀ s : Nat, history[s]? = some (insert o) → ∃ u, s < u ∧ history[u]? = some (erase o)

/-- The options that are there after a history, with the moments at which they entered. -/
structure Chronicle (history : List OptionStep) (options : List String) (entry : String → Nat) :
    Prop where
  entered : ∀ o ∈ options, EnteredAt history o (entry o)
  ordered : options.Pairwise (entry · < entry ·)
  gone : ∀ o, o ∉ options → Gone history o

variable {history : List OptionStep} {step : OptionStep} {options : List String} {o : String}
  {entry : String → Nat} {s t : Nat}

theorem getElem?_concat_eq_some_iff {other : OptionStep} : (history ++ [step])[t]? = some other ↔
    history[t]? = some other ∨ t = history.length ∧ step = other := by
  grind

theorem lt_length {other : OptionStep} (h : history[t]? = some other) : t < history.length :=
  (List.getElem?_eq_some_iff.mp h).1

/-- What is gone stays so until it is inserted again. -/
theorem Gone.concat (h : Gone history o) (other : step ≠ insert o) : Gone (history ++ [step]) o := by
  intro s inserted
  rcases getElem?_concat_eq_some_iff.mp inserted with old | ⟨-, last⟩
  · obtain ⟨u, su, erased⟩ := h s old
    exact ⟨u, su, getElem?_concat_eq_some_iff.mpr (.inl erased)⟩
  · exact absurd last other

theorem Gone.concat_erase (history : List OptionStep) (o : String) :
    Gone (history ++ [erase o]) o := by
  intro s inserted
  rcases getElem?_concat_eq_some_iff.mp inserted with old | ⟨-, last⟩
  · exact ⟨history.length, lt_length old, getElem?_concat_eq_some_iff.mpr (.inr ⟨rfl, rfl⟩)⟩
  · cases last

namespace EnteredAt

theorem unique (hs : EnteredAt history o s) (ht : EnteredAt history o t) : s = t := by
  rcases Nat.lt_trichotomy s t with before | same | after
  · obtain ⟨u, su, -, erased⟩ := ht.anew s before hs.inserted
    exact absurd erased (hs.stays u su)
  · exact same
  · obtain ⟨u, tu, -, erased⟩ := hs.anew t after ht.inserted
    exact absurd erased (ht.stays u tu)

theorem not_gone (h : EnteredAt history o t) : ¬Gone history o := by
  intro gone
  obtain ⟨u, tu, erased⟩ := gone t h.inserted
  exact h.stays u tu erased

/-- Inserting an option once more does not move the moment at which it entered. -/
theorem concat (h : EnteredAt history o t) (kept : step ≠ erase o) :
    EnteredAt (history ++ [step]) o t where
  inserted := getElem?_concat_eq_some_iff.mpr (.inl h.inserted)
  stays u tu erased := by
    rcases getElem?_concat_eq_some_iff.mp erased with old | ⟨-, last⟩
    · exact h.stays u tu old
    · exact kept last
  anew s st inserted := by
    rcases getElem?_concat_eq_some_iff.mp inserted with old | ⟨rfl, -⟩
    · obtain ⟨u, su, ut, erased⟩ := h.anew s st old
      exact ⟨u, su, ut, getElem?_concat_eq_some_iff.mpr (.inl erased)⟩
    · exact absurd (lt_length h.inserted) (Nat.not_lt.mpr st.le)

theorem concat_insert (gone : Gone history o) :
    EnteredAt (history ++ [insert o]) o history.length where
  inserted := getElem?_concat_eq_some_iff.mpr (.inr ⟨rfl, rfl⟩)
  stays u after erased := by
    have within := lt_length erased
    rw [List.length_append, List.length_singleton] at within
    omega
  anew s before inserted := by
    rcases getElem?_concat_eq_some_iff.mp inserted with old | ⟨rfl, -⟩
    · obtain ⟨u, su, erased⟩ := gone s old
      exact ⟨u, su, lt_length erased, getElem?_concat_eq_some_iff.mpr (.inl erased)⟩
    · exact absurd before (Nat.lt_irrefl _)

end EnteredAt

namespace Chronicle

theorem nil : Chronicle [] [] fun _ => 0 where
  entered := by simp
  ordered := .nil
  gone := by simp [Gone]

theorem insert_known (h : Chronicle history options entry) (known : o ∈ options) :
    Chronicle (history ++ [insert o]) options entry where
  entered x hx := (h.entered x hx).concat nofun
  ordered := h.ordered
  gone x hx := by
    refine (h.gone x hx).concat fun same => ?_
    cases same
    exact hx known

theorem insert_new (h : Chronicle history options entry) (new : o ∉ options) :
    Chronicle (history ++ [insert o]) (options ++ [o])
      (Function.update entry o history.length) := by
  have others : ∀ x ∈ options, Function.update entry o history.length x = entry x := by
    intro x hx
    exact Function.update_of_ne (ne_of_mem_of_not_mem hx new) ..
  constructor
  case entered =>
    intro x hx
    rcases List.mem_append.mp hx with old | last
    · rw [others x old]
      exact (h.entered x old).concat nofun
    · rw [List.mem_singleton.mp last, Function.update_self]
      exact .concat_insert (h.gone o new)
  case ordered =>
    refine List.pairwise_append.mpr ⟨?_, List.pairwise_singleton .., ?_⟩
    · refine h.ordered.imp_of_mem fun ha hb before => ?_
      rwa [others _ ha, others _ hb]
    · intro x hx y last
      rw [List.mem_singleton.mp last, Function.update_self, others x hx]
      exact lt_length (h.entered x hx).inserted
  case gone =>
    intro x hx
    rw [List.mem_append, List.mem_singleton, not_or] at hx
    refine (h.gone x hx.1).concat fun same => ?_
    cases same
    exact hx.2 rfl

theorem erase_one (h : Chronicle history options entry) (o : String) :
    Chronicle (history ++ [erase o]) (options.filter (· != o)) entry where
  entered x hx := by
    obtain ⟨there, other⟩ := List.mem_filter.mp hx
    refine (h.entered x there).concat fun same => ?_
    cases same
    simp at other
  ordered := h.ordered.filter _
  gone x hx := by
    by_cases erased : x = o
    · rw [erased]
      exact .concat_erase history o
    · have absent : x ∉ options := by simpa [erased] using hx
      exact (h.gone x absent).concat nofun

/-- One step keeps the list and these moments in line. -/
theorem concat (h : Chronicle history options entry) (step : OptionStep) :
    ∃ entry', Chronicle (history ++ [step]) (step.onList options) entry' := by
  cases step with
  | insert o =>
    rw [onList, Dimension.insertOption]
    split
    next known => exact ⟨_, h.insert_known (List.contains_iff_mem.mp known)⟩
    next new => exact ⟨_, h.insert_new (mt List.contains_iff_mem.mpr new)⟩
  | erase o => exact ⟨_, h.erase_one o⟩

/-- The options after a whole history, with the moments at which they entered. -/
theorem of_history (history : List OptionStep) :
    ∃ entry, Chronicle history (history.foldl onList []) entry := by
  induction history using List.reverseRecOn with
  | nil => exact ⟨_, .nil⟩
  | append_singleton history step ih =>
    obtain ⟨entry, h⟩ := ih
    rw [List.foldl_append]
    exact h.concat step

theorem nodup (h : Chronicle history options entry) : options.Nodup := by
  refine h.ordered.imp fun before same => ?_
  exact Nat.lt_irrefl _ (same ▸ before)

/-- The options that are there are those that entered. -/
theorem mem_iff (h : Chronicle history options entry) :
    o ∈ options ↔ ∃ t, EnteredAt history o t := by
  refine ⟨fun there => ⟨_, h.entered o there⟩, fun ⟨t, entered⟩ => ?_⟩
  by_contra absent
  exact entered.not_gone (h.gone o absent)

/-- Options stand in the order in which they entered. -/
theorem pairwise (h : Chronicle history options entry) : options.Pairwise fun a b =>
    ∀ s t, EnteredAt history a s → EnteredAt history b t → s < t := by
  refine h.ordered.imp_of_mem fun ha hb before s t hs ht => ?_
  rwa [hs.unique (h.entered _ ha), ht.unique (h.entered _ hb)]

end Chronicle

theorem toFinset_onList (options : List String) (step : OptionStep) :
    (step.onList options).toFinset = step.onSet options.toFinset := by
  cases step with
  | insert o =>
    rw [onList, onSet, Dimension.insertOption]
    split
    next known => rw [Finset.insert_eq_of_mem (by simpa using known)]
    next new =>
      ext x
      simp only [List.mem_toFinset, List.mem_append, List.mem_singleton, Finset.mem_insert]
      exact or_comm
  | erase o =>
    ext x
    simp [onList, onSet, and_comm]

theorem toFinset_foldl (history : List OptionStep) (options : List String) :
    (history.foldl onList options).toFinset = history.foldl onSet options.toFinset := by
  induction history generalizing options with
  | nil => rfl
  | cons step history ih => rw [List.foldl_cons, ih, toFinset_onList, List.foldl_cons]

end OptionStep

/-- An edit of the options of a dimension, with the list that it is given. -/
inductive OptionEdit where
  | insert (options : List String)
  | erase (options : List String)
  deriving DecidableEq

namespace OptionEdit

def apply (d : Dimension) : OptionEdit → Dimension
  | insert options => d.insert options
  | erase options => d.erase options

/-- The same edit with each option of its list once, where it first stands. -/
def dedup : OptionEdit → OptionEdit
  | insert options => insert options.eraseDups
  | erase options => erase options.eraseDups

/-- An edit option by option. -/
def steps : OptionEdit → List OptionStep
  | insert options => options.map .insert
  | erase options => options.map .erase

/-- The history of a dimension that is built from a list and then edited. -/
def history (options : List String) (edits : List OptionEdit) : List OptionStep :=
  (insert options :: edits).flatMap steps

variable (d : Dimension) (edit : OptionEdit)

/-- An edit acts option by option. -/
theorem options_apply : (edit.apply d).options = edit.steps.foldl OptionStep.onList d.options := by
  cases edit with
  | insert options =>
    rw [steps, List.foldl_map]
    rfl
  | erase options =>
    rw [steps, List.foldl_map]
    exact d.erase_options options

/-- A list with an option twice does what the same list does with it once. -/
theorem apply_dedup : edit.dedup.apply d = edit.apply d := by
  cases edit with
  | insert options => exact d.insert_eraseDups options
  | erase options => exact d.erase_eraseDups options

/-- An edit done twice is done once. -/
theorem apply_apply : edit.apply (edit.apply d) = edit.apply d := by
  cases edit with
  | insert options =>
    exact Dimension.insert_eq_self fun o given => Dimension.mem_insert.mpr (.inr given)
  | erase options =>
    exact Dimension.erase_eq_self fun o given there => (Dimension.mem_erase.mp there).2 given

/-- An edit only adds to the list or only removes from it. -/
theorem options_apply_of_length (same : (edit.apply d).options.length = d.options.length) :
    (edit.apply d).options = d.options := by
  cases edit with
  | insert options =>
    have starts : d.options <+: (d.insert options).options := by
      rw [Dimension.insert_options]
      exact List.prefix_append ..
    exact (starts.eq_of_length same.symm).symm
  | erase options => exact List.filter_sublist.eq_of_length same

/-- An edit that leaves the set as it was leaves the order as it was. -/
theorem options_apply_of_toFinset (same : (edit.apply d).options.toFinset = d.options.toFinset) :
    (edit.apply d).options = d.options := by
  have mem_iff (o : String) : o ∈ (edit.apply d).options ↔ o ∈ d.options := by
    rw [← List.mem_toFinset, same, List.mem_toFinset]
  cases edit with
  | insert options =>
    have known : ∀ o ∈ options, o ∈ d.options := by
      intro o given
      exact (mem_iff o).mp (Dimension.mem_insert.mpr (.inr given))
    exact congrArg Dimension.options (Dimension.insert_eq_self known)
  | erase options =>
    have absent : ∀ o ∈ options, o ∉ d.options := by
      intro o given there
      exact (Dimension.mem_erase.mp ((mem_iff o).mpr there)).2 given
    exact congrArg Dimension.options (Dimension.erase_eq_self absent)

/-- An edit is said to have changed a dimension just if the set of its options is another. -/
theorem changed_iff : d.changed (edit.apply d) = true ↔
    (edit.apply d).options.toFinset ≠ d.options.toFinset := by
  rw [Dimension.changed, bne_iff_ne, ne_comm]
  refine not_congr ⟨fun length => ?_, fun set => ?_⟩
  · rw [edit.options_apply_of_length d length]
  · rw [edit.options_apply_of_toFinset d set]

end OptionEdit

namespace Dimension

/-- A dimension after edits, one after the other. -/
def edited (d : Dimension) (edits : List OptionEdit) : Dimension := edits.foldl OptionEdit.apply d

theorem options_edited (d : Dimension) (edits : List OptionEdit) : (d.edited edits).options =
    (edits.flatMap OptionEdit.steps).foldl OptionStep.onList d.options := by
  induction edits generalizing d with
  | nil => rfl
  | cons edit edits ih =>
    rw [List.flatMap_cons, List.foldl_append, ← OptionEdit.options_apply, ← ih]
    rfl

/-- A list is built by inserting it where nothing is selected. -/
theorem options_edited_ofList (name : String) (options : List String) (edits : List OptionEdit) :
    ((ofList name options).edited edits).options =
      (OptionEdit.history options edits).foldl OptionStep.onList [] :=
  options_edited ⟨name, []⟩ (.insert options :: edits)

/-- However a dimension is built and edited, its options are a set: none stands twice, those are there
that entered and stayed, in the order in which they entered, and together they are what the insertions
and erasures of the history make of the empty set. Each edit reports a change just if it changes the set,
and neither repetitions in a list nor an edit made twice make a difference, whatever comes later. -/
theorem options_are_set (name : String) (options : List String) (edits : List OptionEdit) :
    let d := (ofList name options).edited edits
    let history := OptionEdit.history options edits
    d.options.Nodup ∧
    (∀ o, o ∈ d.options ↔ ∃ t, OptionStep.EnteredAt history o t) ∧
    d.options.Pairwise (fun a b =>
      ∀ s t, OptionStep.EnteredAt history a s → OptionStep.EnteredAt history b t → s < t) ∧
    d.options.toFinset = history.foldl OptionStep.onSet ∅ ∧
    (ofList name options.eraseDups).edited edits = d ∧
    ∀ edit : OptionEdit,
      (d.changed (edit.apply d) = true ↔ (edit.apply d).options.toFinset ≠ d.options.toFinset) ∧
      ∀ later, d.edited (edit.dedup :: later) = d.edited (edit :: later) ∧
        d.edited (edit :: edit :: later) = d.edited (edit :: later) := by
  intro d history
  have folded : d.options = history.foldl OptionStep.onList [] :=
    options_edited_ofList name options edits
  obtain ⟨entry, chronicle⟩ := OptionStep.Chronicle.of_history history
  rw [← folded] at chronicle
  refine ⟨chronicle.nodup, fun o => chronicle.mem_iff, chronicle.pairwise, ?set, ?built, ?next⟩
  case set =>
    rw [folded]
    exact OptionStep.toFinset_foldl history []
  case built =>
    rw [ofList, insert_eraseDups]
    rfl
  case next =>
    intro edit
    refine ⟨edit.changed_iff d, fun later => ⟨?_, ?_⟩⟩
    · exact congrArg (edited · later) (edit.apply_dedup d)
    · exact congrArg (edited · later) (edit.apply_apply d)

example : ((ofList "age" ["a", "b", "a"]).edited
    [.erase ["a", "c"], .insert ["b", "c", "a"]]).options = ["b", "c", "a"] := by decide

end Dimension
end DatasetFilters
