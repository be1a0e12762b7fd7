import DatasetFilters.Service.Outputs

namespace DatasetFilters

namespace DownloadFormat

/-- The name of the private link of a format among the members of an update. -/
def privateField (f : DownloadFormat) : String := "downloads." ++ f.key ++ ".private"

theorem mem_all (f : DownloadFormat) : f ∈ all := by
  cases f <;> simp [all]

end DownloadFormat

namespace OutputUpdate

variable {u : OutputUpdate} {o p : Output}

/-- The members that may be named in vain, in the order in which a refusal lists them. -/
def guarded : List String :=
  ["dataset.id", "dataset.edition", "dataset.version", "instance_id", "filter_id",
    "downloads.csv.private", "downloads.xls.private"]

/-- A member that the update names, whatever the value, although the output may not change in it. -/
inductive Offends (u : OutputUpdate) (o : Output) : String → Prop
  | datasetId {d : DatasetUpdate} {value : String} (dataset : u.dataset = some d)
      (named : d.id = some value) : Offends u o "dataset.id"
  | edition {d : DatasetUpdate} {value : String} (dataset : u.dataset = some d)
      (named : d.edition = some value) : Offends u o "dataset.edition"
  | version {d : DatasetUpdate} {value : UInt32} (dataset : u.dataset = some d)
      (named : d.version = some value) : Offends u o "dataset.version"
  | instanceId {value : String} (named : u.instanceId = some value) : Offends u o "instance_id"
  | filterId {value : String} (named : u.filterId = some value) : Offends u o "filter_id"
  /-- Once an output is published, a private link that is there is final. -/
  | privateLink {f : DownloadFormat} {change : ArtefactUpdate} {value : String} {a : Artefact}
      (published : o.published = some true) (artefact : u.artefact? f = some change)
      (named : change.privateLink = some value) (stored : o.downloads.get? f = some a)
      (final : a.privateLink ≠ "") : Offends u o f.privateField

/-- The members named that an update may not name of any output. -/
def misplaced (u : OutputUpdate) : List String :=
  (if (u.dataset.bind (·.id)).isSome then ["dataset.id"] else []) ++
  (if (u.dataset.bind (·.edition)).isSome then ["dataset.edition"] else []) ++
  (if (u.dataset.bind (·.version)).isSome then ["dataset.version"] else []) ++
  (if u.instanceId.isSome then ["instance_id"] else []) ++
  (if u.filterId.isSome then ["filter_id"] else [])

/-- The private links named that are final. -/
def locked (u : OutputUpdate) (o : Output) : List String :=
  if o.isPublished then
    (DownloadFormat.all.filter (u.replacesPrivate o)).map DownloadFormat.privateField
  else []

/-- Most of what may be refused no update may name; the private links depend on what is stored. -/
theorem forbidden_eq (u : OutputUpdate) (o : Output) : u.forbidden o = u.misplaced ++ u.locked o := rfl

/-- A private link is replaced if it is named where one is stored already. -/
theorem replacesPrivate_iff {f : DownloadFormat} : u.replacesPrivate o f = true ↔
    ∃ change value a, u.artefact? f = some change ∧ change.privateLink = some value ∧
      o.downloads.get? f = some a ∧ a.privateLink ≠ "" := by
  rw [replacesPrivate, Bool.and_eq_true, Option.isSome_iff_exists, Option.any_eq_true]
  constructor
  · rintro ⟨⟨value, named⟩, a, stored, final⟩
    obtain ⟨change, artefact, named⟩ := Option.bind_eq_some_iff.mp named
    exact ⟨change, value, a, artefact, named, stored, by simpa using final⟩
  · rintro ⟨change, value, a, artefact, named, stored, final⟩
    exact ⟨⟨value, Option.bind_eq_some_iff.mpr ⟨change, artefact, named⟩⟩, a, stored,
      by simpa using final⟩

theorem mem_locked_iff {name : String} : name ∈ u.locked o ↔
    o.published = some true ∧ ∃ f, u.replacesPrivate o f = true ∧ name = f.privateField := by
  unfold locked
  split
  next published =>
    simp only [List.mem_map, List.mem_filter, DownloadFormat.mem_all, true_and, eq_comm (b := name),
      show o.published = some true from beq_iff_eq.mp published]
  next hidden =>
    have : o.published ≠ some true := fun h => hidden (beq_iff_eq.mpr h)
    simp [this]

/-- The update names the artefact of a format. -/
def touches (u : OutputUpdate) (f : DownloadFormat) : Bool := (u.artefact? f).isSome

theorem artefact?_of_untouched {f : DownloadFormat} (h : u.touches f = false) :
    u.artefact? f = none := by
  simpa [touches] using h

/-- A refusal depends on nothing but whether the output is published and on the artefacts that the
update names. -/
theorem forbidden_congr (published : o.published = p.published)
    (same : ∀ f, u.touches f = true → o.downloads.get? f = p.downloads.get? f) :
    u.forbidden o = u.forbidden p := by
  have replaces (f : DownloadFormat) : u.replacesPrivate o f = u.replacesPrivate p f := by
    cases named : u.touches f with
    | true => rw [replacesPrivate, replacesPrivate, same f named]
    | false =>
      rw [replacesPrivate, replacesPrivate, artefact?_of_untouched named]
      rfl
  rw [forbidden_eq, forbidden_eq, locked, locked, funext replaces, Output.isPublished,
    Output.isPublished, published]

end OutputUpdate

end DatasetFilters
