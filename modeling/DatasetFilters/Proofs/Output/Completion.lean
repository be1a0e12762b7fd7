import DatasetFilters.Service.Outputs

namespace DatasetFilters

namespace Output

def isCompleted (o : Output) : Bool := o.state == .completed

/-- Every artefact that is there has a link, so what is there is ready. -/
def Linked (o : Output) : Prop := ∀ f a, o.downloads.get? f = some a → a.href ≠ ""

/-- Both artefacts are there, each with a link or skipped. -/
def Delivered (o : Output) : Prop :=
  ∀ f, ∃ a, o.downloads.get? f = some a ∧ (a.href ≠ "" ∨ a.skipped = true)

/-- How many times the output is reported as completed. -/
def completions (o : Output) : Nat := o.events.countP fun e => e.kind == .completed

/-- An output as far as it has been completed. -/
structure Settled (o : Output) : Prop where
  linked : o.Linked
  completed : o.isCompleted = true ↔ o.Delivered
  opened : ∃ t rest, o.events = ⟨.created, t⟩ :: rest

theorem isCompleted_iff {o : Output} : o.isCompleted = true ↔ o.state = .completed := beq_iff_eq

/-- An output is complete just if both artefacts are there and ready. -/
theorem isComplete_iff {o : Output} : o.downloads.isComplete = true ↔ o.Delivered := by
  have ready (a : Artefact) : a.isReady = true ↔ a.href ≠ "" ∨ a.skipped = true := by
    simp [Artefact.isReady]
  have there (f : DownloadFormat) : (o.downloads.get? f).any Artefact.isReady = true ↔
      ∃ a, o.downloads.get? f = some a ∧ (a.href ≠ "" ∨ a.skipped = true) := by
    simp [Option.any_eq_true, ready]
  rw [Downloads.isComplete, List.all_eq_true]
  constructor
  · intro h f
    exact (there f).mp (h f (by cases f <;> simp [DownloadFormat.all]))
  · intro h f _
    exact (there f).mpr (h f)

/-- Where all artefacts have links, it is complete just if both are there. -/
theorem Linked.delivered_iff {o : Output} (h : o.Linked) :
    o.Delivered ↔ ∀ f, (o.downloads.get? f).isSome := by
  constructor
  · intro delivered f
    obtain ⟨a, ha, -⟩ := delivered f
    exact Option.isSome_of_eq_some ha
  · intro there f
    obtain ⟨a, ha⟩ := Option.isSome_iff_exists.mp (there f)
    exact ⟨a, ha, Or.inl (h f a ha)⟩

theorem settled_ofBlueprint (id : String) (b : Blueprint) (time : Instant) :
    (ofBlueprint id b time).Settled where
  linked f a h := by cases f <;> simp [ofBlueprint, Downloads.get?] at h
  completed := by
    constructor
    · intro h
      simp [isCompleted, ofBlueprint] at h
    · intro h
      obtain ⟨a, ha, -⟩ := h .csv
      simp [ofBlueprint, Downloads.get?] at ha
  opened := ⟨time, [], rfl⟩

theorem completes_eq_false {o : Output} (h : o.isCompleted = true) : o.completes = false := by
  rw [isCompleted_iff] at h
  rw [completes, h]
  rfl

theorem completes_eq {o : Output} (h : o.isCompleted = false) :
    o.completes = o.downloads.isComplete := by
  rw [isCompleted, beq_eq_false_iff_ne] at h
  rw [completes, bne_iff_ne.mpr h, Bool.true_and]

variable (o : Output) (now : Instant)

theorem events_completeIfReady : (o.completeIfReady now).events =
    o.events ++ if o.completes then [⟨.completed, now⟩] else [] := by
  rw [completeIfReady]
  split
  · rfl
  · rw [List.append_nil]

theorem downloads_completeIfReady : (o.completeIfReady now).downloads = o.downloads := by
  rw [completeIfReady]
  split <;> rfl

theorem isCompleted_completeIfReady :
    (o.completeIfReady now).isCompleted = (o.isCompleted || o.completes) := by
  rw [completeIfReady]
  split
  next h => rw [h, Bool.or_true]; rfl
  next h => rw [Bool.eq_false_iff.mpr h, Bool.or_false]

end Output

namespace OutputUpdate

variable {u : OutputUpdate} {downloadUrl : String} {o p : Output} {now : Instant} {completed : Bool}

theorem href_ne_empty (downloadUrl : String) (o : Output) (f : DownloadFormat) :
    href downloadUrl o f ≠ "" := by
  intro h
  have := congrArg (fun s => s.toList.length) h
  simp [href] at this

theorem linked_mergeFormat (h : o.Linked) (f : DownloadFormat) :
    (u.mergeFormat downloadUrl o f).Linked := by
  unfold mergeFormat
  cases u.artefact? f with
  | none => exact h
  | some change =>
    intro g a ha
    by_cases same : f = g
    · subst same
      rw [Downloads.get?_set_self, Option.some.injEq] at ha
      rw [← ha]
      exact href_ne_empty downloadUrl o f
    · rw [Downloads.get?_set_of_ne _ same] at ha
      exact h g a ha

/-- What was there stays. -/
theorem isSome_mergeFormat (f g : DownloadFormat) (h : (o.downloads.get? g).isSome) :
    ((u.mergeFormat downloadUrl o f).downloads.get? g).isSome := by
  unfold mergeFormat
  cases u.artefact? f with
  | none => exact h
  | some change =>
    by_cases same : f = g
    · subst same
      rw [Downloads.get?_set_self]
      rfl
    · rw [Downloads.get?_set_of_ne _ same]
      exact h

theorem state_events_mergeFormat (f : DownloadFormat) :
    (u.mergeFormat downloadUrl o f).state = o.state ∧
      (u.mergeFormat downloadUrl o f).events = o.events := by
  unfold mergeFormat
  cases u.artefact? f <;> exact ⟨rfl, rfl⟩

theorem linked_merge (h : o.Linked) : (u.merge downloadUrl o).Linked :=
  linked_mergeFormat (linked_mergeFormat h .csv) .xls

theorem isSome_merge (f : DownloadFormat) (h : (o.downloads.get? f).isSome) :
    ((u.merge downloadUrl o).downloads.get? f).isSome :=
  isSome_mergeFormat .xls f (isSome_mergeFormat .csv f h)

theorem state_events_merge : (u.merge downloadUrl o).state = o.state ∧
    (u.merge downloadUrl o).events = o.events := by
  obtain ⟨state, events⟩ : (u.mergeFormat downloadUrl o .csv).state = o.state ∧
      (u.mergeFormat downloadUrl o .csv).events = o.events := state_events_mergeFormat .csv
  obtain ⟨state', events'⟩ : (u.merge downloadUrl o).state = (u.mergeFormat downloadUrl o .csv).state ∧
      (u.merge downloadUrl o).events = (u.mergeFormat downloadUrl o .csv).events :=
    state_events_mergeFormat .xls
  exact ⟨state'.trans state, events'.trans events⟩

theorem apply_ok (h : u.apply downloadUrl now o = .ok (p, completed)) :
    u.forbidden o = [] ∧ p = (u.merge downloadUrl o).completeIfReady now ∧
      completed = (u.merge downloadUrl o).completes := by
  unfold apply at h
  cases hf : u.forbidden o with
  | cons name rest => simp [hf] at h
  | nil =>
    simp only [hf, List.isEmpty_nil, Bool.not_true, Bool.false_eq_true, if_false, Except.ok.injEq,
      Prod.mk.injEq] at h
    exact ⟨rfl, h.1.symm, h.2.symm⟩

section

variable (h : u.apply downloadUrl now o = .ok (p, completed))
include h

/-- An output stays completed, and an update says when it completes it. -/
theorem isCompleted_apply : p.isCompleted = (o.isCompleted || completed) := by
  obtain ⟨-, rfl, rfl⟩ := apply_ok h
  rw [Output.isCompleted_completeIfReady, Output.isCompleted, Output.isCompleted,
    state_events_merge.1]

/-- An output is completed once only. -/
theorem isCompleted_of_apply_true (completes : completed = true) : o.isCompleted = false := by
  obtain ⟨-, -, rfl⟩ := apply_ok h
  cases before : o.isCompleted with
  | false => rfl
  | true =>
    have same : (u.merge downloadUrl o).isCompleted = true := by
      rw [Output.isCompleted, state_events_merge.1]
      exact before
    rw [Output.completes_eq_false same] at completes
    exact completes.symm

/-- The event is added exactly when the update completes the output. -/
theorem events_apply : p.events = o.events ++ if completed then [⟨.completed, now⟩] else [] := by
  obtain ⟨-, rfl, rfl⟩ := apply_ok h
  rw [Output.events_completeIfReady, state_events_merge.2]

theorem completions_apply : p.completions = o.completions + completed.toNat := by
  rw [Output.completions, events_apply h, List.countP_append]
  cases completed <;> rfl

/-- An update keeps the events and the state in line with what was delivered. -/
theorem settled_apply (settled : o.Settled) : p.Settled := by
  have events := events_apply h
  have state := isCompleted_apply h
  obtain ⟨-, rfl, rfl⟩ := apply_ok h
  have linked : (u.merge downloadUrl o).Linked := linked_merge settled.linked
  have downloads := (u.merge downloadUrl o).downloads_completeIfReady now
  refine ⟨?_, ?_, ?_⟩
  · rw [Output.Linked, downloads]
    exact linked
  · rw [Output.Delivered, downloads, state]
    change _ ↔ (u.merge downloadUrl o).Delivered
    cases before : o.isCompleted with
    | true =>
      -- whatever was there is still there
      have there := settled.linked.delivered_iff.mp (settled.completed.mp before)
      simp only [Bool.true_or, true_iff]
      exact linked.delivered_iff.mpr fun f => isSome_merge f (there f)
    | false =>
      have before' : (u.merge downloadUrl o).isCompleted = false := by
        rw [Output.isCompleted, state_events_merge.1]
        exact before
      rw [Bool.false_or, Output.completes_eq before', Output.isComplete_iff]
  · obtain ⟨t, rest, opened⟩ := settled.opened
    rw [events, opened]
    exact ⟨t, _, rfl⟩

end

end OutputUpdate

end DatasetFilters
