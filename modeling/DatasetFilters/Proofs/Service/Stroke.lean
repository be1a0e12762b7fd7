import DatasetFilters.Proofs.Service.Steady

namespace DatasetFilters

/-- Strokes that touch documents, messages or counters. Documents are given as they are written. -/
inductive Stroke where
  | creates (b : Blueprint)
  /-- An edit on a tag was taken, whether or not there was anything to write. -/
  | edits (id tag : String) (e : FilterEdit)
  /-- The blueprint of a tag was marked submitted to an output. -/
  | marks (id tag outputId : String) (time : Instant)
  | makes (o : Output)
  /-- An output took in an update, which completed it or not. -/
  | tends (id : String) (u : OutputUpdate) (completed : Bool)
  | records (id : String) (e : Event)
  | sends (outputId : String) (accepted : Bool)
  | counts (c : Counter)

/-- An edit that leaves alone whether and how a blueprint is submitted. -/
def FilterEdit.Plain (e : FilterEdit) : Prop := ∀ c, e = .change c → c.state = none ∧ c.outputId = none

/-- An edit of what is stored under an id, on its tag, has been taken: what it makes of the blueprint is
written unless the tag stays as it was. -/
def World.TakesEdit (now : World) (id tag : String) (e : FilterEdit) (next : World) : Prop :=
  ∃ y c, now.store.filter? id = some y ∧ y.etag = tag ∧ e.apply y = .ok c ∧
    ((c.tag = y.etag ∧ next = { now with store := now.store.touched }) ∨
      (c.tag ≠ y.etag ∧ ∃ t, next = { now with
        store := now.store.keeping t (now.store.restamped t c) }))

/-- After one of these moments the blueprint was stored, not yet submitted. -/
def Unsubmitted (own : List Moment) (id tag : String) : Prop :=
  ∃ m ∈ own, ∃ x, m.after.Stores x ∧ x.id = id ∧ x.etag = tag ∧ x.isSubmitted = false

/-- After one of these moments an output was stored that was made of the blueprint at the time. -/
def Rendered (own : List Moment) (id outputId : String) (time : Instant) : Prop :=
  ∃ m ∈ own, ∃ o, m.after.store.output? outputId = some o ∧ o.filterId = id ∧
    o.events = [⟨.created, time⟩]

variable {settings : Settings} {me : Client} {own : List Moment} {m : Moment}

/-- The document that a stroke writes, if any. -/
def Stroke.target? : Stroke → Option (Collection × String)
  | creates b => some (.filters, b.id)
  | edits id _ _ | marks id _ _ _ => some (.filters, id)
  | makes o => some (.outputs, o.id)
  | tends id _ _ | records id _ => some (.outputs, id)
  | sends _ _ | counts _ => none

variable (settings) in
/-- What a stroke does to the world, made after these moments of its client. It says nothing of why
the stroke was made, so that it needs no more of the hash than that tags are computed. -/
def Stroke.Does (own : List Moment) (now next : World) : Stroke → Prop
  | creates b => now.store.filter? b.id = none ∧ b.etag = b.tag ∧ b.state = .created ∧
      b.outputId = none ∧ ∃ t, next = { now with store := now.store.keeping t b }
  | edits id tag e => e.Plain ∧ now.TakesEdit id tag e next
  | marks id tag outputId time => Unsubmitted own id tag ∧ Rendered own id outputId time ∧
      now.TakesEdit id tag (.change (.submission outputId time)) next
  | makes o => now.store.backend.find? .outputs o.id = none ∧
      (∃ b time stamp, o = (Output.ofBlueprint o.id b time).stamped stamp) ∧
      ∃ t, next = { now with store := now.store.puttingOutput t o.id o }
  | tends id u completed => ∃ t o p, now.store.output? id = some o ∧
      u.apply settings.downloadUrl t o = .ok (p, completed) ∧
      next = { now with store := now.store.puttingOutput t id (now.store.restampedOutput t p) }
  | records id e => ∃ t o, now.store.output? id = some o ∧ next = { now with
      store := now.store.puttingOutput t id
        (now.store.restampedOutput t { o with events := o.events ++ [e] }) }
  | sends outputId accepted => next = { now with channel := (now.channel.enqueue outputId).2 } ∧
      accepted = (now.channel.enqueue outputId).1.isOk
  | counts c => next = { now with counters := now.counters.increment c }

variable (settings) in
/-- The strokes that a client made at its moments; both lists have the last one first. -/
inductive Traced : List Moment → List Stroke → Prop
  | start : Traced [] []
  | calm {m : Moment} {own : List Moment} {strokes : List Stroke} (h : Traced own strokes)
      (calm : m.Calm) : Traced (m :: own) strokes
  | next {m : Moment} {own : List Moment} {strokes : List Stroke} {stroke : Stroke}
      (h : Traced own strokes) (does : stroke.Does settings own m.before m.after) :
      Traced (m :: own) (stroke :: strokes)

namespace FilterEdit

theorem plain_of_ne_change {e : FilterEdit} (h : ∀ c, e ≠ .change c) : e.Plain := fun c same =>
  absurd same (h c)

theorem plain_change {c : BlueprintChange} (state : c.state = none) (outputId : c.outputId = none) :
    (FilterEdit.change c).Plain := by
  rintro _ ⟨⟩
  exact ⟨state, outputId⟩

/-- A plain edit leaves a blueprint as submitted as it was, to the same output. -/
theorem Plain.apply {e : FilterEdit} (plain : e.Plain) {b c : Blueprint} (h : e.apply b = .ok c) :
    c.state = b.state ∧ c.outputId = b.outputId := by
  by_cases he : ∃ x, e = .change x
  · obtain ⟨x, rfl⟩ := he
    obtain ⟨state, outputId⟩ := plain x rfl
    rw [apply_change h, BlueprintChange.apply, state, outputId]
    exact ⟨rfl, rfl⟩
  · obtain ⟨ds, rfl⟩ := apply_eq_dimensions h fun x hx => he ⟨x, hx⟩
    exact ⟨rfl, rfl⟩

end FilterEdit

theorem Unsubmitted.later {id tag : String} (m : Moment) (own : List Moment)
    (h : Unsubmitted own id tag) : Unsubmitted (m :: own) id tag := by
  obtain ⟨n, hn, h⟩ := h
  exact ⟨n, List.mem_cons_of_mem m hn, h⟩

theorem Rendered.later {id outputId : String} {time : Instant} (m : Moment) (own : List Moment)
    (h : Rendered own id outputId time) : Rendered (m :: own) id outputId time := by
  obtain ⟨n, hn, h⟩ := h
  exact ⟨n, List.mem_cons_of_mem m hn, h⟩

/-- After one of these moments this blueprint was stored, or one of its tag, as submitted as it is. -/
def InHand (own : List Moment) (b : Blueprint) : Prop :=
  ∃ m ∈ own, ∃ x, m.after.Stores x ∧ x.id = b.id ∧ x.etag = b.etag ∧ x.isSubmitted = b.isSubmitted

theorem InHand.later {b : Blueprint} (m : Moment) (own : List Moment) (h : InHand own b) :
    InHand (m :: own) b := by
  obtain ⟨n, hn, h⟩ := h
  exact ⟨n, List.mem_cons_of_mem m hn, h⟩

theorem InHand.unsubmitted {b : Blueprint} (h : InHand own b) (editable : b.isSubmitted = false) :
    Unsubmitted own b.id b.etag := by
  obtain ⟨n, hn, x, stored, hid, htag, same⟩ := h
  exact ⟨n, hn, x, stored, hid, htag, same.trans editable⟩

/-- An edit on a tag is refused without a trace or taken. -/
theorem Store.modifyFilter_takes {now : World} (sound : now.store.Sound) (t : Instant) (id tag : String)
    (e : FilterEdit) :
    (∃ error, now.store.modifyFilter t id (.exact tag) e.apply = (.error error, now.store.touched)) ∨
    ∃ c store, now.store.modifyFilter t id (.exact tag) e.apply = (.ok c, store) ∧ c.id = id ∧
      now.TakesEdit id tag e { now with store } ∧
      (e.Plain → ∃ x, World.Stores { now with store } x ∧ x.id = c.id ∧ x.etag = c.etag ∧
        x.isSubmitted = c.isSubmitted) := by
  rcases Store.modifyFilter_cases sound t id (.exact tag) e with
    ⟨error, he⟩ | ⟨y, c, hy, accepted, hc, ⟨same, he⟩ | ⟨other, he⟩⟩
  · exact Or.inl ⟨error, he⟩
  · have hid : c.id = id := (FilterEdit.apply_id_etag hc).1.trans (sound.id_eq hy)
    have htag : y.etag = tag := (beq_iff_eq.mp accepted).symm
    refine Or.inr ⟨c, _, he, hid, ⟨y, c, hy, htag, hc, Or.inl ⟨same, rfl⟩⟩, fun plain => ?_⟩
    refine ⟨y, (World.stores_of_filters_eq rfl).mpr (World.stores_of_filter? sound hy),
      (FilterEdit.apply_id_etag hc).1.symm, (FilterEdit.apply_id_etag hc).2.symm, ?_⟩
    rw [Blueprint.isSubmitted, Blueprint.isSubmitted, (plain.apply hc).1]
  · have hid : c.id = id := (FilterEdit.apply_id_etag hc).1.trans (sound.id_eq hy)
    have htag : y.etag = tag := (beq_iff_eq.mp accepted).symm
    exact Or.inr ⟨now.store.restamped t c, _, he, hid, ⟨y, c, hy, htag, hc, Or.inr ⟨other, t, rfl⟩⟩,
      fun _ => ⟨now.store.restamped t c, Store.filter?_keeping_self _ t _, rfl, rfl, rfl⟩⟩

section

variable {now next : World} {id tag : String} {e : FilterEdit} {stroke : Stroke}

namespace World

theorem TakesEdit.outputs (h : now.TakesEdit id tag e next) :
    next.store.backend.outputs = now.store.backend.outputs := by
  obtain ⟨y, c, -, -, -, ⟨-, rfl⟩ | ⟨-, t, rfl⟩⟩ := h <;> rfl

theorem TakesEdit.eq_store (h : now.TakesEdit id tag e next) :
    next = { now with store := next.store } := by
  obtain ⟨y, c, -, -, -, ⟨-, rfl⟩ | ⟨-, t, rfl⟩⟩ := h <;> rfl

end World

namespace Stroke.Does

/-- A collection is left alone by a stroke that writes to none of its documents. -/
theorem documents_eq (h : stroke.Does settings own now next) {c : Collection}
    (idle : ∀ key, stroke.target? ≠ some (c, key)) :
    next.store.backend.documents c = now.store.backend.documents c := by
  cases stroke with
  | creates b =>
    obtain ⟨-, -, -, -, t, rfl⟩ := h
    cases c with
    | filters => exact absurd rfl (idle b.id)
    | outputs => rfl
  | edits id tag e =>
    cases c with
    | filters => exact absurd rfl (idle id)
    | outputs => exact h.2.outputs
  | marks id tag outputId time =>
    cases c with
    | filters => exact absurd rfl (idle id)
    | outputs => exact h.2.2.outputs
  | makes o =>
    obtain ⟨-, -, t, rfl⟩ := h
    cases c with
    | filters => rfl
    | outputs => exact absurd rfl (idle o.id)
  | tends id u completed =>
    obtain ⟨t, o, p, -, -, rfl⟩ := h
    cases c with
    | filters => rfl
    | outputs => exact absurd rfl (idle id)
  | records id e =>
    obtain ⟨t, o, -, rfl⟩ := h
    cases c with
    | filters => rfl
    | outputs => exact absurd rfl (idle id)
  | sends outputId accepted =>
    obtain ⟨rfl, -⟩ := h
    rfl
  | counts c' =>
    obtain rfl : next = _ := h
    rfl

theorem filters_eq (h : stroke.Does settings own now next)
    (idle : ∀ key, stroke.target? ≠ some (.filters, key)) :
    next.store.backend.filters = now.store.backend.filters := h.documents_eq idle

theorem outputs_eq (h : stroke.Does settings own now next)
    (idle : ∀ key, stroke.target? ≠ some (.outputs, key)) :
    next.store.backend.outputs = now.store.backend.outputs := h.documents_eq idle

/-- A stroke that writes a document does nothing else. -/
theorem eq_store (h : stroke.Does settings own now next) (writes : stroke.target? ≠ none) :
    next = { now with store := next.store } := by
  cases stroke with
  | creates b =>
    obtain ⟨-, -, -, -, t, rfl⟩ := h
    rfl
  | edits id tag e => exact h.2.eq_store
  | marks id tag outputId time => exact h.2.2.eq_store
  | makes o =>
    obtain ⟨-, -, t, rfl⟩ := h
    rfl
  | tends id u completed =>
    obtain ⟨t, o, p, -, -, rfl⟩ := h
    rfl
  | records id e =>
    obtain ⟨t, o, -, rfl⟩ := h
    rfl
  | sends | counts => exact absurd rfl writes

end Stroke.Does

end

end DatasetFilters
