import DatasetFilters.Proofs.Service.Completion
import DatasetFilters.Proofs.Service.Frame

namespace DatasetFilters

/-- Every output that a stored blueprint names is stored. -/
def Store.Refers (s : Store) : Prop :=
  ∀ key b id, s.filter? key = some b → b.outputId = some id → (s.backend.find? .outputs id).isSome

variable {settings : Settings} {answers : Nat → (q : Query) → q.Reply → Prop} {past own : List Moment}
  {start now next : World} {s : Server} {strokes : List Stroke} {stroke : Stroke}

namespace Store

theorem Refers.of_empty {s : Store} (h : s.backend.filters = []) : s.Refers := by
  intro key b id stored
  simp [filter?_of_empty h] at stored

theorem Refers.of_eq {s s' : Store} (h : s.Refers) (filters : s'.backend.filters = s.backend.filters)
    (outputs : s'.backend.outputs = s.backend.outputs) : s'.Refers := by
  intro key b id stored names
  rw [filter?_of_filters_eq filters] at stored
  have known := h key b id stored names
  rwa [Backend.find?, Backend.documents, ← outputs] at known

end Store

/-- No stroke takes a document away. -/
theorem Stroke.Does.keeps (h : stroke.Does settings own now next) (sound : now.store.Sound)
    (c : Collection) {key : String} (known : (now.store.backend.find? c key).isSome) :
    (next.store.backend.find? c key).isSome := by
  rw [Backend.find?] at known ⊢
  rcases h.documents sound c with same | ⟨k, text, -, written⟩
  · rwa [same]
  · rw [written, Table.lookup_put]
    split
    · rfl
    · exact known

/-- A stroke leaves all references intact, if one that marks a blueprint names a stored output. -/
theorem Stroke.Does.refers (h : stroke.Does settings own now next) (sound : now.store.Sound)
    (known : ∀ id tag outputId time, stroke = .marks id tag outputId time →
      (now.store.backend.find? .outputs outputId).isSome)
    (refers : now.store.Refers) : next.store.Refers := by
  have persists {id : String} (h' : (now.store.backend.find? .outputs id).isSome) :=
    h.keeps sound .outputs h'
  have untouched (same : next.store.backend.filters = now.store.backend.filters) :
      next.store.Refers := by
    intro key b id stored names
    rw [Store.filter?_of_filters_eq same] at stored
    exact persists (refers key b id stored names)
  have writes {t : Instant} {z : Blueprint} (written : next.store = now.store.keeping t z)
      (fresh : ∀ id, z.outputId = some id → (now.store.backend.find? .outputs id).isSome) :
      next.store.Refers := by
    intro key b id stored names
    rw [written, Store.filter?_keeping] at stored
    split at stored
    · obtain rfl := Option.some.inj stored
      exact persists (fresh id names)
    · exact persists (refers key b id stored names)
  have takes {id tag : String} {e : FilterEdit} (taken : now.TakesEdit id tag e next)
      (fresh : ∀ y z outputId, now.store.filter? id = some y → e.apply y = .ok z →
        z.outputId = some outputId → (now.store.backend.find? .outputs outputId).isSome) :
      next.store.Refers := by
    obtain ⟨y, z, hy, -, hz, ⟨-, same⟩ | ⟨-, t, written⟩⟩ := taken
    · exact untouched (congrArg (fun w => w.store.backend.filters) same)
    · exact writes (congrArg World.store written) fun outputId => fresh y z outputId hy hz
  cases stroke with
  | creates b =>
    obtain ⟨-, -, -, none, t, written⟩ := h
    refine writes (congrArg World.store written) fun id names => ?_
    rw [none] at names
    simp at names
  | edits id tag e =>
    refine takes h.2 fun y z outputId hy hz names => ?_
    rw [(h.1.apply hz).2] at names
    exact refers id y outputId hy names
  | marks id tag outputId time =>
    refine takes h.2.2 fun y z named hy hz names => ?_
    rw [FilterEdit.apply_change hz] at names
    obtain rfl : outputId = named := Option.some.inj names
    exact known id tag outputId time rfl
  | makes | tends | records | sends | counts => exact untouched (h.filters_eq (by simp [target?]))

/-- Strokes that mark no blueprint leave all references as good as they were. -/
theorem Leads.refers (h : Leads settings start strokes now) (sound : start.store.Sound)
    (unmarked : ∀ id tag outputId time, Stroke.marks id tag outputId time ∉ strokes)
    (refers : start.store.Refers) : now.store.Refers := by
  induction h with
  | start same => exact refers.of_eq same.filters same.outputs
  | @next strokes stroke own before after now h does same ih =>
    have earlier := ih fun id tag outputId time hs =>
      unmarked id tag outputId time (List.mem_cons_of_mem _ hs)
    refine (does.refers (h.sound sound) ?_ earlier).of_eq same.filters same.outputs
    rintro id tag outputId time rfl
    exact absurd List.mem_cons_self (unmarked id tag outputId time)

namespace Run

/-- The last moment of a run is calm, the receiver's, or a stroke of a client after its other
moments. -/
theorem last_stroke (sound : start.store.Sound) {m : Moment}
    (run : Run settings answers start (m :: past) s) : m.OfReceiver ∨ m.Calm ∨
      ∃ (me : Client) (stroke : Stroke), stroke.Does settings (me.own past) m.before m.after := by
  obtain ⟨mover, before, after⟩ := m
  cases mover with
  | none => exact Or.inl (run.ofReceiver _ List.mem_cons_self rfl)
  | some me =>
    obtain ⟨step, sent⟩ := run.placed.2 _ List.mem_cons_self me rfl
    obtain ⟨strokes, -, -, -, traced⟩ :=
      (run.told sound ⟨me, step⟩ (List.mem_of_getElem? sent)).partway
    rw [Client.own_cons_self] at traced
    cases traced with
    | calm traced calm => exact Or.inr (Or.inl calm)
    | next traced does => exact Or.inr (Or.inr ⟨me, _, does⟩)

/-- In a run that starts without blueprints all outputs that blueprints name are stored at all times. -/
theorem refers (filters : start.store.backend.filters = [])
    (run : Run settings answers start past s) : s.world.store.Refers := by
  have sound : start.store.Sound := .of_empty filters
  induction run with
  | start => exact .of_empty filters
  | @next past s s' mover run move ih =>
    rcases (run.next move).last_stroke sound with receiver | calm | ⟨me, stroke, does⟩
    · have same : s'.world.store = s.world.store := receiver.store
      exact same ▸ ih
    · exact ih.of_eq calm.filters calm.outputs
    · refine does.refers (run.struck sound).1 ?_ ih
      rintro id tag outputId time rfl
      obtain ⟨-, ⟨m, hm, o, stored, -⟩, -⟩ := does
      obtain ⟨o', kept, -⟩ := run.grows sound m (List.mem_of_mem_filter hm) outputId o stored
      rw [Store.output?, Option.bind_eq_some_iff] at kept
      obtain ⟨text, found, -⟩ := kept
      rw [found]
      rfl

end Run

end DatasetFilters
