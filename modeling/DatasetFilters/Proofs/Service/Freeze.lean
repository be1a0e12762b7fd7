import DatasetFilters.Proofs.Output.Artefacts
import DatasetFilters.Proofs.Service.Delivery
import DatasetFilters.Proofs.Service.Strokes

namespace DatasetFilters

section

variable {settings : Settings} {answers : Nat → (q : Query) → q.Reply → Prop} {me : Client}
  {past own : List Moment} {start now next : World} {s : Server} {stroke : Stroke} {id : String}

/-- An output as it was, in all that is fixed. -/
structure Output.Keeps (o o' : Output) : Prop where
  id : o'.id = o.id
  filterId : o'.filterId = o.filterId
  instanceId : o'.instanceId = o.instanceId
  dataset : o'.dataset = o.dataset
  dimensions : o'.dimensions = o.dimensions
  kind : o'.kind = o.kind
  published : o'.published = o.published
  /-- Once an output is published, a private link that is there is final. -/
  links : o.published = some true → ∀ f a, o.downloads.get? f = some a → a.privateLink ≠ "" →
    ∃ a', o'.downloads.get? f = some a' ∧ a'.privateLink = a.privateLink

namespace Output.Keeps

variable {o o' o'' : Output}

theorem of_plan (plan : o'.plan = o.plan)
    (links : o.published = some true → ∀ f a, o.downloads.get? f = some a → a.privateLink ≠ "" →
      ∃ a', o'.downloads.get? f = some a' ∧ a'.privateLink = a.privateLink) : o.Keeps o' where
  id := (congrArg Output.id plan :)
  filterId := (congrArg Output.filterId plan :)
  instanceId := (congrArg Output.instanceId plan :)
  dataset := (congrArg Output.dataset plan :)
  dimensions := (congrArg Output.dimensions plan :)
  kind := (congrArg Output.kind plan :)
  published := (congrArg Output.published plan :)
  links := links

theorem refl (o : Output) : o.Keeps o := of_plan rfl fun _ _ a stored _ => ⟨a, stored, rfl⟩

theorem trans (h : o.Keeps o') (h' : o'.Keeps o'') : o.Keeps o'' where
  id := h'.id.trans h.id
  filterId := h'.filterId.trans h.filterId
  instanceId := h'.instanceId.trans h.instanceId
  dataset := h'.dataset.trans h.dataset
  dimensions := h'.dimensions.trans h.dimensions
  kind := h'.kind.trans h.kind
  published := h'.published.trans h.published
  links published f a stored final := by
    obtain ⟨a', stored', same⟩ := h.links published f a stored final
    obtain ⟨a'', stored'', same'⟩ :=
      h'.links (h.published.trans published) f a' stored' (by rwa [same])
    exact ⟨a'', stored'', same'.trans same⟩

end Output.Keeps

/-- An update that is taken in leaves what is fixed. -/
theorem OutputUpdate.keeps {u : OutputUpdate} {url : String} {t t' : Instant} {o p : Output}
    {completed : Bool} (h : u.apply url t o = .ok (p, completed)) (store : Store) :
    o.Keeps (store.restampedOutput t' p) := by
  refine .of_plan (plan_apply h) fun published f a stored final => ?_
  obtain ⟨permitted, rfl, -⟩ := apply_ok h
  change ∃ a', ((u.merge url o).completeIfReady t).downloads.get? f = some a' ∧ _
  rw [Output.downloads_completeIfReady, get?_merge]
  refine privateLink_delivered ?_ stored final
  cases replaces : u.replacesPrivate o f with
  | false => rfl
  | true =>
    have offends : f.privateField ∈ u.forbidden o :=
      List.mem_append_right _ (mem_locked_iff.mpr ⟨published, f, replaces, rfl⟩)
    rw [permitted] at offends
    cases offends

theorem Stroke.Does.output_keeps (h : stroke.Does settings own now next) {o : Output}
    (stored : now.store.output? id = some o) :
    ∃ o', next.store.output? id = some o' ∧ o.Keeps o' := by
  cases stroke with
  | creates | edits | marks | sends | counts =>
    exact ⟨o, (Store.output?_of_outputs_eq (h.outputs_eq (by simp [target?])) id).trans stored, .refl o⟩
  | makes made =>
    obtain ⟨free, -, t, rfl⟩ := h
    have other : id ≠ made.id := by
      rintro rfl
      rw [Store.output?_of_free free] at stored
      cases stored
    exact ⟨o, ((Store.output?_puttingOutput ..).trans (if_neg other)).trans stored, .refl o⟩
  | tends key u completed =>
    obtain ⟨t, x, p, there, applied, rfl⟩ := h
    by_cases same : id = key
    · subst same
      obtain rfl := Option.some.inj (stored.symm.trans there)
      exact ⟨_, Store.output?_puttingOutput_self .., OutputUpdate.keeps applied now.store⟩
    · exact ⟨o, ((Store.output?_puttingOutput ..).trans (if_neg same)).trans stored, .refl o⟩
  | records key e =>
    obtain ⟨t, x, there, rfl⟩ := h
    by_cases same : id = key
    · subst same
      obtain rfl := Option.some.inj (stored.symm.trans there)
      exact ⟨_, Store.output?_puttingOutput_self ..,
        .of_plan rfl fun _ _ a stored _ => ⟨a, stored, rfl⟩⟩
    · exact ⟨o, ((Store.output?_puttingOutput ..).trans (if_neg same)).trans stored, .refl o⟩

theorem Moment.Struck.output_keeps {m : Moment} (h : m.Struck settings) {o : Output}
    (stored : m.before.store.output? id = some o) :
    ∃ o', m.after.store.output? id = some o' ∧ o.Keeps o' := by
  rcases h with receiver | calm | ⟨own, stroke, does⟩
  · exact ⟨o, receiver.store ▸ stored, .refl o⟩
  · exact ⟨o, (Store.output?_of_outputs_eq calm.outputs id).trans stored, .refl o⟩
  · exact does.output_keeps stored

/-- What was stored at any time of a run is there at its end, with all that is fixed. -/
theorem Run.output_keeps (sound : start.store.Sound) (run : Run settings answers start past s) :
    ∀ m ∈ past, ∀ id o, m.before.store.output? id = some o →
      ∃ o', s.world.store.output? id = some o' ∧ o.Keeps o' := by
  induction run with
  | start => simp
  | @next past s s' mover run move ih =>
    intro m hm id o stored
    have struck := (((run.next move).struck sound).2 _ List.mem_cons_self).2
    rcases List.mem_cons.mp hm with rfl | hm
    · exact struck.output_keeps stored
    · obtain ⟨o', stored', keeps⟩ := ih m hm id o stored
      obtain ⟨o'', stored'', keeps'⟩ := struck.output_keeps stored'
      exact ⟨o'', stored'', keeps.trans keeps'⟩

/-- How an update that offends fails: with all that it names in vain, in order, unless the store does. -/
def OutputUpdate.Refused (u : OutputUpdate) (o : Output) (s : Store) (e : ServiceError) : Prop :=
  match s.backend.failure? .modify .outputs with
  | some f => e = .ofStore f
  | none => ∃ fields, e = .forbidden fields ∧ fields.Sublist OutputUpdate.guarded ∧
      ∀ name, name ∈ fields ↔ u.Offends o name

end

namespace Small.Fixed

/-- Somebody known names another private link of the published output. -/
def replacement : OutputUpdate :=
  { downloads := some { csv := some { privateLink := some "s3://b" } } }

def worker : Client := ⟨0, known, .updateOutput "o" replacement⟩

def calls : List (Caller × ServiceCall) := [(worker.caller, worker.call)]

def moments : List Moment := course settings reply (offering issued) calls

theorem computed : moments.length = 3 ∧ ∀ m ∈ moments, m.mover = some worker ∧
    m.before.store.output? "o" = some issued ∧
    m.before.store.backend.failure? .modify .outputs = none := by
  decide +kernel

theorem offends : replacement.Offends issued "downloads.csv.private" :=
  .privateLink (f := .csv) (a := { href := "/csv", privateLink := "s3://a" }) rfl rfl rfl rfl (by decide)

end Small.Fixed

end DatasetFilters
