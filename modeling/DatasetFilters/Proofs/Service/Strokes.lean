import DatasetFilters.Proofs.Service.Story

namespace DatasetFilters

variable {settings : Settings} {answers : Nat → (q : Query) → q.Reply → Prop} {me : Client}
  {past own : List Moment} {start now next : World} {s : Server} {strokes : List Stroke}

theorem World.TakesEdit.sound {id tag : String} {e : FilterEdit} (h : now.TakesEdit id tag e next)
    (sound : now.store.Sound) : next.store.Sound := by
  obtain ⟨y, c, -, -, -, ⟨-, rfl⟩ | ⟨-, t, rfl⟩⟩ := h
  · exact sound.touched
  · exact sound.keeping t rfl

theorem Stroke.Does.sound {stroke : Stroke} (h : stroke.Does settings own now next)
    (sound : now.store.Sound) : next.store.Sound := by
  cases stroke with
  | creates b =>
    obtain ⟨-, etag, -, -, t, rfl⟩ := h
    exact sound.keeping t etag
  | edits id tag e => exact h.2.sound sound
  | marks id tag outputId time => exact h.2.2.sound sound
  | makes | tends | records | sends | counts =>
    exact sound.of_filters_eq (h.filters_eq (by simp [target?]))

/-- The receiver takes a message or goes away. -/
structure Moment.OfReceiver (m : Moment) : Prop where
  mover : m.mover = none
  store : m.after.store = m.before.store
  counters : m.after.counters = m.before.counters

theorem Server.Moves.ofReceiver {answers : (q : Query) → q.Reply → Prop} {s s' : Server}
    (move : s.Moves settings answers none s') :
    (⟨none, s.world, s'.world⟩ : Moment).OfReceiver := by
  cases move <;> exact ⟨rfl, rfl, rfl⟩

theorem Run.ofReceiver (run : Run settings answers start past s) :
    ∀ m ∈ past, m.mover = none → m.OfReceiver := by
  induction run with
  | start => simp
  | next run move ih =>
    intro m hm mover
    rcases List.mem_cons.mp hm with rfl | hm
    · obtain rfl : _ = none := mover
      exact move.ofReceiver
    · exact ih m hm mover

variable (settings) in
/-- What happens at a moment, be it of a client or of the receiver. -/
def Moment.Struck (m : Moment) : Prop :=
  m.OfReceiver ∨ m.Calm ∨ ∃ own, ∃ stroke : Stroke, stroke.Does settings own m.before m.after

theorem Moment.Struck.sound {m : Moment} (h : m.Struck settings) (sound : m.before.store.Sound) :
    m.after.store.Sound := by
  rcases h with receiver | calm | ⟨own, stroke, does⟩
  · rw [receiver.store]
    exact sound
  · exact sound.of_filters_eq calm.filters
  · exact does.sound sound

theorem Traced.struck (h : Traced settings own strokes) : ∀ m ∈ own, m.Struck settings := by
  induction h with
  | start => simp
  | calm h calm ih =>
    intro m hm
    rcases List.mem_cons.mp hm with rfl | hm
    · exact Or.inr (Or.inl calm)
    · exact ih m hm
  | next h does ih =>
    intro m hm
    rcases List.mem_cons.mp hm with rfl | hm
    · exact Or.inr (Or.inr ⟨_, _, does⟩)
    · exact ih m hm

theorem Traced.idle (h : Traced settings own strokes) (now : World) :
    Traced settings (⟨some me, now, now⟩ :: own) strokes :=
  h.calm ⟨⟨rfl, rfl, rfl⟩, rfl⟩

theorem Client.Told.idle {result : Except ServiceError Answer} (h : me.Told settings result own)
    (now : World) : me.Told settings result (⟨some me, now, now⟩ :: own) := by
  obtain ⟨strokes, ends, traced⟩ := h
  exact ⟨strokes, ends, traced.idle now⟩

variable (settings) in
/-- The strokes of a client are the first ones of what its request comes to in some way or other:
the strokes that it would make till its end. -/
def Client.Partway (me : Client) (own : List Moment) : Prop :=
  ∃ strokes later result, me.call.Ends me.caller result (later ++ strokes) ∧
    Traced settings own strokes

theorem Client.Told.partway {result : Except ServiceError Answer} (h : me.Told settings result own) :
    me.Partway settings own := by
  obtain ⟨strokes, ends, traced⟩ := h
  exact ⟨strokes, [], result, ends, traced⟩

theorem Client.Partway.idle (h : me.Partway settings own) (now : World) :
    me.Partway settings (⟨some me, now, now⟩ :: own) := by
  obtain ⟨strokes, later, result, ends, traced⟩ := h
  exact ⟨strokes, later, result, ends, traced.idle now⟩

theorem Client.Partway.earlier {m : Moment} (h : me.Partway settings (m :: own)) :
    me.Partway settings own := by
  obtain ⟨strokes, later, result, ends, traced⟩ := h
  cases traced with
  | calm traced => exact ⟨strokes, later, result, ends, traced⟩
  | @next _ _ strokes stroke traced does =>
    exact ⟨strokes, later ++ [stroke], result, by rwa [List.append_assoc], traced⟩

/-- A request that is done or waits for an answer. -/
def Step.AtRest : Step ε α → Prop
  | done .. | ask .. => True
  | acted .. => False

variable (settings) in
/-- What a request has done so far, as strokes. -/
structure Task.Told (past : List Moment) (task : Task) : Prop where
  partway : task.client.Partway settings (task.client.own past)
  balanced : task.step.AtRest →
    ∃ strokes, Traced settings (task.client.own past) strokes ∧ Balanced strokes
  ended : ∀ r w, task.step = .done r w → task.client.Told settings r (task.client.own past)

theorem Submits.balanced {id : String} {base : List Stroke} (h : Submits id base strokes)
    (hbase : Balanced base) : Balanced strokes := by
  obtain ⟨o, tag, time, -, rfl | rfl⟩ := h
  all_goals refine hbase.append fun l => ?_
  all_goals cases l <;> rfl

theorem FailsToSubmit.balanced {id : String} {base : List Stroke} (h : FailsToSubmit id base strokes)
    (hbase : Balanced base) : Balanced strokes := by
  rcases h with rfl | ⟨o, -, rfl⟩
  · exact hbase
  · exact hbase.makes

/-- Requests that have ended are in balance. -/
theorem ServiceCall.Ends.balanced {call : ServiceCall} {caller : Caller}
    {result : Except ServiceError Answer} (h : call.Ends caller result strokes) :
    Balanced strokes := by
  cases call with
  | create r andSubmit =>
    cases result with
    | ok a =>
      obtain ⟨b, -, h⟩ := h
      cases andSubmit with
      | true => exact h.balanced (balanced_created b)
      | false => exact (show strokes = _ from h) ▸ balanced_created b
    | error e =>
      rcases h with rfl | ⟨-, b, h⟩
      · exact .nil
      · exact h.balanced (balanced_created b)
  | update id u andSubmit selector =>
    cases result with
    | ok a =>
      obtain ⟨base, revises, h⟩ := h
      cases andSubmit with
      | true => exact h.balanced revises.balanced
      | false => exact (show strokes = _ from h) ▸ revises.balanced
    | error e =>
      rcases h with rfl | ⟨-, base, revises, h⟩
      · exact .nil
      · exact h.balanced revises.balanced
  | get | dimensions | dimension | options | option => exact Caller.Looks.balanced h
  | addDimension | removeDimension | addOption | removeOption =>
    rcases h with looks | ⟨-, base, tag, e, looks, rfl⟩
    · exact looks.balanced
    · exact looks.balanced.edits
  | patch id name operations selector =>
    obtain ⟨base, looks, patches⟩ := h
    exact patches.balanced looks.balanced
  | output id => exact (show strokes = _ from h) ▸ .nil
  | updateOutput id u =>
    cases result with
    | ok a =>
      rcases h with rfl | rfl
      all_goals
        intro l
        cases l <;> rfl
    | error e => exact (show strokes = _ from h) ▸ .nil
  | addEvent id r =>
    cases result with
    | ok a =>
      obtain ⟨e, -, rfl⟩ := h
      intro l
      cases l <;> rfl
    | error e => exact (show strokes = _ from h) ▸ .nil

def ServiceCall.isPatch : ServiceCall → Bool
  | patch .. => true
  | _ => false

/-- A stroke that a call may make: only some calls submit blueprints, tend outputs, record events and
count operations. -/
def Stroke.By (call : ServiceCall) : Stroke → Prop
  | marks .. => call.submits = true
  | tends id u _ => call = .updateOutput id u
  | records id e => ∃ r, call = .addEvent id r ∧ r.validate = .ok e
  | counts (.patchOperations _) => call.isPatch = true
  | _ => True

/-- A request makes no strokes but those of its call. -/
theorem ServiceCall.Ends.by {call : ServiceCall} {caller : Caller}
    {result : Except ServiceError Answer} (h : call.Ends caller result strokes) :
    ∀ stroke ∈ strokes, stroke.By call := by
  have looks {id : String} {strokes : List Stroke} (h : caller.Looks id strokes) :
      ∀ stroke ∈ strokes, stroke.By call := by
    rcases h with rfl | ⟨-, tag, rfl⟩ <;> simp [Stroke.By]
  have submits {id : String} {base strokes : List Stroke} (submitting : call.submits = true)
      (h : Submits id base strokes ∨ FailsToSubmit id base strokes)
      (hbase : ∀ stroke ∈ base, stroke.By call) : ∀ stroke ∈ strokes, stroke.By call := by
    rcases h with ⟨o, tag, time, -, rfl | rfl⟩ | rfl | ⟨o, -, rfl⟩
    all_goals simpa [Stroke.By, submitting] using hbase
  have revises {id : String} {strokes : List Stroke} (h : Revises id strokes) :
      ∀ stroke ∈ strokes, stroke.By call := by
    rcases h with rfl | ⟨tag, c, rfl⟩ <;> simp [Stroke.By]
  have created (b : Blueprint) :
      ∀ stroke ∈ [.counts .blueprintsCreated, Stroke.creates b], stroke.By call := by simp [Stroke.By]
  cases call with
  | create r andSubmit =>
    cases result with
    | ok answer =>
      obtain ⟨b, -, h⟩ := h
      cases andSubmit with
      | true => exact submits rfl (Or.inl h) (created b)
      | false => exact (show strokes = _ from h) ▸ created b
    | error e =>
      rcases h with rfl | ⟨submitting, b, h⟩
      · simp
      · exact submits submitting (Or.inr h) (created b)
  | update id u andSubmit selector =>
    cases result with
    | ok answer =>
      obtain ⟨base, hbase, h⟩ := h
      cases andSubmit with
      | true => exact submits rfl (Or.inl h) (revises hbase)
      | false => exact (show strokes = _ from h) ▸ revises hbase
    | error e =>
      rcases h with rfl | ⟨submitting, base, hbase, h⟩
      · simp
      · exact submits submitting (Or.inr h) (revises hbase)
  | get | dimensions | dimension | options | option => exact looks h
  | addDimension | removeDimension | addOption | removeOption =>
    rcases h with h | ⟨-, base, tag, e, h, rfl⟩
    · exact looks h
    · simpa [Stroke.By] using looks h
  | patch id name operations selector =>
    obtain ⟨base, hbase, patches⟩ := h
    generalize carriedOut result = done at patches
    induction patches with
    | start => exact looks hbase
    | idle h o ih => simpa [Stroke.By, isPatch] using ih
    | edit h o tag e ih => simpa [Stroke.By, isPatch] using ih
  | output id => simp [show strokes = [] from h]
  | updateOutput id u =>
    cases result with
    | ok answer => rcases h with rfl | rfl <;> simp [Stroke.By]
    | error e => simp [show strokes = [] from h]
  | addEvent id r =>
    cases result with
    | ok answer =>
      obtain ⟨e, valid, rfl⟩ := h
      simp [Stroke.By, valid]
    | error e => simp [show strokes = [] from h]

theorem Task.told_of_reports {task : Task} (hnow : now.store.Sound)
    (h : task.step.Reports (.told settings task.client) task.client
      (fun a => task.client.Told settings (.ok a)) (task.client.own past)) :
    task.Told settings past := by
  have partway : task.client.Partway settings (task.client.own past) :=
    h.soFar _ (fun _ => trivial) (fun _ _ => Client.Partway.earlier)
      (fun now _ h => h.idle now) (fun _ _ => Client.Told.partway) (fun _ _ => Client.Told.partway) hnow
  obtain ⟨me, step⟩ := task
  have ended : ∀ r w, step = .done r w → me.Told settings r (me.own past) := by
    rintro r w rfl
    cases r with
    | ok a =>
      obtain ⟨now, own, heq, told⟩ := h
      rw [heq]
      exact told.idle now
    | error e =>
      obtain ⟨now, own, heq, told⟩ := h
      rw [heq]
      exact Client.Told.idle told now
  refine ⟨partway, fun rest => ?_, ended⟩
  cases step with
  | done r w =>
    obtain ⟨strokes, ends, traced⟩ := ended r w rfl
    exact ⟨strokes, traced, ends.balanced⟩
  | acted w resume => exact rest.elim
  | ask w q resume => exact h.1.2

namespace Run

/-- From a sound store on, all moments of a run are strokes, but for the calm ones and the
receiver's. -/
theorem struck (sound : start.store.Sound) (run : Run settings answers start past s) :
    s.world.store.Sound ∧ ∀ m ∈ past, m.before.store.Sound ∧ m.Struck settings := by
  induction run with
  | start => exact ⟨sound, by simp⟩
  | @next past s s' mover run move ih =>
    obtain ⟨hnow, earlier⟩ := ih
    have before : ∀ m ∈ (⟨mover, s.world, s'.world⟩ : Moment) :: past, m.before.store.Sound := by
      intro m hm
      rcases List.mem_cons.mp hm with rfl | hm
      · exact hnow
      · exact (earlier m hm).1
    have last : (⟨mover, s.world, s'.world⟩ : Moment).Struck settings := by
      rcases move.of_client run.placed.1 with ⟨rfl, -⟩ | ⟨me, step, rfl, -, here, -⟩
      · exact Or.inl move.ofReceiver
      · have reports := (run.next move).accounts_on before (fun _ _ => trivial) here
          (ServiceCall.story_request me)
        have told : Task.Told settings _ ⟨me, step⟩ := Task.told_of_reports hnow reports
        obtain ⟨strokes, -, -, -, traced⟩ := told.partway
        rw [Client.own_cons_self] at traced
        exact traced.struck _ List.mem_cons_self
    refine ⟨last.sound hnow, fun m hm => ?_⟩
    rcases List.mem_cons.mp hm with rfl | hm
    · exact ⟨hnow, last⟩
    · exact earlier m hm

/-- At any time of a run all requests have done what their calls come to. -/
theorem told (sound : start.store.Sound) (run : Run settings answers start past s) :
    ∀ task ∈ s.tasks, task.Told settings past := by
  intro task sent
  obtain ⟨i, hi⟩ := List.mem_iff_getElem?.mp sent
  obtain rfl := run.placed.1 i task hi
  obtain ⟨hnow, earlier⟩ := run.struck sound
  exact Task.told_of_reports hnow (run.accounts_on (fun m hm => (earlier m hm).1)
    (fun _ _ => trivial) hi (ServiceCall.story_request task.client))

/-- What the documents of a store are like and no stroke changes, they are like throughout a run. -/
theorem holds {I : Store → Prop} (sound : start.store.Sound) (hstart : I start.store)
    (same : ∀ s s' : Store, s'.backend.filters = s.backend.filters →
      s'.backend.outputs = s.backend.outputs → I s → I s')
    (kept : ∀ own (stroke : Stroke) now next, now.store.Sound → stroke.Does settings own now next →
      I now.store → I next.store)
    (run : Run settings answers start past s) : I s.world.store ∧ ∀ m ∈ past, I m.before.store := by
  induction run with
  | start => exact ⟨hstart, by simp⟩
  | @next past s s' mover run move ih =>
    obtain ⟨hnow, earlier⟩ := ih
    obtain ⟨before, struck⟩ := ((run.next move).struck sound).2 _ List.mem_cons_self
    refine ⟨?_, fun m hm => ?_⟩
    · rcases struck with receiver | calm | ⟨own, stroke, does⟩
      · exact receiver.store ▸ hnow
      · exact same _ _ calm.filters calm.outputs hnow
      · exact kept own stroke _ _ before does hnow
    · rcases List.mem_cons.mp hm with rfl | hm
      · exact hnow
      · exact earlier m hm

end Run

end DatasetFilters
