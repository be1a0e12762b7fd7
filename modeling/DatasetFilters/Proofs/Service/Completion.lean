import DatasetFilters.Proofs.Service.Counting

namespace DatasetFilters

section

variable {settings : Settings} {answers : Nat → (q : Query) → q.Reply → Prop} {me : Client}
  {past own : List Moment} {start now next : World} {s : Server} {strokes : List Stroke}
  {stroke : Stroke} {id : String}

/-- What an output is like when it is made. -/
structure Output.New (o : Output) : Prop extends o.Settled where
  open_ : o.isCompleted = false
  unreported : o.completions = 0

/-- An output as it goes on: nothing is taken back. -/
structure Output.Grows (o o' : Output) : Prop where
  events : o.events <+: o'.events
  completed : o.isCompleted = true → o'.isCompleted = true

theorem Output.Grows.refl (o : Output) : o.Grows o := ⟨List.prefix_refl _, fun h => h⟩

theorem Output.Grows.trans {o o' o'' : Output} (h : o.Grows o') (h' : o'.Grows o'') : o.Grows o'' :=
  ⟨h.events.trans h'.events, fun completed => h'.completed (h.completed completed)⟩

/-- What an output may be made into, while `n` times it is reported as completed by others. -/
structure Output.Becomes (o o' : Output) (n : Nat) : Prop extends o.Grows o' where
  settled : o.Settled → o'.Settled
  reported : o'.completions + o.isCompleted.toNat = o.completions + o'.isCompleted.toNat + n

/-- How many times a stroke reports an output as completed. -/
def Stroke.reports (id : String) : Stroke → Nat
  | records id' e => (id' == id && e.kind == .completed).toNat
  | _ => 0

theorem Output.new_stamped (id : String) (b : Blueprint) (time : Instant) (stamp : UInt64) :
    ((ofBlueprint id b time).stamped stamp).New where
  linked := (settled_ofBlueprint id b time).linked
  completed := (settled_ofBlueprint id b time).completed
  opened := (settled_ofBlueprint id b time).opened
  open_ := rfl
  unreported := rfl

theorem OutputUpdate.becomes {u : OutputUpdate} {downloadUrl : String} {t t' : Instant} {o p : Output}
    {completed : Bool} (h : u.apply downloadUrl t o = .ok (p, completed)) (store : Store) :
    o.Becomes (store.restampedOutput t' p) 0 where
  events := by
    change o.events <+: p.events
    rw [events_apply h]
    exact List.prefix_append _ _
  completed before := by
    change p.isCompleted = true
    rw [isCompleted_apply h, before, Bool.true_or]
  settled settled := by
    have after := settled_apply h settled
    exact ⟨after.linked, after.completed, after.opened⟩
  reported := by
    change p.completions + _ = _ + p.isCompleted.toNat + 0
    rw [completions_apply h, isCompleted_apply h]
    cases completed with
    | true =>
      rw [isCompleted_of_apply_true h rfl]
      rfl
    | false => simp

/-- An output may be given one more event, which is counted if it reports the completion. -/
theorem Output.becomes_record (o : Output) (e : Event) (store : Store) (t : Instant) :
    o.Becomes (store.restampedOutput t { o with events := o.events ++ [e] })
      (e.kind == .completed).toNat where
  events := List.prefix_append _ _
  completed before := before
  settled settled := by
    obtain ⟨time, rest, opened⟩ := settled.opened
    refine ⟨settled.linked, settled.completed, time, rest ++ [e], ?_⟩
    change o.events ++ [e] = _
    rw [opened]
    rfl
  reported := by
    have counted : (store.restampedOutput t { o with events := o.events ++ [e] }).completions =
        o.completions + (e.kind == .completed).toNat := by
      change (o.events ++ [e]).countP _ = _
      rw [List.countP_append, List.countP_singleton, completions]
      cases e.kind == .completed <;> rfl
    rw [counted]
    change _ = o.completions + o.isCompleted.toNat + _
    omega

/-- What a stroke does to the output of an id: nothing, or it makes one, or makes something of it. -/
theorem Stroke.Does.output?_cases (h : stroke.Does settings own now next) (id : String) :
    (next.store.output? id = now.store.output? id ∧ stroke.reports id = 0) ∨
    (now.store.output? id = none ∧ stroke.reports id = 0 ∧
      ∃ o, next.store.output? id = some o ∧ o.New) ∨
    ∃ o o', now.store.output? id = some o ∧ next.store.output? id = some o' ∧
      o.Becomes o' (stroke.reports id) := by
  cases stroke with
  | creates | edits | marks | sends | counts =>
    exact Or.inl ⟨Store.output?_of_outputs_eq (h.outputs_eq (by simp [target?])) id, rfl⟩
  | makes o =>
    obtain ⟨free, ⟨b, time, stamp, ho⟩, t, rfl⟩ := h
    by_cases same : id = o.id
    · subst same
      refine Or.inr (Or.inl ⟨Store.output?_of_free free, rfl, o, ?_, ?_⟩)
      · exact Store.output?_puttingOutput_self ..
      · rw [ho]
        exact Output.new_stamped _ b time stamp
    · refine Or.inl ⟨?_, rfl⟩
      exact (Store.output?_puttingOutput ..).trans (if_neg same)
  | tends key u completed =>
    obtain ⟨t, o, p, stored, applied, rfl⟩ := h
    by_cases same : id = key
    · subst same
      exact Or.inr (Or.inr ⟨o, _, stored, Store.output?_puttingOutput_self ..,
        OutputUpdate.becomes applied now.store⟩)
    · refine Or.inl ⟨?_, rfl⟩
      exact (Store.output?_puttingOutput ..).trans (if_neg same)
  | records key e =>
    obtain ⟨t, o, stored, rfl⟩ := h
    by_cases same : id = key
    · subst same
      have becomes := o.becomes_record e now.store t
      refine Or.inr (Or.inr ⟨o, _, stored, Store.output?_puttingOutput_self .., ?_⟩)
      simpa only [reports, beq_self_eq_true, Bool.true_and] using becomes
    · refine Or.inl ⟨?_, ?_⟩
      · exact (Store.output?_puttingOutput ..).trans (if_neg same)
      · rw [reports, beq_false_of_ne (Ne.symm same)]
        rfl

/-- All outputs are settled. -/
def Store.Settled (s : Store) : Prop := ∀ id o, s.output? id = some o → o.Settled

theorem Store.Settled.of_empty {s : Store} (h : s.backend.outputs = []) : s.Settled := by
  intro id o stored
  rw [Store.output?_of_empty h] at stored
  exact absurd stored (by simp)

theorem Stroke.Does.settled (h : stroke.Does settings own now next) (settled : now.store.Settled) :
    next.store.Settled := by
  intro id o stored
  rcases h.output?_cases id with
    ⟨same, -⟩ | ⟨-, -, o', stored', new⟩ | ⟨x, o', before, stored', becomes⟩
  · exact settled id o (same ▸ stored)
  · obtain rfl := Option.some.inj (stored.symm.trans stored')
    exact new.toSettled
  · obtain rfl := Option.some.inj (stored.symm.trans stored')
    exact becomes.settled (settled id x before)

theorem Store.KeepsOutputs.of_outputs_eq {s s' : Store} (h : s.KeepsOutputs)
    (same : s'.backend.outputs = s.backend.outputs) : s'.KeepsOutputs := by
  intro key text found
  simp only [Backend.find?, Backend.documents, same] at found
  exact h key text found

theorem Stroke.Does.keepsOutputs (h : stroke.Does settings own now next)
    (keeps : now.store.KeepsOutputs) : next.store.KeepsOutputs := by
  cases stroke with
  | creates | edits | marks | sends | counts =>
    exact keeps.of_outputs_eq (h.outputs_eq (by simp [target?]))
  | makes o =>
    obtain ⟨-, -, t, rfl⟩ := h
    exact keeps.puttingOutput t rfl
  | tends id u completed =>
    obtain ⟨t, o, p, stored, applied, rfl⟩ := h
    have same : p.plan.id = o.plan.id := congrArg Output.id (OutputUpdate.plan_apply applied)
    have hid : p.id = o.id := same
    exact keeps.puttingOutput t (hid.trans (keeps.id_eq stored))
  | records id e =>
    obtain ⟨t, o, stored, rfl⟩ := h
    have hid : o.id = id := keeps.id_eq stored
    exact keeps.puttingOutput t hid

/-- At no moment is anything taken back from an output. -/
theorem Moment.Struck.grows {m : Moment} (h : m.Struck settings) {o : Output}
    (stored : m.before.store.output? id = some o) :
    ∃ o', m.after.store.output? id = some o' ∧ o.Grows o' := by
  rcases h with receiver | calm | ⟨own, stroke, does⟩
  · exact ⟨o, receiver.store ▸ stored, .refl o⟩
  · exact ⟨o, (Store.output?_of_outputs_eq calm.outputs id).trans stored, .refl o⟩
  · rcases does.output?_cases id with
      ⟨same, -⟩ | ⟨free, -⟩ | ⟨x, o', before, after, becomes⟩
    · exact ⟨o, same.trans stored, .refl o⟩
    · rw [free] at stored
      exact absurd stored (by simp)
    · obtain rfl := Option.some.inj (stored.symm.trans before)
      exact ⟨o', after, becomes.toGrows⟩

/-- What is stored at any moment of a run is there at its end, having only grown. -/
theorem Run.grows (sound : start.store.Sound) (run : Run settings answers start past s) :
    ∀ m ∈ past, ∀ id o, m.after.store.output? id = some o →
      ∃ o', s.world.store.output? id = some o' ∧ o.Grows o' := by
  induction run with
  | start => simp
  | @next past s s' mover run move ih =>
    intro m hm id o stored
    rcases List.mem_cons.mp hm with rfl | hm
    · exact ⟨o, stored, .refl o⟩
    · obtain ⟨o', stored', grows⟩ := ih m hm id o stored
      have struck := (((run.next move).struck sound).2 _ List.mem_cons_self).2
      obtain ⟨o'', stored'', grows'⟩ := struck.grows stored'
      exact ⟨o'', stored'', grows.trans grows'⟩

/-- A request that has succeeded, or does so at once if it goes on. -/
def Step.succeeds (now : World) : Step ε α → Bool
  | done r _ => r.isOk
  | acted _ resume => match resume now with
    | done r _ => r.isOk
    | _ => false
  | ask .. => false

/-- By this request an event that reports an output as completed was accepted. -/
def Task.reports (now : World) (id : String) (task : Task) : Bool :=
  match task.client.call with
  | .addEvent id' r =>
    id' == id && r.validate.toOption.any (·.kind == .completed) && task.step.succeeds now
  | _ => false

variable (settings) in
/-- The terms of a request that records an event at its second moment, if at all. -/
def Terms.recording : Terms ServiceError where
  given _ := True
  always own := own.length ≤ 2 ∧ (own.length ≤ 1 → Traced settings own [])
  asking _ := False
  failed _ own := Traced settings own []

/-- A request to add an event records it, at its second moment, if it is a valid one. -/
theorem Outputs.records_addEvent (id : String) (r : EventRequest) (caller : Caller) :
    (addEvent id r caller).Accounts (.recording settings) me [] fun _ own =>
      own.length = 2 ∧ ∃ e, r.validate = .ok e ∧ Traced settings own [.records id e] := by
  refine Request.accounts_ite (fun _ => Request.accounts_fail _ .start) fun _ => ?_
  refine Request.Accounts.bind (p := fun e own => r.validate = .ok e ∧ own = [])
    (Request.accounts_result (fun e he => ⟨eq_ok_of_mapError he, rfl⟩) fun _ _ => .start) ?_
  rintro e _ ⟨valid, rfl⟩
  refine Request.Accounts.bind (p := fun _ own => own.length = 2 ∧ Traced settings own [.records id e])
    ?_ fun _ own h => Request.accounts_pure ⟨h.1, e, valid, h.2⟩
  have ticks : Request.now.Accounts (.recording settings) me []
      fun _ own => own.length = 1 ∧ Traced settings own [] := by
    refine Request.accounts_action fun now _ _ => ?_
    have calm : Traced settings [⟨some me, now, { now with readings := now.readings + 1 }⟩] [] :=
      Traced.start.calm ⟨⟨rfl, rfl, rfl⟩, rfl⟩
    exact ⟨⟨by simp, fun _ => calm⟩, rfl, calm⟩
  refine ticks.bind ?_
  rintro t own₁ ⟨one, h₁⟩
  have accesses : (Request.access fun s => s.addOutputEvent t id e).Accounts
      (.recording settings) me own₁
      (Step.Outcome (fun _ own => own.length = 2 ∧ Traced settings own [.records id e])
        fun _ own => Traced settings own []) := by
    refine Request.accounts_action fun now _ _ => ?_
    rcases now.store.addOutputEvent_cases t id e with ⟨error, he⟩ | ⟨o, p, ho, rfl, he⟩ <;>
      simp only [he]
    · exact ⟨⟨by simp [one], by simp [one]⟩, h₁.calm ⟨⟨rfl, rfl, rfl⟩, rfl⟩⟩
    · exact ⟨⟨by simp [one], by simp [one]⟩, by simp [one], h₁.next ⟨t, o, ho, rfl⟩⟩
  refine accesses.bind ?_
  intro result own₂ h₂
  cases result with
  | ok o => exact Request.accounts_pure h₂
  | error error => exact Request.accounts_fail _ h₂

/-- A request to add an event has recorded it if and only if it succeeds. -/
theorem Task.records_of_reports {task : Task} {r : EventRequest}
    (call : task.client.call = .addEvent id r) (hnow : now.store.Sound)
    (h : task.step.Reports (.recording settings) task.client (fun _ own =>
      own.length = 2 ∧ ∃ e, r.validate = .ok e ∧ Traced settings own [.records id e]) own) :
    (task.step.succeeds now = true ∧
        ∃ e, r.validate = .ok e ∧ Traced settings own [.records id e]) ∨
      (task.step.succeeds now = false ∧ Traced settings own []) := by
  obtain ⟨me, step⟩ := task
  cases step with
  | done result w =>
    cases result with
    | ok a =>
      obtain ⟨now, own, rfl, -, e, valid, traced⟩ := h
      exact Or.inl ⟨rfl, e, valid, traced.idle now⟩
    | error error =>
      obtain ⟨now, own, rfl, traced⟩ := h
      exact Or.inr ⟨rfl, Traced.idle traced now⟩
  | ask w q resume => exact h.1.2.elim
  | acted w resume =>
    obtain ⟨⟨-, first⟩, rest⟩ := h
    have goesOn := rest now hnow
    rw [Step.succeeds]
    cases next : resume now with
    | done result w' =>
      rw [next] at goesOn
      cases result with
      | ok a => exact Or.inl ⟨rfl, goesOn.2.2⟩
      | error error => exact Or.inr ⟨rfl, goesOn.2⟩
    | acted w' resume' =>
      -- another moment is to come, so this was the first one
      rw [next] at goesOn
      have short := (goesOn trivial).1.1
      exact Or.inr ⟨rfl, first (Nat.le_of_succ_le_succ short)⟩
    | ask w' q resume' =>
      rw [next] at goesOn
      exact (goesOn.2 trivial).1.2.elim

/-- How often an output has been reported as completed by others. -/
def World.reported (id : String) (w : World) : Int :=
  (w.store.output? id).elim 0 fun o => o.completions - o.isCompleted.toNat

/-- A stroke reports an output as completed as often as its events do. -/
theorem Stroke.Does.reported (h : stroke.Does settings own now next) (id : String) :
    next.reported id - now.reported id = stroke.reports id := by
  unfold World.reported
  rcases h.output?_cases id with
    ⟨same, none⟩ | ⟨free, none, o, there, new⟩ | ⟨o, o', before, after, becomes⟩
  · rw [same, none, sub_self]
    rfl
  · rw [free, there, none, Option.elim_some, new.unreported, new.open_]
    rfl
  · rw [before, after, Option.elim_some, Option.elim_some]
    have := becomes.reported
    omega

theorem Traced.reported (h : Traced settings own strokes) (id : String) :
    (own.map fun m => m.after.reported id - m.before.reported id).sum =
      ((strokes.map (Stroke.reports id)).sum : Nat) := by
  induction h with
  | start => rfl
  | calm h calm ih =>
    rw [List.map_cons, List.sum_cons, ih, World.reported, World.reported,
      Store.output?_of_outputs_eq calm.outputs, sub_self, zero_add]
  | next h does ih =>
    rw [List.map_cons, List.sum_cons, ih, List.map_cons, List.sum_cons, does.reported]
    rfl

/-- No other call reports an output as completed. -/
theorem Task.Told.reported_of_other {task : Task} (told : task.Told settings past)
    (other : ∀ id r, task.client.call ≠ .addEvent id r) (id : String) :
    ((task.client.own past).map fun m => m.after.reported id - m.before.reported id).sum = 0 := by
  obtain ⟨strokes, later, result, ends, traced⟩ := told.partway
  have idle : ∀ n ∈ strokes.map (Stroke.reports id), n = 0 := by
    intro n hn
    obtain ⟨stroke, hmem, rfl⟩ := List.mem_map.mp hn
    have mine := ends.by stroke (List.mem_append_right later hmem)
    cases stroke with
    | records id' e =>
      obtain ⟨r, call, -⟩ := mine
      exact absurd call (other id' r)
    | _ => rfl
  rw [traced.reported, List.sum_eq_zero idle]
  rfl

theorem Run.reported (sound : start.store.Sound) (run : Run settings answers start past s) {task : Task}
    (sent : task ∈ s.tasks) (id : String) :
    ((task.client.own past).map fun m => m.after.reported id - m.before.reported id).sum =
      ((task.reports s.world id).toNat : Int) := by
  obtain ⟨hnow, struck⟩ := run.struck sound
  have told := run.told sound task sent
  have elsewhere (other : ∀ id r, task.client.call ≠ .addEvent id r) :
      task.reports s.world id = false := by
    unfold Task.reports
    split
    next id' r call => exact absurd call (other id' r)
    next => rfl
  by_cases adds : ∃ id r, task.client.call = .addEvent id r
  · obtain ⟨id', r, call⟩ := adds
    obtain ⟨i, hi⟩ := List.mem_iff_getElem?.mp sent
    obtain rfl := run.placed.1 i task hi
    have accounts : (task.client.call.request settings task.client.caller).Accounts
        (.recording settings) task.client [] fun _ own => own.length = 2 ∧
          ∃ e, r.validate = .ok e ∧ Traced settings own [.records id' e] := by
      rw [call]
      exact (Outputs.records_addEvent id' r task.client.caller).bind
        fun _ _ h => Request.accounts_pure h
    have reports := run.accounts_on (fun m hm => (struck m hm).1) (fun _ _ => trivial) hi accounts
    simp only [Task.reports, call]
    rcases Task.records_of_reports call hnow reports with ⟨succeeds, e, valid, traced⟩ | ⟨fails, traced⟩
    · rw [traced.reported, succeeds, valid]
      simp only [List.map_cons, List.map_nil, List.sum_singleton, Stroke.reports, Except.toOption,
        Option.any_some, Bool.and_true]
    · rw [traced.reported, fails, Bool.and_false]
      rfl
  · have other : ∀ id r, task.client.call ≠ .addEvent id r := fun id r call => adds ⟨id, r, call⟩
    rw [told.reported_of_other other, elsewhere other]
    rfl

/-- In a run from the beginning, the reports are the accepted events. -/
theorem Run.reported_eq (sound : start.store.Sound) (outputs : start.store.backend.outputs = [])
    (run : Run settings answers start past s) (id : String) :
    s.world.reported id = (s.tasks.countP (Task.reports s.world id) : Int) := by
  have idle : ∀ m ∈ past, m.mover = none → m.after.reported id - m.before.reported id = 0 := by
    intro m hm mover
    rw [World.reported, World.reported, (run.ofReceiver m hm mover).store, sub_self]
  have nothing : start.reported id = 0 := by
    rw [World.reported, Store.output?_of_empty outputs]
    rfl
  have counted (tasks : List Task) : (tasks.countP (Task.reports s.world id) : Int) =
      (tasks.map fun task => ((task.reports s.world id).toNat : Int)).sum := by
    induction tasks with
    | nil => rfl
    | cons task tasks ih =>
      rw [List.countP_cons, List.map_cons, List.sum_cons, ← ih]
      cases task.reports s.world id <;> simp [add_comm]
  rw [← sub_zero (s.world.reported id), ← nothing, ← run.sum_gain (World.reported id),
    run.sum_eq _ idle, counted]
  exact congrArg List.sum (List.map_congr_left fun task sent => run.reported sound sent id)

/-- The state of an output in a run: it is completed just if both artefacts are there with a link or
skipped, it was opened by the event that created it, and it is reported as completed once if it is, and
once for each event of that kind that was accepted for it. -/
structure Output.Stands (o : Output) (s : Server) : Prop where
  completed : o.state = .completed ↔ o.Delivered
  opened : ∃ t rest, o.events = ⟨.created, t⟩ :: rest
  reported : o.completions =
    (if o.state = .completed then 1 else 0) + s.tasks.countP (Task.reports s.world o.id)

/-- At any time of a run that starts without outputs, whatever fails and however requests come in
between each other, every output stands as it should, and what was stored at an earlier moment has kept
its events, with others after them, and has stayed completed if it was. -/
theorem Run.completion (sound : start.store.Sound) (outputs : start.store.backend.outputs = [])
    (run : Run settings answers start past s) :
    (∀ id o, s.world.store.output? id = some o → o.id = id ∧ o.Stands s) ∧
      ∀ m ∈ past, ∀ id o, m.after.store.output? id = some o →
        ∃ o', s.world.store.output? id = some o' ∧ o.events <+: o'.events ∧
          (o.state = .completed → o'.state = .completed) := by
  have settled := (run.holds (I := Store.Settled) sound (.of_empty outputs)
    (fun _ _ _ ho h id o stored => h id o (Store.output?_of_outputs_eq ho id ▸ stored))
    fun _ _ _ _ _ does h => does.settled h).1
  have keeps := (run.holds (I := Store.KeepsOutputs) sound (.of_empty outputs)
    (fun _ _ _ ho h => h.of_outputs_eq ho) fun _ _ _ _ _ does h => does.keepsOutputs h).1
  refine ⟨fun id o stored => ?_, fun m hm id o stored => ?_⟩
  · obtain rfl := keeps.id_eq stored
    have settled := settled o.id o stored
    refine ⟨rfl, ?_, settled.opened, ?_⟩
    · rw [← Output.isCompleted_iff]
      exact settled.completed
    · have reported := run.reported_eq sound outputs o.id
      rw [World.reported, stored, Option.elim_some] at reported
      have once : o.isCompleted.toNat = if o.state = .completed then 1 else 0 := by
        cases state : o.state <;> simp [Output.isCompleted, state]
      omega
  · obtain ⟨o', stored', grows⟩ := run.grows sound m hm id o stored
    exact ⟨o', stored', grows.events,
      fun h => Output.isCompleted_iff.mp (grows.completed (Output.isCompleted_iff.mpr h))⟩

end

namespace Small.Whole

/-- The output of the small run was completed by its delivery and reported once more. -/
theorem reported_twice : ∃ s o, Run settings answers world moments s ∧
    s.world.store.output? "o" = some o ∧ o.state = .completed ∧ o.Delivered ∧ o.completions = 2 ∧
    s.tasks.countP (Task.reports s.world "o") = 1 := by
  obtain ⟨s, run, left, -⟩ := run
  obtain ⟨stands, -⟩ := Run.completion (.of_empty rfl) rfl run
  obtain ⟨-, -, delivered, -⟩ := computed
  rw [← left, Option.any_eq_true] at delivered
  obtain ⟨o, stored, facts⟩ := delivered
  rw [Bool.and_eq_true, beq_iff_eq] at facts
  obtain ⟨completed, twice⟩ := facts
  obtain ⟨hid, stand⟩ := stands "o" o stored
  have state := Output.isCompleted_iff.mp completed
  have reported := stand.reported
  rw [twice, if_pos state, hid] at reported
  exact ⟨s, o, run, stored, state, stand.completed.mp state, twice, by omega⟩

end Small.Whole

end DatasetFilters
