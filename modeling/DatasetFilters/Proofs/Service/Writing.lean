import DatasetFilters.Proofs.Service.Composition
import DatasetFilters.Proofs.Service.Editing
import DatasetFilters.Proofs.Service.Strokes

namespace DatasetFilters

/-- After one of these moments a blueprint of the same id and dimensions was stored. -/
def Shown (own : List Moment) (b : Blueprint) : Prop :=
  ∃ m ∈ own, ∃ x, m.after.Stores x ∧ x.id = b.id ∧ x.dimensions = b.dimensions

theorem Shown.later {b : Blueprint} (m : Moment) (own : List Moment) (h : Shown own b) :
    Shown (m :: own) b := by
  obtain ⟨n, hn, h⟩ := h
  exact ⟨n, List.mem_cons_of_mem m hn, h⟩

/-- What a client may write, after these moments of its own. -/
inductive Client.Writes (me : Client) (own : List Moment) (now next : World) : Prop
  | rests (filters : next.store.backend.filters = now.store.backend.filters)
      (outputs : next.store.backend.outputs = now.store.backend.outputs)
  | creates (b : Blueprint) (t : Instant) (named : List Dimension)
      (normal : Blueprints.normalise [] named = .ok b.dimensions)
      (kept : next.store = now.store.keeping t b)
  | edits (id tag : String) (e : FilterEdit) (asked : (∃ c, e = .change c) ∨ me.call.Asks id e)
      (takes : now.TakesEdit id tag e next)
  | makes (b : Blueprint) (o : Output) (t : Instant) (shown : Shown own b)
      (same : o.filterId = b.id ∧ o.dimensions = b.dimensions)
      (kept : next.store = now.store.puttingOutput t o.id o)
  | tends (id : String) (o o' : Output) (t : Instant) (stored : now.store.output? id = some o)
      (same : o'.plan = o.plan) (kept : next.store = now.store.puttingOutput t id o')

/-- The terms of requests that write as their calls may. -/
def Terms.writing (me : Client) : Terms ServiceError where
  given _ := True
  always own := ∀ m earlier, own = m :: earlier → me.Writes earlier m.before m.after
  asking _ := True
  failed _ _ := True

variable {settings : Settings} {me : Client} {own : List Moment} {b : Blueprint} {id : String}
  {caller : Caller}

theorem Client.Writes.always {m : Moment} (h : me.Writes own m.before m.after) :
    (Terms.writing me).always (m :: own) := by
  rintro m' earlier same
  obtain ⟨rfl, rfl⟩ := List.cons.inj same
  exact h

/-- What is true of the moments of a client from then on stands after whatever writes nothing. -/
theorem Terms.writing_steady {P : List Moment → Prop} (later : ∀ m own, P own → P (m :: own)) :
    (Terms.writing me).Steady P where
  calm h hm := ⟨⟨Client.Writes.always (.rests hm.filters hm.outputs), trivial⟩, later _ _ h⟩
  failed _ _ := trivial

theorem Shown.steady (b : Blueprint) : (Terms.writing me).Steady fun own => Shown own b :=
  Terms.writing_steady Shown.later

theorem Terms.writing_idle (me : Client) : (Terms.writing me).Steady fun _ => True :=
  Terms.writing_steady fun _ _ _ => trivial

namespace Client.Writes

theorem settles_getFilter (id : String) (selector : Selector) (now : World) (hnow : now.store.Sound) :
    (Terms.writing me).Settles me own (fun b own => b.id = id ∧ Shown own b) now
      (now.store.getFilter id selector) := by
  rcases Store.getFilter_cases hnow id selector with ⟨error, he⟩ | ⟨b, hb, -, he⟩ <;> rw [he]
  · exact ⟨rfl, rfl⟩
  · have stored : World.Stores { now with store := now.store.touched } b :=
      (World.stores_of_filters_eq rfl).mpr (World.stores_of_filter? hnow hb)
    exact fun _ => ⟨always (.rests rfl rfl), hnow.id_eq hb, _, List.mem_cons_self, b, stored, rfl, rfl⟩

/-- A change of a blueprint as a whole leaves its dimensions, also if it is not written. -/
theorem settles_change (id tag : String) (c : BlueprintChange) (t : Instant) (now : World)
    (hnow : now.store.Sound) :
    (Terms.writing me).Settles me own (fun b own => b.id = id ∧ Shown own b) now
      (now.store.updateFilter t id c (.exact tag)) := by
  rw [Store.updateFilter_eq_modifyFilter]
  rcases Store.modifyFilter_cases hnow t id (.exact tag) (.change c) with
    ⟨error, he⟩ | ⟨y, x, hy, accepted, hx, ended⟩
  · rw [he]
    exact ⟨rfl, rfl⟩
  · have htag : y.etag = tag := (beq_iff_eq.mp accepted).symm
    have hid : y.id = id := hnow.id_eq hy
    obtain rfl := FilterEdit.apply_change hx
    rcases ended with ⟨same, he⟩ | ⟨other, he⟩ <;> rw [he]
    · have stored : World.Stores { now with store := now.store.touched } y :=
        (World.stores_of_filters_eq rfl).mpr (World.stores_of_filter? hnow hy)
      exact fun _ => ⟨always (.rests rfl rfl), hid, _, List.mem_cons_self, y, stored, rfl, rfl⟩
    · intro _
      refine ⟨always (.edits id tag _ (Or.inl ⟨c, rfl⟩) ⟨y, _, hy, htag, hx, Or.inr ⟨other, t, rfl⟩⟩),
        hid, _, List.mem_cons_self, _, Store.filter?_keeping_self .., rfl, rfl⟩

end Client.Writes

namespace Request

theorem writing_getFilter (id : String) (selector : Selector) :
    (read (·.getFilter id selector)).Accounts (.writing me) me own
      fun b own => b.id = id ∧ Shown own b :=
  (Terms.writing_idle me).read trivial (Client.Writes.settles_getFilter id selector)

theorem writing_change (id tag : String) (c : BlueprintChange) :
    (write fun s t => s.updateFilter t id c (.exact tag)).Accounts (.writing me) me own
      fun b own => b.id = id ∧ Shown own b :=
  (Terms.writing_idle me).write trivial fun t _ _ => Client.Writes.settles_change id tag c t

theorem writing_edit {e : FilterEdit} (asks : me.call.Asks id e) (tag : String) :
    (write fun s t => Store.tagOnly (s.modifyFilter t id (.exact tag) e.apply)).Accounts
      (.writing me) me own fun _ _ => True := by
  refine (Terms.writing_idle me).write trivial fun t own _ now hnow => ?_
  rcases Store.modifyFilter_takes hnow t id tag e with
    ⟨error, he⟩ | ⟨c, store, he, -, takes, -⟩ <;> rw [he]
  · exact ⟨rfl, rfl⟩
  · exact fun _ => ⟨Client.Writes.always (.edits id tag e (Or.inr asks) takes), trivial⟩

theorem writing_result (r : Except ServiceError α) :
    (ofExcept r).Accounts (.writing me) me own fun _ _ => True :=
  accounts_result (fun _ _ => trivial) fun _ _ => trivial

theorem writing_count (c : Counter) : (count c).Accounts (.writing me) me own fun _ _ => True :=
  accounts_action fun _ _ _ => ⟨Client.Writes.always (.rests rfl rfl), trivial⟩

end Request

namespace Blueprints

theorem writing_submit (shown : Shown own b) :
    (submit b).Accounts (.writing me) me own fun _ _ => True := by
  refine Request.accounts_ite (fun _ => Request.accounts_fail _ trivial) fun _ => ?_
  refine ((Shown.steady b).now shown).bind ?_
  intro time own₁ h₁
  refine ((Shown.steady b).drawId h₁).bind ?_
  intro outputId own₂ h₂
  have makes : (Request.write fun s t => s.addOutput t (.ofBlueprint outputId b time)).Accounts
      (.writing me) me own₂ fun _ _ => True := by
    refine (Shown.steady b).write h₂ fun t own h now _ => ?_
    rcases now.store.addOutput_cases t (.ofBlueprint outputId b time) with
      ⟨error, he⟩ | ⟨-, he⟩ <;> rw [he]
    · exact ⟨rfl, rfl⟩
    · let o := (Output.ofBlueprint outputId b time).stamped (now.store.clock.next t)
      have written : me.Writes own now { now with store := now.store.puttingOutput t o.id o } :=
        .makes b o t h ⟨rfl, rfl⟩ rfl
      exact fun _ => ⟨written.always, trivial⟩
  refine makes.bind ?_
  intro _ own₃ _
  refine (Request.writing_change b.id b.etag _).bind ?_
  intro submitted own₄ _
  refine (Request.writing_count _).bind ?_
  intro _ own₅ _
  have sends : (Request.enqueue outputId : Request ServiceError _).Accounts (.writing me) me own₅
      fun _ _ => True :=
    Request.accounts_action fun _ _ _ => ⟨Client.Writes.always (.rests rfl rfl), trivial⟩
  refine sends.bind ?_
  intro sent own₆ _
  cases sent with
  | ok u => exact Request.accounts_pure trivial
  | error e => exact (Request.writing_count _).reply _

theorem writing_submitIf (shown : Shown own b) (andSubmit : Bool) :
    (submitIf andSubmit b).Accounts (.writing me) me own fun _ _ => True := by
  cases andSubmit with
  | true => exact writing_submit shown
  | false => exact Request.accounts_pure trivial

theorem writing_create (r : NewBlueprint) (andSubmit : Bool) :
    (create settings r andSubmit caller).Accounts (.writing me) me own fun _ _ => True := by
  have idle := Terms.writing_idle me
  refine (idle.ask trivial _).bind ?_
  intro reply own₁ _
  refine (idle.answered trivial reply).bind ?_
  intro version own₂ _
  refine (idle.check trivial fun _ => carriedOut_normalise).bind ?_
  rintro dimensions own₃ ⟨normal, -⟩
  refine (idle.dimensions trivial settings.limits r.dataset dimensions).bind ?_
  intro _ own₄ _
  refine (idle.drawId trivial).bind ?_
  intro id own₅ _
  have creates {b : Instant → Blueprint} (hb : ∀ t, (b t).dimensions = dimensions) :
      (Request.write fun s t => s.addFilter t (b t)).Accounts (.writing me) me own₅
        fun c own => Shown own c := by
    refine idle.write trivial fun t own _ now hnow => ?_
    rcases Store.addFilter_cases hnow t (b t) with ⟨error, he⟩ | ⟨-, he⟩ <;> rw [he]
    · exact ⟨rfl, rfl⟩
    · intro _
      refine ⟨Client.Writes.always (.creates (now.store.stampedFilter t (b t)) t r.dimensions ?_ rfl),
        _, List.mem_cons_self, _, Store.filter?_keeping_self .., rfl, rfl⟩
      rw [normal, ← hb t]
      rfl
  refine (creates fun _ => rfl).bind ?_
  intro stored own₆ shown
  refine ((Request.writing_count _).keeping Shown.later shown).bind ?_
  rintro _ own₇ ⟨shown, -⟩
  exact writing_submitIf shown andSubmit

theorem writing_revision (id : String) (u : BlueprintUpdate) (selector : Selector) :
    (revision settings id u selector caller).Accounts (.writing me) me own
      fun p own => Shown own p.1 := by
  refine (Request.writing_getFilter id selector).bind ?_
  rintro current own₁ ⟨-, h₁⟩
  have steady : (Terms.writing me).Steady fun own => Shown own current := Shown.steady current
  refine Request.accounts_ite (fun _ => steady.fail h₁ rfl) fun _ => ?_
  refine (steady.check h₁ fun _ => u.carriedOut_validEvents).bind ?_
  rintro events own₂ ⟨-, h₂⟩
  cases u.newVersion? current with
  | some version =>
    exact (steady.moveTo h₂ current version caller).bind fun _ _ h => Request.accounts_pure h.2
  | none => exact Request.accounts_pure h₂

theorem writing_update (id : String) (u : BlueprintUpdate) (andSubmit : Bool) (selector : Selector) :
    (update settings id u andSubmit selector caller).Accounts (.writing me) me own
      fun _ _ => True := by
  rw [update_eq]
  refine (writing_revision id u selector).bind ?_
  rintro ⟨current, change⟩ own₁ shown
  refine Request.accounts_ite (fun _ => Request.accounts_fail _ trivial) fun _ => ?_
  have revises : (revise id current change).Accounts (.writing me) me own₁
      fun c own => Shown own c :=
    Request.accounts_ite (fun _ => Request.accounts_pure shown) fun _ =>
      (Request.writing_change id current.etag change).weaken fun _ _ h => h.2
  exact revises.bind fun c own shown => writing_submitIf shown andSubmit

theorem writing_promote (shown : Shown own b) : (promote b).Accounts (.writing me) me own
    fun c own => c.id = b.id ∧ Shown own c := by
  have steady : (Terms.writing me).Steady fun own => Shown own b := Shown.steady b
  refine (steady.ask shown _).bind ?_
  intro version own₁ h₁
  cases version with
  | error e =>
    exact Request.accounts_ite (fun _ => steady.fail h₁ rfl)
      fun _ => steady.fail h₁ (ServiceError.carriedOut_ofCatalog e)
  | ok version =>
    refine (steady.now h₁).bind ?_
    intro t own₂ h₂
    refine (steady.access h₂ (Client.Writes.settles_change b.id b.etag _ t)).bind ?_
    intro promoted own₃ h₃
    cases promoted with
    | ok promoted => exact Request.accounts_pure h₃
    | error error =>
      cases error with
      | conflict id =>
        refine (steady.access h₃ (Client.Writes.settles_getFilter b.id .any)).bind ?_
        intro current own₄ h₄
        cases current with
        | ok current =>
          exact Request.accounts_ite (fun _ => Request.accounts_pure h₄)
            fun _ => Request.accounts_fail _ trivial
        | error error => cases error <;> exact Request.accounts_fail _ trivial
      | _ => exact Request.accounts_fail _ trivial

theorem writing_get (id : String) (selector : Selector) :
    (get id selector caller).Accounts (.writing me) me own fun b own => b.id = id ∧ Shown own b := by
  refine (Request.writing_getFilter id selector).bind ?_
  rintro b own₁ ⟨rfl, shown⟩
  exact Request.accounts_ite (fun _ => Request.accounts_pure ⟨rfl, shown⟩) fun _ =>
    writing_promote shown

end Blueprints

namespace Selections

theorem writing_list (selector : Selector) : (list id selector caller).Accounts (.writing me) me own
    fun _ _ => True :=
  (Blueprints.writing_get id selector).reply _

theorem writing_get (name : String) (selector : Selector) :
    (get id name selector caller).Accounts (.writing me) me own fun _ _ => True :=
  (Blueprints.writing_get id selector).bind fun b _ _ =>
    ((Terms.writing_idle me).find trivial b name).reply _

theorem writing_options (name : String) (selector : Selector) :
    (options id name selector caller).Accounts (.writing me) me own fun _ _ => True :=
  (writing_get name selector).reply _

theorem writing_option (name o : String) (selector : Selector) :
    (option id name o selector caller).Accounts (.writing me) me own fun _ _ => True :=
  (writing_get name selector).bind fun _ _ _ =>
    Request.accounts_ite (fun _ => Request.accounts_pure trivial) fun _ =>
      Request.accounts_fail _ trivial

theorem writing_add {d : Dimension} {selector : Selector}
    (asks : me.call.Asks id (.addDimension { d with options := Dimension.distinct d.options })) :
    (add settings id d selector caller).Accounts (.writing me) me own fun _ _ => True := by
  have idle := Terms.writing_idle me
  refine (Blueprints.writing_get id selector).bind fun b own₁ _ => ?_
  refine (idle.editable trivial b).bind fun _ own₂ _ => ?_
  refine (idle.dimension trivial settings.limits b.dataset d.name _).bind fun _ own₃ _ => ?_
  exact (Request.writing_edit asks b.etag).reply _

theorem writing_remove {name : String} {selector : Selector}
    (asks : me.call.Asks id (.removeDimension name)) :
    (remove id name selector caller).Accounts (.writing me) me own fun _ _ => True := by
  have idle := Terms.writing_idle me
  refine (Blueprints.writing_get id selector).bind fun b own₁ _ => ?_
  refine (idle.editable trivial b).bind fun _ own₂ _ => ?_
  refine (idle.find trivial b name).bind fun _ own₃ _ => ?_
  exact Request.writing_edit asks b.etag

theorem writing_addOption {name o : String} {selector : Selector}
    (asks : me.call.Asks id (.addOptions name [o])) :
    (addOption settings id name o selector caller).Accounts (.writing me) me own fun _ _ => True := by
  have idle := Terms.writing_idle me
  refine (Blueprints.writing_get id selector).bind fun b own₁ _ => ?_
  refine (idle.find trivial b name).bind fun d own₂ _ => ?_
  refine (idle.editable trivial b).bind fun _ own₃ _ => ?_
  refine Request.accounts_ite (fun _ => Request.accounts_pure trivial) fun _ => ?_
  refine (idle.dimension trivial settings.limits b.dataset name [o]).bind fun _ own₄ _ => ?_
  exact Request.writing_edit asks b.etag

theorem writing_removeOption {name o : String} {selector : Selector}
    (asks : me.call.Asks id (.removeOptions name [o])) :
    (removeOption id name o selector caller).Accounts (.writing me) me own fun _ _ => True := by
  have idle := Terms.writing_idle me
  refine (Blueprints.writing_get id selector).bind fun b own₁ _ => ?_
  refine (idle.find trivial b name).bind fun d own₂ _ => ?_
  refine Request.accounts_ite (fun _ => Request.accounts_fail _ trivial) fun _ => ?_
  refine (idle.editable trivial b).bind fun _ own₃ _ => ?_
  exact Request.writing_edit asks b.etag

/-- One operation of a patch writes what it asks for, and goes on with the dimension of its name. -/
theorem writing_apply {name : String} {operations : List PatchOperation} {selector : Selector}
    {o : PatchOperation} {d : Dimension} (call : me.call = .patch id name operations selector)
    (ho : o ∈ operations) (hid : b.id = id) (hname : d.name = name) (etag : String) :
    (apply settings b d etag o).Accounts (.writing me) me own fun r _ => r.1.name = name := by
  have edits {e : FilterEdit} (d' : Dimension) (hd : d'.name = name) (own' : List Moment)
      (asks : me.call.Asks b.id e) :
      (edit b.id d' etag e).Accounts (.writing me) me own' fun r _ => r.1.name = name :=
    (Request.writing_edit asks etag).bind fun _ _ _ => Request.accounts_pure hd
  cases action : o.action with
  | remove =>
    rw [apply_remove action]
    refine Request.accounts_ite (fun _ => Request.accounts_pure hname) fun _ =>
      edits (d.erase (operands o)) hname own ?_
    rw [call, hid, hname]
    exact .remove id name selector ho action
  | add =>
    rw [apply_add action]
    refine Request.accounts_ite (fun _ => Request.accounts_pure hname) fun _ => ?_
    refine ((Terms.writing_idle me).dimension trivial settings.limits b.dataset d.name _).bind
      fun _ own₁ _ => edits (d.insert _) hname own₁ ?_
    rw [call, hid, hname]
    exact .add id name selector ho action d

theorem writing_applyAll {name : String} {operations done rest : List PatchOperation}
    {selector : Selector} {d : Dimension} (call : me.call = .patch id name operations selector)
    (within : ∀ o ∈ rest, o ∈ operations) (hid : b.id = id) (hname : d.name = name) (etag : String) :
    (applyAll settings b done d etag rest).Accounts (.writing me) me own fun _ _ => True := by
  induction rest generalizing done d etag own with
  | nil => exact Request.accounts_pure trivial
  | cons o rest ih =>
    obtain ⟨ho, within⟩ := List.forall_mem_cons.mp within
    refine (writing_apply call ho hid hname etag).attempt.bind fun r own₁ h₁ => ?_
    cases r with
    | error cause => exact Request.accounts_fail _ trivial
    | ok r =>
      exact (Request.writing_count _).bind fun _ _ _ => ih within h₁ r.2

theorem writing_patch {name : String} {operations : List PatchOperation} {selector : Selector}
    (call : me.call = .patch id name operations selector) :
    (patch settings id name operations selector caller).Accounts (.writing me) me own
      fun _ _ => True := by
  have idle := Terms.writing_idle me
  refine (Request.writing_result _).bind fun _ own₁ _ => ?_
  refine (Blueprints.writing_get id selector).bind fun b own₂ h₂ => ?_
  refine (idle.find trivial b name).bind fun d own₃ h₃ => ?_
  refine (idle.editable trivial b).bind fun _ own₄ _ => ?_
  have hname : d.name = name := by simpa using List.find?_some h₃.1
  exact writing_applyAll call (fun _ h => h) h₂.1 hname b.etag

end Selections

namespace Outputs

theorem writing_get (id : String) : (get id caller).Accounts (.writing me) me own fun _ _ => True := by
  have reads : (Request.read (·.getOutput id)).Accounts (.writing me) me own fun _ _ => True := by
    refine (Terms.writing_idle me).read trivial fun now _ => ?_
    rcases now.store.getOutput_cases id with ⟨error, he⟩ | ⟨o, -, he⟩ <;> rw [he]
    · exact ⟨rfl, rfl⟩
    · exact fun _ => ⟨Client.Writes.always (.rests rfl rfl), trivial⟩
  exact reads.bind fun _ _ _ => Request.accounts_ite (fun _ => Request.accounts_fail _ trivial)
    fun _ => Request.accounts_pure trivial

theorem writing_update (id : String) (u : OutputUpdate) :
    (update settings id u caller).Accounts (.writing me) me own fun _ _ => True := by
  refine Request.accounts_ite (fun _ => Request.accounts_fail _ trivial) fun _ => ?_
  refine ((Terms.writing_idle me).now trivial).bind fun t own₁ _ => ?_
  have tends : (Request.access fun s => s.modifyOutput t id ServiceError.ofStore
      (u.apply settings.downloadUrl t)).Accounts (.writing me) me own₁ fun _ _ => True := by
    refine Request.accounts_action fun now _ _ => ⟨Client.Writes.always ?_, trivial⟩
    rcases now.store.modifyOutput_cases t id ServiceError.ofStore
      (u.apply settings.downloadUrl t) with ⟨error, he⟩ | ⟨o, p, ho, hp, he⟩
    · simp only [he]
      exact .rests rfl rfl
    · simp only [he]
      exact .tends id o (now.store.restampedOutput t p.1) t ho (OutputUpdate.plan_apply hp) rfl
  refine tends.bind fun r own₂ _ => ?_
  refine (Request.writing_result r).bind fun p own₃ _ => ?_
  obtain ⟨o, completed⟩ := p
  cases completed with
  | true => exact (Request.writing_count _).reply _
  | false => exact Request.accounts_pure trivial

theorem writing_addEvent (id : String) (r : EventRequest) :
    (addEvent id r caller).Accounts (.writing me) me own fun _ _ => True := by
  refine Request.accounts_ite (fun _ => Request.accounts_fail _ trivial) fun _ => ?_
  refine (Request.writing_result _).bind fun e own₁ _ => ?_
  have records : (Request.write fun s t => s.addOutputEvent t id e).Accounts (.writing me) me own₁
      fun _ _ => True := by
    refine (Terms.writing_idle me).write trivial fun t own _ now _ => ?_
    rcases now.store.addOutputEvent_cases t id e with ⟨error, he⟩ | ⟨o, p, ho, rfl, he⟩ <;> rw [he]
    · exact ⟨rfl, rfl⟩
    · let o' := now.store.restampedOutput t { o with events := o.events ++ [e] }
      have written : me.Writes own now { now with store := now.store.puttingOutput t id o' } :=
        .tends id o o' t ho rfl rfl
      exact fun _ => ⟨written.always, trivial⟩
  exact records.reply _

end Outputs

theorem ServiceCall.writing_request (settings : Settings) (me : Client) :
    (me.call.request settings me.caller).Accounts (.writing me) me [] fun _ _ => True := by
  obtain ⟨place, caller, call⟩ := me
  cases call with
  | create r andSubmit => exact (Blueprints.writing_create r andSubmit).reply _
  | get id selector => exact (Blueprints.writing_get id selector).reply _
  | update id u andSubmit selector => exact (Blueprints.writing_update id u andSubmit selector).reply _
  | dimensions id selector => exact (Selections.writing_list selector).reply _
  | dimension id name selector => exact (Selections.writing_get name selector).reply _
  | addDimension id d selector =>
    exact (Selections.writing_add (.addDimension id d selector)).reply _
  | removeDimension id name selector =>
    exact (Selections.writing_remove (.removeDimension id name selector)).reply _
  | options id name selector => exact (Selections.writing_options name selector).reply _
  | option id name o selector => exact (Selections.writing_option name o selector).reply _
  | addOption id name o selector =>
    exact (Selections.writing_addOption (.addOption id name o selector)).reply _
  | removeOption id name o selector =>
    exact (Selections.writing_removeOption (.removeOption id name o selector)).reply _
  | patch id name operations selector => exact (Selections.writing_patch rfl).reply _
  | output id => exact (Outputs.writing_get id).reply _
  | updateOutput id u => exact (Outputs.writing_update id u).reply _
  | addEvent id r => exact (Outputs.writing_addEvent id r).reply _

/-- What clients write at their moments in a run. -/
theorem Run.written {answers : Nat → (q : Query) → q.Reply → Prop} {start : World}
    {past : List Moment} {s : Server} (sound : start.store.Sound)
    (run : Run settings answers start past s) {m : Moment} {earlier : List Moment}
    (hs : (m :: earlier) <:+ past) {me : Client} (mover : m.mover = some me) :
    me.Writes (me.own earlier) m.before m.after := by
  obtain ⟨s', run'⟩ := run.of_suffix hs
  obtain ⟨step, here⟩ := run'.placed.2 m List.mem_cons_self me mover
  have reports := run'.accounts_on (fun m hm => ((run'.struck sound).2 m hm).1)
    (fun _ _ => trivial) here (ServiceCall.writing_request settings me)
  obtain ⟨_, before, after⟩ := m
  obtain rfl : _ = some me := mover
  rw [Client.own_cons_self] at reports
  have idle {own : List Moment} {now : World}
      (same : ⟨some me, before, after⟩ :: me.own earlier = ⟨some me, now, now⟩ :: own) :
      me.Writes (me.own earlier) before after := by
    obtain ⟨-, rfl, rfl⟩ := Moment.mk.inj (List.cons.inj same).1
    exact .rests rfl rfl
  cases step with
  | done r w =>
    cases r with
    | ok a =>
      obtain ⟨now, own, same, -⟩ := reports
      exact idle same
    | error e =>
      obtain ⟨now, own, same, -⟩ := reports
      exact idle same
  | acted w resume => exact reports.1 _ _ rfl
  | ask w q resume => exact reports.1.1 _ _ rfl

end DatasetFilters
