import DatasetFilters.Proofs.Service.Blueprints

namespace DatasetFilters

variable {settings : Settings} {answers : Nat → (q : Query) → q.Reply → Prop}
  {documents : Blueprint → Prop} {me : Client} {past : List Moment}

namespace Selections

theorem keeps_ensureEditable {rules : Rules} (b : Blueprint) :
    (ensureEditable b).Keeps rules me past fun _ _ => True :=
  Request.keeps_ite (fun _ => Request.keeps_fail _) fun _ => Request.keeps_pure trivial

theorem keeps_find {rules : Rules} (b : Blueprint) (name : String) :
    (find b name).Keeps rules me past fun _ _ => True := by
  unfold find
  cases b.dimension? name with
  | some d => exact Request.keeps_pure trivial
  | none => exact Request.keeps_fail _

variable (hash : Sha256.Separates fun m => ∃ b, documents b ∧ m = b.content)
include hash

theorem keeps_apply {b : Blueprint} {tag : String} (d : Dimension) (o : PatchOperation)
    (looks : me.call.looks = true) (holds : me.Holds answers past b.id tag b.dataset) :
    (apply settings b d tag o).Keeps (.ofServices settings answers documents) me past
      fun r past' => me.Holds answers past' b.id r.2 b.dataset := by
  unfold apply
  cases o.action with
  | remove =>
    refine Request.keeps_ite (fun _ => Request.keeps_pure holds) fun _ => ?_
    refine (Request.keeps_edit hash holds (e := .removeOptions d.name (operands o)) (by simp)
      (Client.cleared_of_looks looks) fun a _ => .removeOptions _ _).bind ?_
    intro tag' past' _ holds'
    exact Request.keeps_pure holds'
  | add =>
    refine Request.keeps_ite (fun _ => Request.keeps_pure holds) fun _ => ?_
    refine (Validation.keeps_dimension b.dataset d.name _).bind ?_
    intro _ past₁ hs₁ confirmed
    refine (Request.keeps_edit hash (holds.mono hs₁) (e := .addOptions d.name _) (by simp)
      (Client.cleared_of_looks looks) fun a ha => .addOptions _ _ (ha ▸ confirmed)).bind ?_
    intro tag' past' _ holds'
    exact Request.keeps_pure holds'

/-- Each operation of a patch goes on from the tag that the one before left. -/
theorem keeps_applyAll {b : Blueprint} (operations successful : List PatchOperation)
    (d : Dimension) {tag : String} (looks : me.call.looks = true)
    (holds : me.Holds answers past b.id tag b.dataset) :
    (applyAll settings b successful d tag operations).Keeps
      (.ofServices settings answers documents) me past fun r past' =>
        me.Holds answers past' b.id r.2 b.dataset := by
  induction operations generalizing successful d tag past with
  | nil => exact Request.keeps_pure holds
  | cons o rest ih =>
    refine (keeps_apply hash d o looks holds).attempt.bind ?_
    intro result past₁ _ hresult
    cases result with
    | error cause => exact Request.keeps_fail _
    | ok r =>
      refine (Request.keeps_count _).bind ?_
      intro _ past₂ hs₂ _
      exact ih _ _ ((hresult r rfl).mono hs₂)

variable {id : String} {selector : Selector} (looks : me.call.looks = true)
  (hcall : me.call.target? = some (id, selector))
include looks hcall

theorem keeps_list : (list id selector me.caller).Keeps (.ofServices settings answers documents) me
    past fun _ past' => me.Reaches answers past' id := by
  refine (Blueprints.keeps_get hash looks hcall).bind ?_
  intro b past₁ _ reads
  obtain ⟨-, holds⟩ := reads
  exact Request.keeps_pure ⟨_, _, holds⟩

theorem keeps_get (name : String) : (get id name selector me.caller).Keeps
    (.ofServices settings answers documents) me past fun _ past' => me.Reaches answers past' id := by
  refine (Blueprints.keeps_get hash looks hcall).bind ?_
  intro b past₁ _ reads
  obtain ⟨-, holds⟩ := reads
  refine (keeps_find b name).bind ?_
  intro d past₂ hs₂ _
  exact Request.keeps_pure ⟨_, _, holds.mono hs₂⟩

theorem keeps_options (name : String) : (options id name selector me.caller).Keeps
    (.ofServices settings answers documents) me past fun _ past' => me.Reaches answers past' id := by
  refine (keeps_get hash looks hcall name).bind ?_
  intro r past₁ _ reaches
  exact Request.keeps_pure reaches

theorem keeps_option (name o : String) : (option id name o selector me.caller).Keeps
    (.ofServices settings answers documents) me past fun _ past' => me.Reaches answers past' id := by
  refine (keeps_get hash looks hcall name).bind ?_
  intro r past₁ _ reaches
  exact Request.keeps_ite (fun _ => Request.keeps_pure reaches) fun _ => Request.keeps_fail _

theorem keeps_add (d : Dimension) : (add settings id d selector me.caller).Keeps
    (.ofServices settings answers documents) me past fun _ past' => me.Reaches answers past' id := by
  refine (Blueprints.keeps_get hash looks hcall).bind ?_
  intro b past₁ _ reads
  obtain ⟨rfl, holds⟩ := reads
  refine (keeps_ensureEditable b).bind ?_
  intro _ past₂ hs₂ _
  refine (Validation.keeps_dimension b.dataset d.name _).bind ?_
  intro _ past₃ hs₃ confirmed
  refine (Request.keeps_edit hash ((holds.mono hs₂).mono hs₃) (e := .addDimension _) (by simp)
    (Client.cleared_of_looks looks) fun a ha => .addDimension _ (ha ▸ confirmed)).bind ?_
  intro tag past₄ _ holds₄
  exact Request.keeps_pure ⟨_, _, holds₄⟩

theorem keeps_remove (name : String) : (remove id name selector me.caller).Keeps
    (.ofServices settings answers documents) me past fun _ past' => me.Reaches answers past' id := by
  refine (Blueprints.keeps_get hash looks hcall).bind ?_
  intro b past₁ _ reads
  obtain ⟨rfl, holds⟩ := reads
  refine (keeps_ensureEditable b).bind ?_
  intro _ past₂ hs₂ _
  refine (keeps_find b name).bind ?_
  intro _ past₃ hs₃ _
  exact (Request.keeps_edit hash ((holds.mono hs₂).mono hs₃) (e := .removeDimension name) (by simp)
    (Client.cleared_of_looks looks) fun a _ => .removeDimension name).weaken
      fun _ _ _ h => ⟨_, _, h⟩

/-- An option is written on the tag of the blueprint that was read, and only once it was
confirmed. -/
theorem keeps_addOption (name o : String) : (addOption settings id name o selector me.caller).Keeps
    (.ofServices settings answers documents) me past fun _ past' => me.Reaches answers past' id := by
  refine (Blueprints.keeps_get hash looks hcall).bind ?_
  intro b past₁ _ reads
  obtain ⟨rfl, holds⟩ := reads
  refine (keeps_find b name).bind ?_
  intro d past₂ hs₂ _
  refine (keeps_ensureEditable b).bind ?_
  intro _ past₃ hs₃ _
  have held := (holds.mono hs₂).mono hs₃
  refine Request.keeps_ite (fun _ => Request.keeps_pure ⟨_, _, held⟩) fun _ => ?_
  refine (Validation.keeps_dimension b.dataset name [o]).bind ?_
  intro _ past₄ hs₄ confirmed
  exact (Request.keeps_edit hash (held.mono hs₄) (e := .addOptions name [o]) (by simp)
    (Client.cleared_of_looks looks) fun a ha => .addOptions name [o] (ha ▸ confirmed)).weaken
      fun _ _ _ h => ⟨_, _, h⟩

theorem keeps_removeOption (name o : String) : (removeOption id name o selector me.caller).Keeps
    (.ofServices settings answers documents) me past fun _ past' => me.Reaches answers past' id := by
  refine (Blueprints.keeps_get hash looks hcall).bind ?_
  intro b past₁ _ reads
  obtain ⟨rfl, holds⟩ := reads
  refine (keeps_find b name).bind ?_
  intro d past₂ hs₂ _
  refine Request.keeps_ite (fun _ => Request.keeps_fail _) fun _ => ?_
  refine (keeps_ensureEditable b).bind ?_
  intro _ past₃ hs₃ _
  exact (Request.keeps_edit hash ((holds.mono hs₂).mono hs₃) (e := .removeOptions name [o]) (by simp)
    (Client.cleared_of_looks looks) fun a _ => .removeOptions name [o]).weaken
      fun _ _ _ h => ⟨_, _, h⟩

theorem keeps_patch (name : String) (operations : List PatchOperation) :
    (patch settings id name operations selector me.caller).Keeps
      (.ofServices settings answers documents) me past fun _ past' => me.Reaches answers past' id := by
  refine (Request.keeps_ofExcept (p := fun _ _ => True) fun _ _ => trivial).bind ?_
  intro _ past₀ _ _
  refine (Blueprints.keeps_get hash looks hcall).bind ?_
  intro b past₁ _ reads
  obtain ⟨rfl, holds⟩ := reads
  refine (keeps_find b name).bind ?_
  intro d past₂ hs₂ _
  refine (keeps_ensureEditable b).bind ?_
  intro _ past₃ hs₃ _
  exact (keeps_applyAll hash operations [] d looks ((holds.mono hs₂).mono hs₃)).weaken
    fun _ _ _ h => ⟨_, _, h⟩

end Selections

/-- The output was stored when the client had moved. -/
def Client.SawOutput (me : Client) (past : List Moment) (o : Output) : Prop :=
  ∃ m ∈ past, m.mover = some me ∧ ∃ id, m.after.store.output? id = some o

/-- The client was given an output: a stored one, and a public one if it is unknown. -/
def Client.Receives (me : Client) (past : List Moment) (o : Output) : Prop :=
  ∃ stored, me.SawOutput past stored ∧ o.plan = stored.plan ∧
    (o.isPublished = true ∨ me.caller.authenticated = true ∨ me.caller.downloadService = true)

namespace Outputs

theorem plan_present (o : Output) (caller : Caller) : (present o caller).plan = o.plan := by
  unfold present
  cases caller.downloadService <;> rfl

theorem keeps_get (id : String) : (get id me.caller).Keeps (.ofServices settings answers documents) me
    past fun o past' => me.Receives past' o := by
  have reads : (Request.read (·.getOutput id)).Keeps (.ofServices settings answers documents) me past
      fun o past' => me.SawOutput past' o := by
    refine Request.keeps_read (Request.keeps_act ?_)
    intro now _
    rcases now.store.getOutput_cases id with ⟨error, he⟩ | ⟨o, ho, he⟩
    · simp only [he]
      exact ⟨.rests rfl rfl rfl, by simp⟩
    · simp only [he]
      refine ⟨.rests rfl rfl rfl, ?_⟩
      intro past' hs o' ho'
      obtain rfl := Except.ok.inj ho'
      have kept : now.store.touched.output? id = some o :=
        (Store.output?_of_outputs_eq (by rfl) id).trans ho
      exact ⟨_, hs.mem List.mem_cons_self, rfl, id, kept⟩
  refine reads.bind ?_
  intro o past₁ _ saw
  refine Request.keeps_ite (fun _ => Request.keeps_fail _) fun shown => ?_
  have published : (present o me.caller).isPublished = o.isPublished := by
    have same := congrArg Output.published (plan_present o me.caller)
    change (present o me.caller).published = o.published at same
    rw [Output.isPublished, same, Output.isPublished]
  refine Request.keeps_pure ⟨o, saw, plan_present o me.caller, ?_⟩
  rw [published]
  cases h : o.isPublished <;> cases h' : me.caller.authenticated <;>
    cases h'' : me.caller.downloadService <;> simp_all

theorem keeps_update (id : String) (u : OutputUpdate) (busy : me.call.looks = false)
    (new : me.call.target? = none) :
    (update settings id u me.caller).Keeps (.ofServices settings answers documents) me past
      fun _ _ => True := by
  refine Request.keeps_ite (fun _ => Request.keeps_fail _) fun _ => ?_
  refine Request.keeps_now.bind ?_
  intro t past₁ _ _
  refine (Request.keeps_modifyOutput busy (Client.cleared_of_new new)
    (fun _ _ h => OutputUpdate.plan_apply h) t id _).bind ?_
  intro r past₂ _ _
  refine (Request.keeps_ofExcept (p := fun _ _ => True) fun _ _ => trivial).bind ?_
  intro updated past₃ _ _
  obtain ⟨o, completed⟩ := updated
  refine Request.keeps_ite ?_ fun _ => Request.keeps_pure trivial
  intro _
  exact (Request.keeps_count _).bind fun _ _ _ _ => Request.keeps_pure trivial

theorem keeps_addEvent (id : String) (r : EventRequest) (busy : me.call.looks = false)
    (new : me.call.target? = none) :
    (addEvent id r me.caller).Keeps (.ofServices settings answers documents) me past
      fun _ _ => True := by
  refine Request.keeps_ite (fun _ => Request.keeps_fail _) fun _ => ?_
  refine (Request.keeps_ofExcept (p := fun _ _ => True) fun _ _ => trivial).bind ?_
  intro e past₁ _ _
  have same (o : Output) (p : Output × Unit)
      (h : (.ok ({ o with events := o.events ++ [e] }, ()) : Except StoreError _) = .ok p) :
      p.1.plan = o.plan := by
    rw [← Except.ok.inj h]
    rfl
  have writes : (Request.write fun s t => s.addOutputEvent t id e).Keeps
      (.ofServices settings answers documents) me past₁ fun _ _ => True := by
    refine Request.keeps_write ?_
    intro t past' _
    refine (Request.keeps_modifyOutput busy (Client.cleared_of_new new) same t id _).mapAct
      (fun r => r.map (·.1)) ?_
    intros
    trivial
  exact writes.bind fun _ _ _ _ => Request.keeps_pure trivial

end Outputs

variable (settings answers) in
/-- What a call that succeeded tells of its client: it reached the blueprint if it looked at one,
passed if it is an update, and saw what it was given if it is a reading. -/
structure Client.Succeeds (me : Client) (answer : Answer) (past : List Moment) : Prop where
  reached : me.call.looks = true →
    ∃ id selector, me.call.target? = some (id, selector) ∧ me.Reaches answers past id
  cleared : me.Cleared settings answers past
  blueprint : ∀ id selector, me.call = .get id selector →
    ∃ b, answer = .blueprint b ∧ me.Holds answers past id b.etag b.dataset
  output : ∀ id, me.call = .output id → ∃ o, answer = .output o ∧ me.Receives past o

theorem Client.succeeds_of_new {answer : Answer} (busy : me.call.looks = false)
    (new : me.call.target? = none) (other : ∀ id, me.call ≠ .output id) :
    me.Succeeds settings answers answer past where
  reached := by simp [busy]
  cleared := cleared_of_new new
  blueprint := by
    intro id selector h
    simp [h, ServiceCall.target?] at new
  output := fun id h => absurd h (other id)

theorem Client.Reaches.succeeds {id : String} {selector : Selector} {answer : Answer}
    (h : me.Reaches answers past id) (looks : me.call.looks = true)
    (hcall : me.call.target? = some (id, selector)) (other : ∀ id selector, me.call ≠ .get id selector) :
    me.Succeeds settings answers answer past where
  reached := fun _ => ⟨id, selector, hcall, h⟩
  cleared := cleared_of_looks looks
  blueprint := fun id' selector' h' => absurd h' (other id' selector')
  output := by
    intro id' h'
    simp [h', ServiceCall.looks] at looks

/-- All calls keep to the rules. -/
theorem ServiceCall.keeps_request
    (hash : Sha256.Separates fun m => ∃ b, documents b ∧ m = b.content) (me : Client)
    (past : List Moment) :
    (me.call.request settings me.caller).Keeps (.ofServices settings answers documents) me past
      fun answer past' => me.Succeeds settings answers answer past' := by
  obtain ⟨place, caller, call⟩ := me
  have reaching {id : String} {selector : Selector} {past' : List Moment} {answer : Answer}
      (h : Client.Reaches answers ⟨place, caller, call⟩ past' id) (looks : call.looks = true)
      (hcall : call.target? = some (id, selector)) (other : ∀ id selector, call ≠ .get id selector) :
      Client.Succeeds settings answers ⟨place, caller, call⟩ answer past' :=
    h.succeeds looks hcall other
  cases call with
  | create r andSubmit =>
    exact (Blueprints.keeps_create hash r rfl rfl rfl).map
      fun _ _ _ => Client.succeeds_of_new rfl rfl (by simp)
  | get id selector =>
    refine (Blueprints.keeps_get hash rfl rfl).map ?_
    intro b past' h
    exact ⟨fun _ => ⟨id, selector, rfl, _, _, h.2⟩, Client.cleared_of_looks rfl,
      fun id' selector' hcall => ⟨b, rfl, (ServiceCall.get.inj hcall).1 ▸ h.2⟩, by simp⟩
  | update id u andSubmit selector =>
    exact (Blueprints.keeps_update hash rfl).map
      fun _ _ cleared => ⟨by simp [looks], cleared, by simp, by simp⟩
  | dimensions id selector =>
    exact (Selections.keeps_list hash rfl rfl).map fun _ _ h => reaching h rfl rfl (by simp)
  | dimension id name selector =>
    exact (Selections.keeps_get hash rfl rfl name).map fun _ _ h => reaching h rfl rfl (by simp)
  | addDimension id d selector =>
    exact (Selections.keeps_add hash rfl rfl d).map fun _ _ h => reaching h rfl rfl (by simp)
  | removeDimension id name selector =>
    exact (Selections.keeps_remove hash rfl rfl name).map fun _ _ h => reaching h rfl rfl (by simp)
  | options id name selector =>
    exact (Selections.keeps_options hash rfl rfl name).map fun _ _ h => reaching h rfl rfl (by simp)
  | option id name o selector =>
    exact (Selections.keeps_option hash rfl rfl name o).map fun _ _ h => reaching h rfl rfl (by simp)
  | addOption id name o selector =>
    exact (Selections.keeps_addOption hash rfl rfl name o).map
      fun _ _ h => reaching h rfl rfl (by simp)
  | removeOption id name o selector =>
    exact (Selections.keeps_removeOption hash rfl rfl name o).map
      fun _ _ h => reaching h rfl rfl (by simp)
  | patch id name operations selector =>
    exact (Selections.keeps_patch hash rfl rfl name operations).map
      fun _ _ h => reaching h rfl rfl (by simp)
  | output id =>
    refine (Outputs.keeps_get id).map ?_
    intro o past' h
    exact ⟨by simp [looks], Client.cleared_of_new rfl, by simp, fun _ _ => ⟨o, rfl, h⟩⟩
  | updateOutput id u =>
    exact (Outputs.keeps_update id u rfl rfl).map
      fun _ _ _ => Client.succeeds_of_new rfl rfl (by simp)
  | addEvent id r =>
    exact (Outputs.keeps_addEvent id r rfl rfl).bind
      fun _ _ _ _ => Request.keeps_pure (Client.succeeds_of_new rfl rfl (by simp))

/-- A world without blueprints. -/
def World.Fresh (w : World) : Prop := w.store.backend.filters = []

/-- A blueprint that was stored after one of the moments. -/
def Kept (past : List Moment) (b : Blueprint) : Prop := ∃ m ∈ past, m.after.Stores b

/-- The hash keeps apart what is stored in a run. -/
def Collisionless (past : List Moment) : Prop :=
  Sha256.Separates fun m => ∃ b, Kept past b ∧ m = b.content

theorem Kept.mono {past past' : List Moment} {b : Blueprint} (h : Kept past b)
    (hp : past <:+ past') : Kept past' b := by
  obtain ⟨m, hm, hb⟩ := h
  exact ⟨m, hp.mem hm, hb⟩

theorem Collisionless.earlier {past past' : List Moment} (h : Collisionless past')
    (hs : past <:+ past') : Collisionless past := by
  refine h.mono ?_
  rintro _ ⟨b, kept, rfl⟩
  exact ⟨b, kept.mono hs, rfl⟩

/-- From a world whose blueprints are known, the rules of the services are kept throughout a run in
which all that is stored is known. -/
theorem Run.sound_covered {start : World} {past : List Moment} {s : Server}
    (covered : start.Covered documents) (run : Run settings answers start past s)
    (known : ∀ m ∈ past, ∀ b, m.after.Stores b → documents b)
    (hash : Sha256.Separates fun m => ∃ b, documents b ∧ m = b.content) :
    (Rules.ofServices settings answers documents).valid past s.world ∧
      (∀ task ∈ s.tasks, task.step.Waits (.ofServices settings answers documents) task.client
        (task.client.Succeeds settings answers) past) ∧
      ∀ m earlier, (m :: earlier) <:+ past →
        m.Keeps (.ofServices settings answers documents) earlier :=
  run.sound (p := fun me => me.Succeeds settings answers) ⟨covered, by simp⟩
    Rules.ofServices_preserved known fun me past => ServiceCall.keeps_request hash me past

/-- From a world without blueprints, the rules of the services are kept throughout a run. -/
theorem Run.sound_services {start : World} {past : List Moment} {s : Server} (fresh : start.Fresh)
    (run : Run settings answers start past s)
    (hash : Collisionless past) :
    (Rules.ofServices settings answers (Kept past)).valid past s.world ∧
      (∀ task ∈ s.tasks, task.step.Waits (.ofServices settings answers (Kept past)) task.client
        (task.client.Succeeds settings answers) past) ∧
      ∀ m earlier, (m :: earlier) <:+ past →
        m.Keeps (.ofServices settings answers (Kept past)) earlier := by
  refine run.sound_covered ⟨.of_empty fresh, ?_⟩ (fun m hm b hb => ⟨m, hm, hb⟩) hash
  intro b hb
  simp [World.Stores, Store.filter?_of_empty fresh] at hb

end DatasetFilters
