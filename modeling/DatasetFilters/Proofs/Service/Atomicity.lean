import DatasetFilters.Proofs.Service.References

namespace DatasetFilters

namespace World

/-- The blueprint of an id has been made public: it is written as it was but for that, with its new tag
and the marks of the write. -/
def Promotes (w w' : World) (id : String) : Prop :=
  ∃ b stamp time, w.store.filter? id = some b ∧ b.isPublished = false ∧ b.promoted.tag ≠ b.etag ∧
    b.stamp + 1 ≤ stamp ∧ w'.store.backend.outputs = w.store.backend.outputs ∧
    w'.store.backend.filters =
      Table.put id (b.promoted.marked b.promoted.tag stamp time).encode w.store.backend.filters

/-- An output has been added after all others, under a free key. -/
structure AddsOutput (w w' : World) (o : Output) : Prop where
  free : w.store.backend.find? .outputs o.id = none
  outputs : w'.store.backend.outputs = w.store.backend.outputs ++ [(o.id, o.encode)]

/-- Nothing has been written but the blueprint of an id and, if it is submitted, one new output of
it. -/
structure Changes (w w' : World) (id : String) (submits : Bool) : Prop where
  filters : Table.OnlyAt id w.store.backend.filters w'.store.backend.filters
  outputs : if submits then ∃ o, o.filterId = id ∧ w.AddsOutput w' o
    else w'.store.backend.outputs = w.store.backend.outputs

end World

namespace ServiceCall

def reads : ServiceCall → Bool
  | get .. | dimensions .. | dimension .. | options .. | option .. | output .. => true
  | _ => false

/-- The call without the submission that it asks for. -/
def unsubmitting : ServiceCall → ServiceCall
  | create r _ => create r false
  | update id u _ selector => update id u false selector
  | call => call

/-- The call has failed as a whole, not as a patch of which a part is carried out. -/
def Fails (result : Except ServiceError Answer) (call : ServiceCall) : Prop :=
  ∃ e, result = .error e ∧
    (call.isPatch = true → ∀ done tag cause, e ≠ .patchFailed done tag cause)

/-- What a reader or a request that fails may have changed: nothing; that the blueprint addressed is
public, for an anonymous caller; or what the call does without its submission, and one output besides
that no blueprint names. -/
inductive Spares (settings : Settings) (answer : (q : Query) → World → σ → q.Reply × World × σ) (t : σ)
    (caller : Caller) (w w' : World) (call : ServiceCall) : Prop
  | same (same : w.SameDocuments w')
  | promoted {id : String} {selector : Selector} (target : call.target? = some (id, selector))
      (anonymous : caller.authenticated = false) (promotes : w.Promotes w' id)
  | submitting {b : Blueprint} {w₁ : World} {t₁ : σ} (submits : call.submits = true)
      (step : ((call.unsubmitting.request settings caller) w).run answer t =
        (.ok (.blueprint b), w₁, t₁))
      (filters : w'.store.backend.filters = w₁.store.backend.filters)
      (outputs : w'.store.backend.outputs = w₁.store.backend.outputs ∨
        ∃ o, o.filterId = b.id ∧ w₁.AddsOutput w' o ∧ ∀ c, w'.Stores c → c.outputId ≠ some o.id)

/-- What a request that does not fail has changed. -/
def Changes (w w' : World) (result : Except ServiceError Answer) : ServiceCall → Prop
  | create _ andSubmit => ∃ b, result = .ok (.blueprint b) ∧
      w.store.backend.find? .filters b.id = none ∧ w.Changes w' b.id andSubmit
  | update id _ andSubmit _ => w.Changes w' id andSubmit
  | get id _ | dimensions id _ | dimension id _ _ | options id _ _ | option id _ _ _
  | addDimension id _ _ | removeDimension id _ _ | addOption id _ _ _ | removeOption id _ _ _
  | patch id _ _ _ => w.Changes w' id false
  | output _ => w.SameDocuments w'
  | updateOutput id _ | addEvent id _ => w'.store.backend.filters = w.store.backend.filters ∧
      Table.OnlyAt id w.store.backend.outputs w'.store.backend.outputs

end ServiceCall

section

variable {settings : Settings} {start now w w' : World} {strokes base : List Stroke} {id : String}

/-- The stroke writes this document, if any. -/
def Stroke.On (c : Collection) (key : String) (stroke : Stroke) : Prop :=
  ∀ c' k, stroke.target? = some (c', k) → c' = c ∧ k = key

theorem Caller.Looks.on {caller : Caller} (h : caller.Looks id strokes) :
    ∀ stroke ∈ strokes, stroke.On .filters id := by
  rcases h with rfl | ⟨-, tag, rfl⟩
  · simp
  · simp [Stroke.On, Stroke.target?, eq_comm]

theorem Revises.on (h : Revises id strokes) : ∀ stroke ∈ strokes, stroke.On .filters id := by
  rcases h with rfl | ⟨tag, c, rfl⟩
  · simp
  · simp [Stroke.On, Stroke.target?, eq_comm]

theorem Patches.on {done : List PatchOperation} (h : Patches id base done strokes)
    (hbase : ∀ stroke ∈ base, stroke.On .filters id) : ∀ stroke ∈ strokes, stroke.On .filters id := by
  induction h with
  | start => exact hbase
  | idle h o ih => simpa [Stroke.On, Stroke.target?] using ih
  | edit h o tag e ih => simpa [Stroke.On, Stroke.target?, eq_comm] using ih

/-- A submission makes an output, and goes on with the blueprint. -/
theorem Submits.parts (h : Submits id base strokes) : ∃ o later, o.filterId = id ∧
    strokes = later ++ .makes o :: base ∧ ∀ stroke ∈ later, stroke.On .filters id := by
  obtain ⟨o, tag, time, hfilter, rfl | rfl⟩ := h
  · exact ⟨o, [.sends o.id true, .counts .blueprintsSubmitted, .marks id tag o.id time], hfilter,
      rfl, by simp [Stroke.On, Stroke.target?, eq_comm]⟩
  · exact ⟨o, [.counts .dispatchFailures, .sends o.id false, .counts .blueprintsSubmitted,
      .marks id tag o.id time], hfilter, rfl, by simp [Stroke.On, Stroke.target?, eq_comm]⟩

theorem Patches.eq_of_nil (h : Patches id base [] strokes) : strokes = base := by
  generalize none : ([] : List PatchOperation) = done at h
  cases h with
  | start => rfl
  | idle h o => simp at none
  | edit h o tag e => simp at none

namespace Leads

/-- Strokes that follow others start from the world to which those led. -/
theorem split {later first : List Stroke} (h : Leads settings start (later ++ first) now) :
    ∃ mid, Leads settings start first mid ∧ Leads settings mid later now := by
  induction later generalizing now with
  | nil => exact ⟨now, h, .start (.refl now)⟩
  | cons stroke later ih =>
    cases h with
    | next h does same =>
      obtain ⟨mid, first, later⟩ := ih h
      exact ⟨mid, first, .next later does same⟩

theorem same (h : Leads settings start [] now) : start.SameDocuments now := by
  cases h with
  | start same => exact same

/-- Strokes that all write one document leave all others, of both collections. -/
theorem frame (h : Leads settings start strokes now) (sound : start.store.Sound) {c : Collection}
    {key : String} (on : ∀ stroke ∈ strokes, stroke.On c key) :
    Table.OnlyAt key (start.store.backend.documents c) (now.store.backend.documents c) ∧
      ∀ c', c' ≠ c → now.store.backend.documents c' = start.store.backend.documents c' :=
  ⟨h.onlyAt sound fun stroke hs k target => (on stroke hs c k target).2,
    fun c' other => h.documents sound fun stroke hs k target => other (on stroke hs c' k target).1⟩

/-- Strokes on one blueprint leave all other documents as they were. -/
theorem changes (h : Leads settings start strokes now) (sound : start.store.Sound)
    (on : ∀ stroke ∈ strokes, stroke.On .filters id) : start.Changes now id false where
  filters := (h.frame sound on).1
  outputs := by
    rw [if_neg Bool.false_ne_true]
    exact (h.frame sound on).2 .outputs (by simp)

/-- A submission adds one output and writes to one blueprint besides. -/
theorem changes_submits (h : Leads settings start strokes now) (sound : start.store.Sound)
    (submits : Submits id base strokes) (on : ∀ stroke ∈ base, stroke.On .filters id) :
    start.Changes now id true := by
  obtain ⟨o, later, hfilter, rfl, tail⟩ := submits.parts
  refine ⟨h.onlyAt (c := .filters) sound fun stroke hs k target => ?_, ?_⟩
  · rcases List.mem_append.mp hs with hs | hs
    · exact (tail stroke hs _ _ target).2
    · rcases List.mem_cons.mp hs with rfl | hs
      · simp [Stroke.target?] at target
      · exact (on stroke hs _ _ target).2
  · obtain ⟨mid, made, rest⟩ := h.split
    have rest : now.store.backend.outputs = mid.store.backend.outputs :=
      (rest.changes (made.sound sound) tail).outputs
    cases made with
    | next first does same =>
      have first := (first.changes sound on).outputs
      rw [if_neg Bool.false_ne_true] at first
      obtain ⟨free, -, t, rfl⟩ := does
      rw [Backend.find?, Backend.documents, first] at free
      refine ⟨o, hfilter, free, ?_⟩
      rw [rest, same.outputs, ← Table.put_of_lookup_eq_none free, ← first]
      rfl

theorem free_of_creates {b : Blueprint} {c : Counter} (sound : start.store.Sound)
    (h : Leads settings start [.counts c, .creates b] now) :
    start.store.backend.find? .filters b.id = none := by
  cases h with
  | next h _ _ =>
    cases h with
    | next h does _ =>
      have free : start.store.filter? b.id = none :=
        (Store.filter?_of_filters_eq h.same.filters b.id).symm.trans does.1
      rw [sound.find?_eq, free]
      rfl

end Leads

/-- Looking for a blueprint leaves the documents, or makes it public for an anonymous caller. -/
theorem Caller.Looks.leads {caller : Caller} (looks : caller.Looks id strokes)
    (h : Leads settings w strokes w') (sound : w.store.Sound) :
    w.SameDocuments w' ∨ caller.authenticated = false ∧ w.Promotes w' id := by
  rcases looks with rfl | ⟨anonymous, tag, rfl⟩
  · exact Or.inl h.same
  · cases h with
    | @next _ _ _ before after _ h does same =>
      have idle := h.same
      obtain ⟨-, y, c, hy, -, hc, ⟨-, rfl⟩ | ⟨moved, t, rfl⟩⟩ := does
      · exact Or.inl (idle.trans same)
      · obtain rfl : c = y.promoted :=
          (FilterEdit.apply_change hc).trans (BlueprintChange.apply_promotion y)
        have stored : w.store.filter? id = some y :=
          (Store.filter?_of_filters_eq idle.filters id).symm.trans hy
        have hidden : y.isPublished = false := by
          refine Bool.eq_false_iff.mpr fun published => moved ?_
          have unchanged : y.promoted = y := by
            have known : y.published = some true := by simpa [Blueprint.isPublished] using published
            rw [Blueprint.promoted, ← known]
          rw [unchanged, sound.etag_eq stored]
        have hid : (before.store.restamped t y.promoted).id = id :=
          (show y.id = id from sound.id_eq stored)
        refine Or.inr ⟨anonymous, y, (before.store.restamped t y.promoted).stamp, t, stored, hidden,
          moved, before.store.stamp_le_restamped t y.promoted, ?_, ?_⟩
        · exact same.outputs.trans idle.outputs
        · rw [same.filters, ← idle.filters]
          change Table.put (before.store.restamped t y.promoted).id _ _ = _
          rw [hid]
          rfl

section

variable {answer : (q : Query) → World → σ → q.Reply × World × σ} {t t' : σ} {e : ServiceError}

namespace Blueprints

/-- A submission that fails leaves the documents, or has made an output. -/
theorem run_submit_of_error {b : Blueprint} (sound : w.store.Sound)
    (ran : ((submit b) w).run answer t = (.error e, w', t')) :
    w'.store.backend.filters = w.store.backend.filters ∧
      (w'.store.backend.outputs = w.store.backend.outputs ∨
        ∃ o, o.filterId = b.id ∧ w.AddsOutput w' o) := by
  unfold submit at ran
  by_cases submitted : b.isSubmitted = true
  · rw [if_pos submitted] at ran
    obtain ⟨-, rfl, -⟩ : _ ∧ w = w' ∧ _ := by simpa [Request.fail, Step.run] using ran
    exact ⟨rfl, Or.inl rfl⟩
  · rw [if_neg submitted, Request.run_bind Request.run_now, Request.run_bind Request.run_drawId] at ran
    rcases Request.of_run_write ran with ⟨error, failed⟩ | ⟨o, w₁, made, ran⟩
    · obtain ⟨filters, outputs⟩ := Store.addOutput_of_error failed
      exact ⟨filters, Or.inl outputs⟩
    · obtain ⟨free, hfilter, store⟩ := Store.addOutput_of_ok made
      have filters : w₁.store.backend.filters = w.store.backend.filters :=
        congrArg (·.backend.filters) store
      have outputs : w₁.store.backend.outputs = w.store.backend.outputs ++ [(o.id, o.encode)] :=
        (congrArg (·.backend.outputs) store).trans (Table.put_of_lookup_eq_none free o.encode)
      rcases Request.of_run_write ran with ⟨error, failed⟩ | ⟨c, w₂, -, ran⟩
      · have left : w'.store = w₁.store.touched :=
          Store.modifyFilter_of_error (e := .change _) (sound.of_filters_eq filters) failed
        refine ⟨?_, Or.inr ⟨o, hfilter, free, ?_⟩⟩
        · rw [left]
          exact filters
        · rw [left]
          exact outputs
      · -- once the blueprint is marked nothing fails any more
        rw [Request.run_bind (Request.run_count _), Request.run_bind (Request.run_enqueue _)] at ran
        generalize (w₂.channel.enqueue _).1 = sent at ran
        have ended : (.ok c : Except ServiceError Blueprint) = .error e := by
          cases sent <;> exact congrArg Prod.fst ran
        simp at ended

end Blueprints

variable {caller : Caller} {call : ServiceCall}

/-- A call that submits nothing leaves the outputs that blueprints name stored. -/
theorem ServiceCall.refers (still : Still answer) (sound : w.store.Sound) (refers : w.store.Refers)
    (plain : call.submits = false) {r : Except ServiceError Answer}
    (ran : ((call.request settings caller) w).run answer t = (r, w', t')) :
    w'.store.Sound ∧ w'.store.Refers := by
  obtain ⟨strokes, ends, leads⟩ := ServiceCall.runs still sound ran
  refine ⟨leads.sound sound, leads.refers sound (fun id tag outputId time marked => ?_) refers⟩
  have submitting : call.submits = true := ends.by _ marked
  simp [plain] at submitting

/-- A call that takes a step and submits then, and does no more than that step if it is not to
submit. -/
theorem ServiceCall.spares_of_step (still : Still answer) (sound : w.store.Sound)
    (refers : w.store.Refers) (submits : call.submits = true)
    (step : Request ServiceError Blueprint)
    (request : call.request settings caller =
      step >>= Blueprints.submit >>= fun b => pure (.blueprint b))
    (stays : ∀ e w₁ t₁, (step w).run answer t = (.error e, w₁, t₁) → w.SameDocuments w₁)
    (alone : ∀ b w₁ t₁, (step w).run answer t = (.ok b, w₁, t₁) →
      ((call.unsubmitting.request settings caller) w).run answer t = (.ok (.blueprint b), w₁, t₁))
    (ran : ((call.request settings caller) w).run answer t = (.error e, w', t')) :
    call.Spares settings answer t caller w w' := by
  rw [request] at ran
  rcases stepped : (step w).run answer t with ⟨error | b, w₁, t₁⟩
  · rw [Request.run_bind_of_error (Request.run_bind_of_error stepped _)] at ran
    cases ran
    exact .same (stays _ _ _ stepped)
  · have plain : call.unsubmitting.submits = false := by
      cases call <;> rfl
    obtain ⟨sound₁, refers₁⟩ := ServiceCall.refers still sound refers plain (alone b w₁ t₁ stepped)
    have submitted : ((Blueprints.submit b) w₁).run answer t₁ = (.error e, w', t') := by
      rw [bind_assoc, Request.run_bind stepped] at ran
      rcases ended : ((Blueprints.submit b) w₁).run answer t₁ with ⟨error | c, w₂, t₂⟩
      · rw [Request.run_bind_of_error ended] at ran
        cases ran
        rfl
      · rw [Request.run_bind ended, Request.run_pure] at ran
        cases ran
    obtain ⟨filters, outputs⟩ := Blueprints.run_submit_of_error sound₁ submitted
    refine .submitting submits (alone b w₁ t₁ stepped) filters (outputs.imp_right ?_)
    rintro ⟨o, hfilter, adds⟩
    refine ⟨o, hfilter, adds, fun c stored names => ?_⟩
    have stored₁ : w₁.store.filter? c.id = some c :=
      (Store.filter?_of_filters_eq filters c.id).symm.trans stored
    have known := refers₁ c.id c o.id stored₁ names
    rw [adds.free] at known
    simp at known

/-- A submission that fails does not take back the blueprint that was created before it. -/
theorem ServiceCall.spares_create (still : Still answer) (sound : w.store.Sound)
    (refers : w.store.Refers) {r : NewBlueprint}
    (ran : (((create r true).request settings caller) w).run answer t = (.error e, w', t')) :
    (create r true).Spares settings answer t caller w w' := by
  refine spares_of_step still sound refers rfl (Blueprints.create settings r false caller) ?_ ?_ ?_ ran
  · rw [← Blueprints.create_submitting]
    rfl
  · intro e w₁ t₁ failed
    have ran : (((create r false).request settings caller) w).run answer t = (.error e, w₁, t₁) :=
      Request.run_bind_of_error failed _
    obtain ⟨strokes, rfl | ⟨submitting, -⟩, leads⟩ := ServiceCall.runs still sound ran
    · exact leads.same
    · simp at submitting
  · intro b w₁ t₁ stepped
    exact Request.run_bind stepped _

/-- An update that fails before its submission changes no document. -/
theorem Blueprints.same_of_edition (still : Still answer) (sound : w.store.Sound) {u : BlueprintUpdate}
    {selector : Selector}
    (ran : ((edition settings id u selector caller) w).run answer t = (.error e, w', t')) :
    w.SameDocuments w' := by
  have nothing : Permits settings (fun _ own => Traced settings own []) [] := ⟨.nil, fun _ _ _ h => h⟩
  have accounts : (edition settings id u selector caller).Accounts
      (.story settings fun _ own => Traced settings own []) ⟨0, caller, .get id selector⟩ []
      fun _ _ => True := by
    refine (story_revision .start nothing id u selector caller).bind ?_
    rintro ⟨current, change⟩ own ⟨hid, plain, inHand, h⟩
    refine Request.accounts_ite (fun _ => nothing.steady.fail h rfl) fun _ => ?_
    exact (story_revise h nothing hid inHand plain).weaken fun _ _ _ => trivial
  obtain ⟨own, unbroken, traced⟩ := accounts.runs still sound ran
  exact (traced.leads unbroken).same

/-- A submission that fails does not take back the update before it, nor the output that it made. -/
theorem ServiceCall.spares_update (still : Still answer) (sound : w.store.Sound)
    (refers : w.store.Refers) {u : BlueprintUpdate} {selector : Selector}
    (ran : (((update id u true selector).request settings caller) w).run answer t =
      (.error e, w', t')) :
    (update id u true selector).Spares settings answer t caller w w' := by
  refine spares_of_step still sound refers rfl (Blueprints.edition settings id u selector caller) ?_
    (fun _ _ _ => Blueprints.same_of_edition still sound) ?_ ran
  · rw [← Blueprints.update_submitting]
    rfl
  · intro b w₁ t₁ stepped
    obtain ⟨⟨current, change⟩, w₂, t₂, found, revised⟩ := Request.of_run_bind stepped
    by_cases submitted : current.isSubmitted = true
    · rw [if_pos submitted] at revised
      cases revised
    · rw [if_neg submitted] at revised
      have updated : ((Blueprints.update settings id u false selector caller) w).run answer t =
          (.ok b, w₁, t₁) := by
        rw [Blueprints.update_plain, Request.run_bind found]
        exact revised
      exact Request.run_bind updated _

end

section

variable {answer : (q : Query) → World → σ → q.Reply × World × σ} {t t' : σ} {call : ServiceCall}
  {caller : Caller} {r : Except ServiceError Answer}

/-- A reader and a request that fails leave the documents, but for what goes before. -/
theorem ServiceCall.spares (still : Still answer) (sound : w.store.Sound) (refers : w.store.Refers)
    (ran : ((call.request settings caller) w).run answer t = (r, w', t'))
    (idle : call.reads = true ∨ call.Fails r) : call.Spares settings answer t caller w w' := by
  obtain ⟨strokes, ends, leads⟩ := ServiceCall.runs still sound ran
  have looks {id : String} {selector : Selector} (target : call.target? = some (id, selector))
      (looks : caller.Looks id strokes) : call.Spares settings answer t caller w w' := by
    rcases looks.leads leads sound with same | ⟨anonymous, promotes⟩
    · exact .same same
    · exact .promoted target anonymous promotes
  have nothing (none : strokes = []) : call.Spares settings answer t caller w w' := by
    subst none
    exact .same leads.same
  cases call with
  | create request andSubmit =>
    obtain ⟨e, rfl, -⟩ := idle.resolve_left Bool.false_ne_true
    cases andSubmit with
    | true => exact spares_create still sound refers ran
    | false =>
      rcases ends with none | ⟨submitting, -⟩
      · exact nothing none
      · simp at submitting
  | update id u andSubmit selector =>
    obtain ⟨e, rfl, -⟩ := idle.resolve_left Bool.false_ne_true
    cases andSubmit with
    | true => exact spares_update still sound refers ran
    | false =>
      rcases ends with none | ⟨submitting, -⟩
      · exact nothing none
      · simp at submitting
  | get | dimensions | dimension | options | option => exact looks rfl ends
  | addDimension | removeDimension | addOption | removeOption =>
    obtain ⟨e, rfl, -⟩ := idle.resolve_left Bool.false_ne_true
    rcases ends with looked | ⟨ok, -⟩
    · exact looks rfl looked
    · cases ok
  | patch id name operations selector =>
    obtain ⟨e, rfl, whole⟩ := idle.resolve_left Bool.false_ne_true
    obtain ⟨base, looked, patches⟩ := ends
    rw [carriedOut, ServiceError.carriedOut_of_ne (whole rfl)] at patches
    exact looks rfl (patches.eq_of_nil ▸ looked)
  | output id => exact nothing ends
  | updateOutput | addEvent =>
    obtain ⟨e, rfl, -⟩ := idle.resolve_left Bool.false_ne_true
    exact nothing ends

/-- A request that does not fail changes what it is about. -/
theorem ServiceCall.changes (still : Still answer) (sound : w.store.Sound)
    (ran : ((call.request settings caller) w).run answer t = (r, w', t')) (goes : ¬call.Fails r) :
    call.Changes w w' r := by
  obtain ⟨strokes, ends, leads⟩ := ServiceCall.runs still sound ran
  have succeeds (other : call.isPatch = false) : ∃ a, r = .ok a := by
    cases r with
    | ok a => exact ⟨a, rfl⟩
    | error e => exact absurd ⟨e, rfl, by simp [other]⟩ goes
  cases call with
  | create request andSubmit =>
    obtain ⟨a, rfl⟩ := succeeds rfl
    obtain ⟨b, given, h⟩ := ends
    have on : ∀ stroke ∈ [.counts .blueprintsCreated, Stroke.creates b], stroke.On .filters b.id := by
      simp [Stroke.On, Stroke.target?, eq_comm]
    obtain ⟨free, changes⟩ : w.store.backend.find? .filters b.id = none ∧
        w.Changes w' b.id andSubmit := by
      cases andSubmit with
      | true =>
        obtain ⟨o, later, -, rfl, -⟩ := Submits.parts h
        have made := leads
        rw [List.append_cons] at made
        obtain ⟨mid, created, -⟩ := made.split
        exact ⟨created.free_of_creates sound, leads.changes_submits sound h on⟩
      | false =>
        obtain rfl : strokes = _ := h
        exact ⟨leads.free_of_creates sound, leads.changes sound on⟩
    cases a with
    | blueprint c =>
      obtain hid : c.id = b.id := Option.some.inj given
      exact ⟨c, rfl, hid ▸ free, hid ▸ changes⟩
    | _ => simp [Answer.blueprintId?] at given
  | update id u andSubmit selector =>
    obtain ⟨a, rfl⟩ := succeeds rfl
    obtain ⟨base, revises, h⟩ := ends
    cases andSubmit with
    | true => exact leads.changes_submits sound h revises.on
    | false =>
      obtain rfl : strokes = _ := h
      exact leads.changes sound revises.on
  | get | dimensions | dimension | options | option => exact leads.changes sound ends.on
  | addDimension | removeDimension | addOption | removeOption =>
    rcases ends with looked | ⟨-, base, tag, e, looked, rfl⟩
    · exact leads.changes sound looked.on
    · refine leads.changes sound ?_
      simpa [Stroke.On, Stroke.target?, eq_comm] using looked.on
  | patch id name operations selector =>
    obtain ⟨base, looked, patches⟩ := ends
    exact leads.changes sound (patches.on looked.on)
  | output id =>
    obtain rfl : strokes = [] := ends
    exact leads.same
  | updateOutput id u =>
    obtain ⟨a, rfl⟩ := succeeds rfl
    have on : ∀ stroke ∈ strokes, stroke.On .outputs id := by
      rcases ends with rfl | rfl <;> simp [Stroke.On, Stroke.target?, eq_comm]
    obtain ⟨outputs, others⟩ := leads.frame sound on
    exact ⟨others .filters (by simp), outputs⟩
  | addEvent id request =>
    obtain ⟨a, rfl⟩ := succeeds rfl
    obtain ⟨e, -, rfl⟩ := ends
    have on : ∀ stroke ∈ [Stroke.records id e], stroke.On .outputs id := by
      simp [Stroke.On, Stroke.target?, eq_comm]
    obtain ⟨outputs, others⟩ := leads.frame sound on
    exact ⟨others .filters (by simp), outputs⟩

end

variable {answers : Nat → (q : Query) → q.Reply → Prop} {past : List Moment} {s : Server}

/-- From every state that a run reaches which starts without documents, whatever fails: a request that
runs with nobody else writing leaves the documents alone if it only reads or fails, but for what
`ServiceCall.Spares` names, and changes what it is about if it does not fail, and nothing else. -/
theorem Run.framed (filters : start.store.backend.filters = [])
    (run : Run settings answers start past s)
    {answer : (q : Query) → World → σ → q.Reply × World × σ} (still : Still answer)
    (call : ServiceCall) (caller : Caller) {t t' : σ} {r : Except ServiceError Answer}
    (ran : ((call.request settings caller) s.world).run answer t = (r, w', t')) :
    (call.reads = true ∨ call.Fails r → call.Spares settings answer t caller s.world w') ∧
      (¬call.Fails r → call.Changes s.world w' r) := by
  have sound := (run.struck (.of_empty filters)).1
  exact ⟨ServiceCall.spares still sound (run.refers filters) ran, ServiceCall.changes still sound ran⟩

end

namespace Small.Broken

/-- The world of the small run over a store that cannot change blueprints. -/
def world : World := { Small.world with
  store := { backend := { outage := fun _ a c =>
    if a = .modify ∧ c = .filters then some "read-only" else none } } }

def calls : List (Caller × ServiceCall) := [(known, .create ⟨dataset, [⟨"age", []⟩], ""⟩ false)]

/-- A blueprint has been created. -/
def moments : List Moment := course settings reply world calls

def submission : ServiceCall := .update "f" {} true .any

/-- How a request to submit the blueprint ends. -/
def ended : Except ServiceError Answer × World × Unit :=
  ((submission.request settings known) (lastWorld world moments)).run alone ()

theorem computed : ended.1.isOk = false ∧ (lastWorld world moments).store.backend.outputs = [] ∧
    ended.2.1.store.backend.outputs ≠ [] := by
  decide +kernel

/-- The submission fails and leaves one output behind, which no blueprint names. -/
theorem output_left_behind : ∃ s o, Run settings answers world moments s ∧ ended.1.isOk = false ∧
    s.world.store.backend.outputs = [] ∧
    ended.2.1.store.backend.outputs = [(o.id, Output.encode o)] ∧
    ∀ c, ended.2.1.Stores c → c.outputId ≠ some o.id := by
  obtain ⟨s, (run : Run settings answers world moments s), -⟩ := Run.of_course answers_reply calls
  have still : Still alone := fun _ w _ => .refl w
  obtain ⟨failed, before, after⟩ := computed
  have left : s.world = lastWorld world moments := run.world_eq
  rw [← left] at before
  rcases hended : ended with ⟨r, w, t⟩
  rw [hended] at failed after
  have ran : ((submission.request settings known) s.world).run alone () = (r, w, t) := by
    rw [left]
    exact hended
  have fails : submission.Fails r := by
    cases r with
    | ok a => cases failed
    | error error => exact ⟨error, rfl, fun patch => by cases patch⟩
  refine ⟨s, ?_⟩
  rcases (Run.framed rfl run still submission known ran).1 (Or.inr fails) with
    same | ⟨-, anonymous, -⟩ | ⟨-, step, -, outputs⟩
  · exact absurd (same.outputs.trans before) after
  · cases anonymous
  · -- without its submission the request would have left the outputs as they were
    have goes (b : Blueprint) : ¬submission.unsubmitting.Fails (.ok (.blueprint b)) := nofun
    have kept := ((Run.framed rfl run still submission.unsubmitting known step).2 (goes _)).outputs
    rw [if_neg Bool.false_ne_true, before] at kept
    rcases outputs with same | ⟨o, -, adds, unnamed⟩
    · exact absurd (same.trans kept) after
    · have added := adds.outputs
      rw [kept] at added
      exact ⟨o, run, failed, before, added, unnamed⟩

end Small.Broken

end DatasetFilters
